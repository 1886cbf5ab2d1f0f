import Coold.Cli.Apply
import Coold.Cli.Meshnet

/-!
# The documents whose hashes are compared

The planner compares the hashes of three documents, and the phases write them by here-documents.  They are made of lines
that begin differently from the markers, so a here-document is read as it is written; and they list peers and namespaces
in sorted order, so the order in which these are given does not matter.  What is written therefore has the hash that is
expected (`written_hashes`).
-/

namespace Coold.Cli

open Shell

/-! ### Lines -/

/-- The text has no line feed in it. -/
def OneLine (s : String) : Prop := '\n' ∉ s.toList

/-- A line that begins differently from the markers of here-documents, and not with nothing. -/
def Opens (s : String) : Prop := OneLine s ∧ s ≠ "" ∧ s.toList.head? ≠ some 'C'

/-- A line of a document. -/
def DocLine (s : String) : Prop := s = "" ∨ Opens s

/-- The characters of a literal are looked through one by one. -/
theorem oneLine_lit (l : List Char) (h : (l.all fun c => c != '\n') = true) : OneLine (String.ofList l) := by
  unfold OneLine
  rw [String.toList_ofList]
  intro hc
  simpa using List.all_eq_true.1 h _ hc

private theorem opens_lit (c : Char) (l : List Char) (hc : c ≠ 'C') (h : ((c :: l).all fun c => c != '\n') = true) :
    Opens (String.ofList (c :: l)) := by
  refine ⟨oneLine_lit _ h, ?_, ?_⟩
  · rw [Ne, ← String.toList_eq_nil_iff, String.toList_ofList]
    simp
  · rw [String.toList_ofList]
    simpa using hc

private theorem docLine_lit (c : Char) (l : List Char) (hc : c ≠ 'C') (h : ((c :: l).all fun c => c != '\n') = true) :
    DocLine (String.ofList (c :: l)) :=
  .inr (opens_lit c l hc h)

private theorem docLine_empty : DocLine "" := .inl rfl

private theorem oneLine_append {a b : String} : OneLine (a ++ b) ↔ OneLine a ∧ OneLine b := by
  unfold OneLine
  rw [String.toList_append, List.mem_append, not_or]

theorem OneLine.append {a b : String} (ha : OneLine a) (hb : OneLine b) : OneLine (a ++ b) := oneLine_append.2 ⟨ha, hb⟩

theorem Opens.append {a b : String} (ha : Opens a) (hb : OneLine b) : Opens (a ++ b) := by
  obtain ⟨hone, hne, hhead⟩ := ha
  have hlist : a.toList ≠ [] := by rwa [Ne, String.toList_eq_nil_iff]
  refine ⟨hone.append hb, ?_, ?_⟩
  · rw [Ne, ← String.toList_eq_nil_iff, String.toList_append]
    simp [hlist]
  · rw [String.toList_append, List.head?_append_of_ne_nil _ hlist]
    exact hhead

theorem oneLine_nat (n : Nat) : OneLine (toString n) := Str.notMem_toString (by decide) n

theorem oneLine_ip (ip : Ipv4Addr) : OneLine (ipv4ToString ip) := by
  have hdot : OneLine "." := oneLine_lit _ (by decide)
  unfold ipv4ToString
  simp only [oneLine_append, oneLine_nat, hdot, and_true]

private theorem oneLine_net (net : Ipv4Net) : OneLine (toString net) :=
  ((oneLine_ip _).append (oneLine_lit _ (by decide))).append (oneLine_nat _)

theorem oneLine_intercalate {sep : String} (hsep : OneLine sep) {parts : List String} (h : ∀ p ∈ parts, OneLine p) :
    OneLine (sep.intercalate parts) := by
  have hne : ∀ {s : String}, OneLine s → ∀ c ∈ s.toList, c ≠ '\n' := fun hs c hc heq => hs (heq ▸ hc)
  exact fun hc => Str.forall_mem_intercalate (hne hsep) (fun p hp => hne (h p hp)) _ hc rfl

private theorem docLine_append {a b : String} (ha : Opens a) (hb : OneLine b) : DocLine (a ++ b) := .inr (ha.append hb)

/-- A document of such lines is read from a here-document as it is written. -/
private theorem hereDocument_of_docLine {marker : String} (hm : OneLine marker) (hc : marker.toList.head? = some 'C')
    {ls : List String} (h : ∀ l ∈ ls, DocLine l) : hereDocument marker (unlines ls) = unlines ls := by
  refine hereDocument_unlines hm fun l hl => ?_
  rcases h l hl with rfl | hopens
  · refine ⟨by simp, ?_⟩
    rintro rfl
    simp at hc
  · refine ⟨hopens.1, ?_⟩
    rintro rfl
    exact hopens.2.2 hc

/-! ### The lines of the documents -/

section Lines

private theorem docLine_configLines (bindAddr : Ipv4Addr) (gossipPort apiPort : UInt16) (peers : List Ipv4Addr)
    (gossipTls : Bool) : ∀ l ∈ Corrosion.configLines bindAddr gossipPort apiPort peers gossipTls, DocLine l := by
  have hquote : OneLine "\"" := oneLine_lit _ (by decide)
  have hquoted : ∀ ip, OneLine ("\"" ++ ipv4ToString ip ++ ":" ++ toString gossipPort.toNat ++ "\"") := by
    intro ip
    simp only [oneLine_append, hquote, oneLine_ip, oneLine_nat, and_true, true_and]
    exact oneLine_lit _ (by decide)
  have hpeers : OneLine (", ".intercalate ((peers.insertionSort fun a b => a ≤ b).map fun ip =>
      "\"" ++ ipv4ToString ip ++ ":" ++ toString gossipPort.toNat ++ "\"")) :=
    oneLine_intercalate (oneLine_lit _ (by decide)) (List.forall_mem_map.2 fun ip _ => hquoted ip)
  have htls : ∀ l ∈ (if gossipTls then Corrosion.gossipTlsToml else ["plaintext = true"]), DocLine l := by
    cases gossipTls
    · exact List.forall_mem_singleton.2 (docLine_lit _ _ (by decide) (by decide))
    · change ∀ l ∈ Corrosion.gossipTlsToml, DocLine l
      unfold Corrosion.gossipTlsToml
      simp only [List.forall_mem_cons]
      refine ⟨docLine_lit _ _ (by decide) (by decide), docLine_lit _ _ (by decide) (by decide), ?_, ?_,
        docLine_lit _ _ (by decide) (by decide), by simp⟩
      · exact docLine_append ((opens_lit _ _ (by decide) (by decide)).append (oneLine_lit _ (by decide))) hquote
      · exact docLine_append ((opens_lit _ _ (by decide) (by decide)).append (oneLine_lit _ (by decide))) hquote
  unfold Corrosion.configLines
  simp only [List.forall_mem_append]
  refine ⟨⟨?_, htls⟩, ?_⟩
  · simp only [List.forall_mem_cons]
    refine ⟨docLine_lit _ _ (by decide) (by decide), docLine_lit _ _ (by decide) (by decide),
      docLine_lit _ _ (by decide) (by decide), docLine_lit _ _ (by decide) (by decide), docLine_empty,
      docLine_lit _ _ (by decide) (by decide), ?_, ?_, by simp⟩
    · exact docLine_append (opens_lit _ _ (by decide) (by decide)) (hquoted _)
    · exact docLine_append ((opens_lit _ _ (by decide) (by decide)).append hpeers) (oneLine_lit _ (by decide))
  · simp only [List.forall_mem_cons]
    refine ⟨docLine_empty, docLine_lit _ _ (by decide) (by decide), ?_, docLine_empty,
      docLine_lit _ _ (by decide) (by decide), docLine_lit _ _ (by decide) (by decide), by simp⟩
    exact docLine_append ((opens_lit _ _ (by decide) (by decide)).append (oneLine_nat _)) hquote

variable {namespaces : List CooldService.CooldNamespace}
  (hns : ∀ n ∈ namespaces, OneLine n.name ∧ OneLine n.network)

include hns

private theorem docLine_serviceUnitLines (mgmtIp : Ipv4Addr) {flux : Option FluxConfig}
    (hflux : ∀ f ∈ flux, OneLine f.url ∧ OneLine f.jwtPath ∧ ∀ pin ∈ f.tlsPinPath, OneLine pin) :
    ∀ l ∈ CooldService.serviceUnitLines mgmtIp namespaces flux, DocLine l := by
  have hcolon : OneLine ":" := oneLine_lit _ (by decide)
  have hspace : OneLine " " := oneLine_lit _ (by decide)
  have hanchor : OneLine CooldService.meshDnsAnchorService := oneLine_lit _ (by decide)
  have hresolver : OneLine CooldService.meshDnsResolverService := oneLine_lit _ (by decide)
  have hvalue : OneLine (CooldService.namespacesEnvValue namespaces) := by
    refine oneLine_intercalate (oneLine_lit _ (by decide)) (List.forall_mem_map.2 fun n hn => ?_)
    simp only [oneLine_append, hns n hn, hcolon, oneLine_ip, and_true]
  have hunits : OneLine (if namespaces.isEmpty then "" else
      " " ++ CooldService.meshDnsAnchorService ++ " " ++ CooldService.meshDnsResolverService) := by
    cases namespaces.isEmpty
    · simp only [Bool.false_eq_true, ↓reduceIte, oneLine_append, hspace, hanchor, hresolver, and_true]
    · exact oneLine_lit [] rfl
  have hnsEnv : ∀ l ∈ (if namespaces.isEmpty then [] else
      ["Environment=COOLIFY_COOLD_NAMESPACES=" ++ CooldService.namespacesEnvValue namespaces,
        "Environment=COOLIFY_COOLD_DNS_ZONE=" ++ CooldService.defaultCooldDnsZone]), DocLine l := by
    split
    · simp
    · simp only [List.forall_mem_cons]
      exact ⟨docLine_append (opens_lit _ _ (by decide) (by decide)) hvalue,
        docLine_append (opens_lit _ _ (by decide) (by decide)) (oneLine_lit _ (by decide)), by simp⟩
  unfold CooldService.serviceUnitLines CooldService.hardeningDirectives
  simp only [List.forall_mem_append]
  refine ⟨⟨⟨⟨⟨?_, hnsEnv⟩, ?_⟩, ?_⟩, ?_⟩, ?_⟩
  · simp only [List.forall_mem_cons]
    exact ⟨docLine_lit _ _ (by decide) (by decide), docLine_lit _ _ (by decide) (by decide),
      docLine_append (opens_lit _ _ (by decide) (by decide)) hunits,
      docLine_append (opens_lit _ _ (by decide) (by decide)) hunits, docLine_empty,
      docLine_lit _ _ (by decide) (by decide), docLine_append (opens_lit _ _ (by decide) (by decide)) (oneLine_ip _),
      by simp⟩
  · cases flux with
    | none => simp
    | some f =>
      obtain ⟨hurl, hjwt, hpin⟩ := hflux f rfl
      simp only [List.forall_mem_append, List.forall_mem_cons]
      refine ⟨⟨docLine_append (opens_lit _ _ (by decide) (by decide)) hurl,
        docLine_append (opens_lit _ _ (by decide) (by decide)) hjwt, by simp⟩, ?_⟩
      cases hpath : f.tlsPinPath with
      | none => simp
      | some pin =>
        simp only [List.forall_mem_cons]
        exact ⟨docLine_append (opens_lit _ _ (by decide) (by decide)) (hpin pin hpath), by simp⟩
  · simp only [List.forall_mem_cons]
    exact ⟨docLine_lit _ _ (by decide) (by decide), docLine_lit _ _ (by decide) (by decide), by simp⟩
  · simp only [List.forall_mem_cons]
    refine ⟨?_, ?_, ?_, ?_, ?_, ?_, by simp⟩ <;> exact docLine_lit _ _ (by decide) (by decide)
  · simp only [List.forall_mem_cons]
    exact ⟨docLine_lit _ _ (by decide) (by decide), docLine_lit _ _ (by decide) (by decide), docLine_empty,
      docLine_lit _ _ (by decide) (by decide), docLine_lit _ _ (by decide) (by decide), by simp⟩

private theorem hereDocument_meshDnsAnchorUnit {marker : String} (hm : OneLine marker)
    (hc : marker.toList.head? = some 'C') :
    hereDocument marker (CooldService.meshDnsAnchorUnit namespaces) = CooldService.meshDnsAnchorUnit namespaces := by
  have hname : ∀ n ∈ namespaces, OneLine (CooldService.meshDnsAnchorContainerName n.name) := by
    intro n hn
    change OneLine ("coolify-mesh-dns-anchor-" ++ n.name)
    exact (oneLine_lit _ (by decide)).append (hns n hn).1
  have hquote : OneLine "'" := oneLine_lit _ (by decide)
  have hsep : OneLine "; " := oneLine_lit _ (by decide)
  unfold CooldService.meshDnsAnchorUnit
  refine hereDocument_of_docLine hm hc ?_
  simp only [List.forall_mem_cons]
  refine ⟨docLine_lit _ _ (by decide) (by decide), docLine_lit _ _ (by decide) (by decide),
    docLine_lit _ _ (by decide) (by decide), docLine_lit _ _ (by decide) (by decide), docLine_empty,
    docLine_lit _ _ (by decide) (by decide), docLine_lit _ _ (by decide) (by decide),
    docLine_lit _ _ (by decide) (by decide), ?_, ?_, docLine_empty, docLine_lit _ _ (by decide) (by decide),
    docLine_lit _ _ (by decide) (by decide), by simp⟩
  · refine docLine_append (Opens.append (opens_lit _ _ (by decide) (by decide)) (oneLine_intercalate hsep ?_)) hquote
    refine List.forall_mem_map.2 fun n hn => ?_
    simp only [oneLine_append, hname n hn, hns n hn, and_true]
    and_intros <;> exact oneLine_lit _ (by decide)
  · refine docLine_append (Opens.append (opens_lit _ _ (by decide) (by decide)) (oneLine_intercalate hsep ?_)) hquote
    refine List.forall_mem_map.2 fun n hn => ?_
    simp only [oneLine_append, hname n hn, and_true]
    and_intros <;> exact oneLine_lit _ (by decide)

private theorem hereDocument_meshDnsResolverUnit {marker : String} (hm : OneLine marker)
    (hc : marker.toList.head? = some 'C') :
    hereDocument marker (CooldService.meshDnsResolverUnit namespaces) =
      CooldService.meshDnsResolverUnit namespaces := by
  unfold CooldService.meshDnsResolverUnit
  refine hereDocument_of_docLine hm hc ?_
  simp only [List.forall_mem_cons]
  refine ⟨docLine_lit _ _ (by decide) (by decide), docLine_lit _ _ (by decide) (by decide),
    docLine_append (opens_lit _ _ (by decide) (by decide)) (oneLine_lit _ (by decide)),
    docLine_append (opens_lit _ _ (by decide) (by decide)) (oneLine_lit _ (by decide)), docLine_empty,
    docLine_lit _ _ (by decide) (by decide), docLine_lit _ _ (by decide) (by decide), ?_, docLine_empty,
    docLine_lit _ _ (by decide) (by decide), docLine_lit _ _ (by decide) (by decide), by simp⟩
  refine docLine_append (Opens.append (opens_lit _ _ (by decide) (by decide))
    (oneLine_intercalate (oneLine_lit _ (by decide)) ?_)) (oneLine_lit _ (by decide))
  refine List.forall_mem_map.2 fun n hn => ?_
  simp only [oneLine_append, oneLine_ip, hns n hn, and_true]
  and_intros <;> exact oneLine_lit _ (by decide)

end Lines

section FirewallLines

open Firewall

private theorem docLine_startSh {command : String} (h : OneLine command) : DocLine (startSh command) :=
  docLine_append (Opens.append (opens_lit _ _ (by decide) (by decide)) h) (oneLine_lit _ (by decide))

private theorem docLine_orTrue {command : String} (h : OneLine command) : DocLine (orTrue command) :=
  docLine_startSh (h.append (oneLine_lit _ (by decide)))

private theorem docLine_orElse {table check command rule : String} (ht : OneLine table) (hk : OneLine check)
    (hc : OneLine command) (hr : OneLine rule) : DocLine (orElse table check command rule) := by
  refine docLine_startSh ?_
  simp only [oneLine_append, ht, hk, hc, hr, and_true]
  and_intros <;> exact oneLine_lit _ (by decide)

private theorem docLine_natLines {iface : String} (hi : OneLine iface) (sn : Ipv4Net) :
    ∀ l ∈ natLines iface sn, DocLine l := by
  unfold natLines
  simp only [List.forall_mem_cons]
  refine ⟨docLine_orElse (oneLine_lit _ (by decide)) (oneLine_lit _ (by decide)) (oneLine_lit _ (by decide)) ?_,
    docLine_startSh ?_, by simp⟩
  · simp only [oneLine_append, hi, oneLine_net, and_true]
    and_intros <;> exact oneLine_lit _ (by decide)
  · simp only [oneLine_append, hi, oneLine_net, and_true]
    and_intros <;> exact oneLine_lit _ (by decide)

private theorem docLine_denyLines (subnets : List Ipv4Net) : ∀ l ∈ denyLines subnets, DocLine l := by
  unfold denyLines
  simp only [List.forall_mem_append, List.forall_mem_cons, List.forall_mem_flatMap]
  refine ⟨⟨⟨⟨docLine_lit _ _ (by decide) (by decide), fun sn _ => ⟨docLine_orTrue ?_, docLine_orTrue ?_, by simp⟩⟩,
    docLine_empty, docLine_orTrue (oneLine_lit _ (by decide)), docLine_orTrue (oneLine_lit _ (by decide)),
    docLine_lit _ _ (by decide) (by decide), docLine_lit _ _ (by decide) (by decide),
    docLine_lit _ _ (by decide) (by decide), docLine_startSh ?_, ?_, by simp⟩, fun sn _ => ⟨?_, ?_, by simp⟩⟩,
    docLine_startSh ?_, docLine_orTrue ?_, docLine_orTrue ?_, docLine_orTrue ?_, docLine_startSh ?_,
    docLine_startSh ?_, by simp⟩
  case refine_4 =>
    refine docLine_orElse (oneLine_lit [] rfl) (oneLine_lit _ ?_) (oneLine_lit _ ?_) (oneLine_lit _ ?_) <;> decide
  case refine_5 =>
    refine docLine_orElse (oneLine_lit [] rfl) (oneLine_lit _ (by decide)) (oneLine_lit _ (by decide)) ?_
    simp only [oneLine_append, oneLine_net, and_true]
    and_intros <;> exact oneLine_lit _ (by decide)
  case refine_6 =>
    refine docLine_orElse (oneLine_lit [] rfl) (oneLine_lit _ (by decide)) (oneLine_lit _ (by decide)) ?_
    simp only [oneLine_append, oneLine_net, and_true]
    and_intros <;> exact oneLine_lit _ (by decide)
  case refine_1 | refine_2 =>
    simp only [oneLine_append, oneLine_net, and_true]
    and_intros <;> exact oneLine_lit _ (by decide)
  all_goals
    simp only [oneLine_append]
    and_intros <;> exact oneLine_lit _ (by decide)

private theorem docLine_permitLines (subnets : List Ipv4Net) : ∀ l ∈ permitLines subnets, DocLine l := by
  unfold permitLines
  simp only [List.forall_mem_append, List.forall_mem_cons, List.forall_mem_flatMap]
  refine ⟨⟨docLine_lit _ _ (by decide) (by decide), docLine_orTrue (oneLine_lit _ (by decide)),
    docLine_orTrue (oneLine_lit _ (by decide)),
    docLine_orTrue ((oneLine_lit _ (by decide)).append (oneLine_lit _ (by decide))), by simp⟩, fun sn _ =>
      ⟨?_, ?_, by simp⟩⟩
  all_goals
    refine docLine_orElse (oneLine_lit [] rfl) (oneLine_lit _ (by decide)) (oneLine_lit _ (by decide)) ?_
    simp only [oneLine_append, oneLine_net, and_true]
    and_intros <;> exact oneLine_lit _ (by decide)

private theorem docLine_firewallUnitLines {iface : String} (hi : OneLine iface) (subnets : List Ipv4Net)
    (defaultDeny : Bool) :
    ∀ l ∈ firewallUnitLines iface subnets defaultDeny, DocLine l := by
  have hafter : DocLine ("After=wg-quick@" ++ iface ++ ".service network-online.target") :=
    docLine_append (Opens.append (opens_lit _ _ (by decide) (by decide)) hi) (oneLine_lit _ (by decide))
  have hchain : ∀ l ∈ (if defaultDeny then denyLines subnets else permitLines subnets), DocLine l := by
    cases defaultDeny
    · exact docLine_permitLines subnets
    · exact docLine_denyLines subnets
  unfold firewallUnitLines
  simp only [List.forall_mem_append, List.forall_mem_cons, List.forall_mem_flatMap]
  exact ⟨⟨⟨⟨docLine_lit _ _ (by decide) (by decide), docLine_lit _ _ (by decide) (by decide), hafter,
    docLine_lit _ _ (by decide) (by decide), docLine_empty, docLine_lit _ _ (by decide) (by decide),
    docLine_lit _ _ (by decide) (by decide), docLine_lit _ _ (by decide) (by decide), docLine_empty, by simp⟩,
    fun sn _ => docLine_natLines hi sn⟩, hchain⟩, docLine_empty, docLine_lit _ _ (by decide) (by decide),
    docLine_lit _ _ (by decide) (by decide), by simp⟩

private theorem hereDocument_renderBridgeScaffold (subnets : List Ipv4Net) :
    hereDocument "COOLIFY_BR_EOF" (renderBridgeScaffold subnets) = renderBridgeScaffold subnets := by
  have hset : OneLine (", ".intercalate ((subnets.map fun sn => toString sn).insertionSort fun a b => a ≤ b)) := by
    refine oneLine_intercalate (oneLine_lit _ (by decide)) fun p hp => ?_
    obtain ⟨sn, -, rfl⟩ := List.mem_map.1 ((List.mem_insertionSort _).1 hp)
    exact oneLine_net sn
  unfold renderBridgeScaffold
  refine hereDocument_of_docLine (oneLine_lit _ (by decide)) (by decide) ?_
  simp only [List.forall_mem_cons]
  refine ⟨docLine_lit _ _ (by decide) (by decide), ?_, ?_, ?_, ?_, ?_, ?_, ?_, ?_, ?_, ?_, ?_, by simp⟩
  case refine_1 =>
    exact docLine_append (opens_lit _ _ (by decide) (by decide))
      ((oneLine_lit _ (by decide)).append (oneLine_lit _ (by decide)))
  all_goals
    simp only [String.append_assoc]
    refine docLine_append (opens_lit _ _ (by decide) (by decide)) ?_
    simp only [oneLine_append, hset, true_and]
    and_intros <;> exact oneLine_lit _ (by decide)

end FirewallLines

/-! ### The scripts that write them -/

section Scripts

private theorem wellDelimited_heredoc {path body mode : String} (h : hereDocument "COOLIFY_CLI_EOF" body = body) :
    WellDelimited (heredoc path body mode) := by
  simp [WellDelimited, heredoc, Command.Delimited, h]

/-- A text in lines of which none is the marker. -/
def PemText (s : String) : Prop := ∃ ls, s = unlines ls ∧ ∀ l ∈ ls, OneLine l ∧ l ≠ "COOLIFY_CLI_EOF"

private theorem hereDocument_of_pemText {s : String} (h : PemText s) : hereDocument "COOLIFY_CLI_EOF" s = s := by
  obtain ⟨ls, rfl, hls⟩ := h
  exact hereDocument_unlines (oneLine_lit _ (by decide)) hls

/-- What the command line accepts, with certificates as they are generated. -/
structure DesiredMesh.Accepted (d : DesiredMesh) : Prop where
  interface : validateInterface d.interface = .ok ()
  namespaces : validateNamespaces d.namespaces = .ok ()
  fluxUrl : ∀ url ∈ d.fluxTlsUrl, OneLine url
  gossipCert : ∀ tls ∈ d.corrosionGossipTls, PemText tls.certPem ∧ PemText tls.keyPem
  fluxCert : ∀ tls ∈ d.fluxTls, PemText tls.certPem

section Accepted

variable {d : DesiredMesh} (hd : d.Accepted)

include hd

private theorem DesiredMesh.Accepted.oneLine_interface : OneLine d.interface :=
  newline_notMem_of_isWord (isWord_of_validateInterface hd.interface)

private theorem DesiredMesh.Accepted.oneLine_nsConfigs (subnets : Subnets) (host : String) :
    ∀ n ∈ nsConfigs d subnets host, OneLine n.name ∧ OneLine n.network := by
  intro n hn
  obtain ⟨ns, hns, rfl⟩ := List.mem_map.1 hn
  have hone : OneLine ns := newline_notMem_of_isDnsLabel
    (isDnsLabel_of_validateNamespaces hd.namespaces ns (d.mem_sortedNamespaces.1 hns))
  refine ⟨hone, ?_⟩
  change OneLine ("coolify-" ++ ns ++ "-mesh")
  exact ((oneLine_lit _ (by decide)).append hone).append (oneLine_lit _ (by decide))

private theorem DesiredMesh.Accepted.oneLine_flux :
    ∀ f ∈ d.cooldFluxConfig, OneLine f.url ∧ OneLine f.jwtPath ∧ ∀ pin ∈ f.tlsPinPath, OneLine pin := by
  intro f hf
  obtain ⟨url, hurl, rfl⟩ := Option.map_eq_some_iff.1 hf
  refine ⟨hd.fluxUrl url hurl, oneLine_lit _ (by decide), ?_⟩
  rintro pin ⟨⟩
  exact oneLine_lit _ (by decide)

private theorem wellDelimited_installFirewall (namespaces : List String) (subnets : List Ipv4Net) (defaultDeny : Bool) :
    WellDelimited (Firewall.installFirewallScript d.interface namespaces subnets defaultDeny) := by
  have hunit : hereDocument "COOLIFY_FW_EOF"
      (Firewall.firewallServiceUnit d.interface namespaces subnets defaultDeny) =
        Firewall.firewallServiceUnit d.interface namespaces subnets defaultDeny :=
    hereDocument_of_docLine (oneLine_lit _ (by decide)) (by decide)
      (docLine_firewallUnitLines hd.oneLine_interface subnets defaultDeny)
  unfold Firewall.installFirewallScript
  simp only [wellDelimited_andThen]
  refine ⟨?_, ?_, ?_⟩
  · simp [WellDelimited, Command.Delimited, hunit]
  · cases defaultDeny
    · simp [WellDelimited, Command.Delimited]
    · simp [WellDelimited, Command.Delimited, hereDocument_renderBridgeScaffold]
  · simp [WellDelimited, Command.Delimited]

private theorem wellDelimited_writeCorrosionConfig (bindAddr : Ipv4Addr) (gossipPort apiPort : UInt16)
    (peers : List Ipv4Addr) (gossipTls : Bool) :
    WellDelimited (Cmd.writeCorrosionConfig (Corrosion.configText bindAddr gossipPort apiPort peers gossipTls)
      d.corrosionGossipTls).script := by
  have hcfg : WellDelimited (heredoc Corrosion.configPath
      (Corrosion.configText bindAddr gossipPort apiPort peers gossipTls) "0644") :=
    wellDelimited_heredoc (hereDocument_of_docLine (oneLine_lit _ (by decide)) (by decide)
      (docLine_configLines bindAddr gossipPort apiPort peers gossipTls))
  unfold Cmd.script
  simp only [wellDelimited_andThen]
  refine ⟨by simp [WellDelimited, Command.Delimited], ?_, hcfg⟩
  cases htls : d.corrosionGossipTls with
  | none => simp [WellDelimited]
  | some tls =>
    obtain ⟨hcert, hkey⟩ := hd.gossipCert tls htls
    simp only [wellDelimited_andThen]
    exact ⟨by simp [WellDelimited, Command.Delimited], wellDelimited_heredoc (hereDocument_of_pemText hcert),
      wellDelimited_heredoc (hereDocument_of_pemText hkey)⟩

private theorem wellDelimited_installCooldService (mgmtIp : Ipv4Addr) (subnets : Subnets) (host : String) :
    WellDelimited (Cmd.installCooldService mgmtIp (nsConfigs d subnets host) d.cooldFluxConfig d.fluxTls).script := by
  have hns := hd.oneLine_nsConfigs subnets host
  have hunit : WellDelimited (heredoc CooldService.unitPath
      (CooldService.serviceUnit mgmtIp (nsConfigs d subnets host) d.cooldFluxConfig) "0644") :=
    wellDelimited_heredoc (hereDocument_of_docLine (oneLine_lit _ (by decide)) (by decide)
      (docLine_serviceUnitLines hns mgmtIp hd.oneLine_flux))
  unfold Cmd.script
  simp only [wellDelimited_andThen]
  refine ⟨by simp [WellDelimited, Command.Delimited], ?_, by simp [WellDelimited, Command.Delimited],
    wellDelimited_heredoc (hereDocument_meshDnsAnchorUnit hns (oneLine_lit _ (by decide)) (by decide)),
    wellDelimited_heredoc (hereDocument_meshDnsResolverUnit hns (oneLine_lit _ (by decide)) (by decide)), hunit,
    by simp [WellDelimited, Command.Delimited]⟩
  cases htls : d.fluxTls with
  | none => simp [WellDelimited]
  | some tls => exact wellDelimited_heredoc (hereDocument_of_pemText (hd.fluxCert tls htls))

end Accepted

end Scripts

/-! ### The order of hosts, namespaces and peers -/

/-- Sorting forgets the order. -/
private theorem insertionSort_perm {α : Type} {r : α → α → Prop} [DecidableRel r] [Std.Total r] [IsTrans α r]
    [Std.Antisymm r]
    {l l' : List α} (h : l.Perm l') : l.insertionSort r = l'.insertionSort r :=
  (((List.perm_insertionSort r l).trans h).trans (List.perm_insertionSort r l').symm).eq_of_pairwise'
    (List.pairwise_insertionSort r l) (List.pairwise_insertionSort r l')

/-- The mesh differs in the order of its hosts, nodes and namespaces only. -/
structure DesiredMesh.SameUpToOrder (d d' : DesiredMesh) : Prop where
  nodes : d.nodes.Perm d'.nodes
  namespaces : d.namespaces.Perm d'.namespaces
  rest : d' = { d with hosts := d'.hosts, nodes := d'.nodes, nodes_subset := d'.nodes_subset,
                       namespaces := d'.namespaces }

section Order

variable {d d' : DesiredMesh} (hd : d.SameUpToOrder d') {mgmt mgmt' : Dict String Ipv4Addr} {subnets subnets' : Subnets}
  (hsub : ∀ k, subnets.lookup k = subnets'.lookup k) (host : String)

theorem DesiredMesh.SameUpToOrder.sortedNamespaces (hd : d.SameUpToOrder d') :
    d'.sortedNamespaces = d.sortedNamespaces :=
  insertionSort_perm hd.namespaces.symm

theorem subnetOf_congr (hsub : ∀ k, subnets.lookup k = subnets'.lookup k) (ns host : String) :
    subnetOf subnets' ns host = subnetOf subnets ns host := by
  rw [subnetOf, subnetOf, hsub]

include hd hsub

private theorem hostSubnets_congr : hostSubnets d' subnets' host = hostSubnets d subnets host := by
  unfold hostSubnets
  rw [hd.sortedNamespaces]
  exact List.map_congr_left fun ns _ => subnetOf_congr hsub ns host

private theorem expectedFirewallUnit_congr :
    expectedFirewallUnit d' subnets' host = expectedFirewallUnit d subnets host := by
  unfold expectedFirewallUnit
  rw [hostSubnets_congr hd hsub, hd.sortedNamespaces, hd.rest]

private theorem nsConfigs_congr : nsConfigs d' subnets' host = nsConfigs d subnets host := by
  unfold nsConfigs
  rw [hd.sortedNamespaces]
  exact List.map_congr_left fun ns _ => by rw [subnetOf_congr hsub]

private theorem expectedCooldUnit_congr (hmgmt : ∀ h, mgmt.lookup h = mgmt'.lookup h) :
    expectedCooldUnit d' mgmt' subnets' host = expectedCooldUnit d mgmt subnets host := by
  unfold expectedCooldUnit
  rw [nsConfigs_congr hd hsub, mgmtOf, mgmtOf, hmgmt, hd.rest]
  rfl

omit hsub

private theorem expectedCorrosionConfig_congr (hmgmt : ∀ h, mgmt.lookup h = mgmt'.lookup h) :
    expectedCorrosionConfig d' mgmt' host = expectedCorrosionConfig d mgmt host := by
  have hpeers : (corrosionPeers d' mgmt' host).Perm (corrosionPeers d mgmt host) := by
    unfold corrosionPeers
    rw [show mgmt'.lookup = mgmt.lookup from funext fun h => (hmgmt h).symm]
    exact (hd.nodes.symm.filter _).filterMap _
  have hconfig : ∀ (bindAddr : Ipv4Addr) (gossipPort apiPort : UInt16) (gossipTls : Bool),
      Corrosion.configBytes bindAddr gossipPort apiPort (corrosionPeers d' mgmt' host) gossipTls =
        Corrosion.configBytes bindAddr gossipPort apiPort (corrosionPeers d mgmt host) gossipTls := by
    intro bindAddr gossipPort apiPort gossipTls
    unfold Corrosion.configBytes Corrosion.configText Corrosion.configLines
    rw [insertionSort_perm hpeers]
  unfold expectedCorrosionConfig
  rw [hconfig, mgmtOf, mgmtOf, hmgmt, hd.rest]

end Order

/-! ### What is written and what is expected -/

/-- The documents whose hashes the planner compares. -/
inductive Document where
  | corrosionConfig
  | cooldUnit
  | firewallUnit
  deriving DecidableEq

namespace Document

def path : Document → String
  | .corrosionConfig => Corrosion.configPath
  | .cooldUnit => CooldService.unitPath
  | .firewallUnit => Firewall.firewallUnitPath

/-- The action whose command writes the document. -/
def actionType : Document → ActionType
  | .corrosionConfig => .writeCorrosionConfig
  | .cooldUnit => .installCooldService
  | .firewallUnit => .installFirewall

/-- The bytes whose hash the planner compares with the reported one. -/
def expected (d : DesiredMesh) (mgmt : Dict String Ipv4Addr) (subnets : Subnets) (host : String) :
    Document → List UInt8
  | .corrosionConfig => expectedCorrosionConfig d mgmt host
  | .cooldUnit => Str.asBytes (expectedCooldUnit d mgmt subnets host)
  | .firewallUnit => Str.asBytes (expectedFirewallUnit d subnets host)

def reported (s : ServerState) : Document → String
  | .corrosionConfig => s.corrosionConfigHash
  | .cooldUnit => s.cooldUnitSha256
  | .firewallUnit => s.firewallUnitSha256

/-- The comparison of the planner. -/
def drift (sha256Hex : List UInt8 → String) (d : DesiredMesh) (current : MeshState) (mgmt : Dict String Ipv4Addr)
    (subnets : Subnets) (host : String) (doc : Document) : Bool :=
  doc.reported (current.server host) ≠ sha256Hex (doc.expected d mgmt subnets host)

/-- The tests of the planner are these comparisons. -/
theorem drift_eq (sha256Hex : List UInt8 → String) (d : DesiredMesh) (current : MeshState)
    (mgmt : Dict String Ipv4Addr) (subnets : Subnets) (host : String) :
    cfgDrift sha256Hex d current mgmt host = corrosionConfig.drift sha256Hex d current mgmt subnets host ∧
      cooldUnitDrift sha256Hex d current mgmt subnets host = cooldUnit.drift sha256Hex d current mgmt subnets host ∧
      firewallDrift sha256Hex d current subnets host =
        (!(current.server host).firewallActive ||
          (current.server host).defaultDenyActive != d.defaultDenyContainers ||
          firewallUnit.drift sha256Hex d current mgmt subnets host) :=
  ⟨rfl, rfl, rfl⟩

theorem expected_congr {d d' : DesiredMesh} (hd : d.SameUpToOrder d') {mgmt mgmt' : Dict String Ipv4Addr}
    (hmgmt : ∀ h, mgmt.lookup h = mgmt'.lookup h) {subnets subnets' : Subnets}
    (hsub : ∀ k, subnets.lookup k = subnets'.lookup k) (host : String) (doc : Document) :
    doc.expected d' mgmt' subnets' host = doc.expected d mgmt subnets host := by
  cases doc with
  | corrosionConfig => exact expectedCorrosionConfig_congr hd host hmgmt
  | cooldUnit => exact congrArg Str.asBytes (expectedCooldUnit_congr hd hsub host hmgmt)
  | firewallUnit => exact congrArg Str.asBytes (expectedFirewallUnit_congr hd hsub host)

end Document

/-- Every node has an address, so the planner and the third phase list the same peers. -/
private theorem corrosionPeers_eq {d : DesiredMesh} {mgmt : Dict String Ipv4Addr}
    (h : ∀ p ∈ d.nodes, (mgmt.lookup p).isSome)
    (host : String) : corrosionPeers d mgmt host = (d.nodes.filter fun p => p ≠ host).map (mgmtOf mgmt) := by
  unfold corrosionPeers
  rw [← List.filterMap_eq_map]
  refine List.filterMap_congr fun p hp => ?_
  obtain ⟨ip, hip⟩ := Option.isSome_iff_exists.1 (h p (List.mem_filter.1 hp).1)
  simp [mgmtOf, hip]

/-- An address that is allocated is never the one that the writer of the configuration refuses. -/
theorem assertMeshBind_mgmtOf {pool : Ipv4Net} {existing mgmt : Dict String Ipv4Addr} {hosts : List String}
    {w : List Warning} (h : allocateMgmtIps pool existing hosts = .ok (mgmt, w)) {host : String}
    (hhost : host ∈ hosts) :
    Corrosion.assertMeshBind (mgmtOf mgmt host) = true := by
  obtain ⟨hlow, -⟩ := (mgmt_ok h).1 host _ (lookup_mgmtOf h hhost)
  have hne : mgmtOf mgmt host ≠ 0 := by
    intro heq
    rw [heq] at hlow
    exact Nat.not_lt_zero _ hlow
  exact decide_eq_true hne

section Written

variable {d : DesiredMesh} {planned : Plan} {host : String} {mgmt : Dict String Ipv4Addr} {subnets : Subnets}
  {fresh : MeshState} {s : Step}

/-- The step that writes a document. -/
def Document.cmd (d : DesiredMesh) (mgmt : Dict String Ipv4Addr) (subnets : Subnets) (host : String) : Document → Cmd
  | .corrosionConfig =>
    .writeCorrosionConfig
      (Corrosion.configText (mgmtOf mgmt host) d.corrosionGossipPort d.corrosionApiPort
        ((d.nodes.filter fun h => h ≠ host).map (mgmtOf mgmt)) d.corrosionGossipTls.isSome)
      d.corrosionGossipTls
  | .cooldUnit => .installCooldService (mgmtOf mgmt host) (nsConfigs d subnets host) d.cooldFluxConfig d.fluxTls
  | .firewallUnit =>
    .installFirewall d.interface d.sortedNamespaces (hostSubnets d subnets host) d.defaultDenyContainers

private theorem Document.cmd_of_step
    (hs : s ∈ phase2 d planned host mgmt subnets fresh ∨ s ∈ phase3 d planned host mgmt subnets)
    {doc : Document} (hdoc : s.actionType = doc.actionType) : s.cmd = doc.cmd d mgmt subnets host := by
  rcases hs with hs | hs
  · unfold phase2 networkSteps at hs
    simp only [List.mem_append, mem_stepIf, List.mem_ite_nil_right, List.mem_flatMap] at hs
    rcases hs with (⟨-, rfl⟩ | ⟨-, rfl⟩) | ⟨-, ⟨ns, -, hs⟩ | ⟨-, rfl⟩⟩
    · cases doc <;> cases hdoc
    · cases doc <;> split at hdoc <;> cases hdoc
    · split at hs
      · rw [List.mem_singleton] at hs
        subst hs
        cases doc <;> cases hdoc
      · obtain ⟨-, rfl⟩ := mem_stepIf.1 hs
        cases doc <;> cases hdoc
    · cases doc <;> first | rfl | cases hdoc
  · simp only [phase3, List.mem_append, mem_stepIf] at hs
    rcases hs with ((((⟨-, rfl⟩ | ⟨-, rfl⟩) | ⟨-, rfl⟩) | ⟨-, rfl⟩) | ⟨-, rfl⟩) | ⟨-, rfl⟩ <;>
      cases doc <;> first | rfl | cases hdoc

variable (host mgmt subnets) in
private theorem Document.wellDelimited (hd : d.Accepted) (doc : Document) :
    WellDelimited (doc.cmd d mgmt subnets host).script := by
  cases doc with
  | corrosionConfig => exact wellDelimited_writeCorrosionConfig hd _ _ _ _ _
  | cooldUnit => exact wellDelimited_installCooldService hd _ _ _
  | firewallUnit => exact wellDelimited_installFirewall hd _ _ _

/-- The command leaves in its place the document that the planner expects there. -/
theorem Document.files_run (hmgmt : ∀ p ∈ d.nodes, (mgmt.lookup p).isSome) (h : Shell.Host) (doc : Document) :
    ∃ f, (run asGiven h (doc.cmd d mgmt subnets host).script).files doc.path = some f ∧
      Str.asBytes f.content = doc.expected d mgmt subnets host := by
  cases doc with
  | corrosionConfig =>
    unfold Document.cmd Cmd.script
    simp only [run_andThen]
    refine ⟨_, files_heredoc _ _ _ _ _, ?_⟩
    simp only [Document.expected, expectedCorrosionConfig, corrosionPeers_eq hmgmt]
    rfl
  | cooldUnit =>
    unfold Document.cmd Cmd.script
    simp only [run_andThen]
    rw [files_run_of_notMem (by simp [Command.writes])]
    exact ⟨_, files_heredoc _ _ _ _ _, rfl⟩
  | firewallUnit =>
    unfold Document.cmd Cmd.script Firewall.installFirewallScript
    simp only [run_andThen]
    rw [files_run_of_notMem (by simp [Command.writes]), files_run_of_notMem]
    · simp [run, exec, effect, Document.path, asGiven, Document.expected, expectedFirewallUnit]
    · -- the scaffold of the bridge has its own place
      have h1 : Firewall.firewallUnitPath ≠ Firewall.bridgeScaffoldPath ++ ".tmp" := by decide
      have h2 : Firewall.firewallUnitPath ≠ Firewall.bridgeScaffoldPath := by decide
      cases d.defaultDenyContainers <;> simp [Command.writes, Document.path, h1, h2]

/-- What the commands of a run write has the hash the planner compares with: here-documents are read as they are
written, the order of hosts, nodes and namespaces does not matter, and a later plan for which the probe reports the
hash of the file does not find a difference. -/
theorem written_hashes (sha256Hex : List UInt8 → String) {current : MeshState} (hd : d.Accepted)
    (hb : buildPlan sha256Hex d current = .ok planned) (hmgmt : ∀ p, mgmt.lookup p = planned.mgmtAssignments.lookup p)
    (hsub : ∀ k, subnets.lookup k = planned.subnetAssignments.lookup k)
    (hs : s ∈ phase2 d planned host mgmt subnets fresh ∨ s ∈ phase3 d planned host mgmt subnets) {doc : Document}
    (hdoc : s.actionType = doc.actionType) (h : Shell.Host) :
    WellDelimited s.cmd.script ∧ ∃ f, (run hereDocument h s.cmd.script).files doc.path = some f ∧
      ∀ d', d.SameUpToOrder d' →
        sha256Hex (Str.asBytes f.content) =
          sha256Hex (doc.expected d' planned.mgmtAssignments planned.subnetAssignments host) ∧
        ∀ next : MeshState, doc.reported (next.server host) = sha256Hex (Str.asBytes f.content) →
          doc.drift sha256Hex d' next planned.mgmtAssignments planned.subnetAssignments host = false := by
  have hcmd := Document.cmd_of_step hs hdoc
  have hdelim := Document.wellDelimited host mgmt subnets hd doc
  obtain ⟨w, halloc⟩ := (isPlan_of_buildPlan hb).mgmt
  have hall : ∀ p ∈ d.nodes, (mgmt.lookup p).isSome := by
    intro p hp
    rw [hmgmt, isSome_lookup_mgmt halloc]
    exact d.nodes_subset p hp
  obtain ⟨f, hf, hbytes⟩ := Document.files_run hall h doc
  rw [hcmd, run_wellDelimited hdelim]
  refine ⟨hdelim, f, hf, fun d' hd' => ?_⟩
  have hexpected := Document.expected_congr hd' hmgmt hsub host doc
  refine ⟨by rw [hbytes, hexpected], fun next hnext => ?_⟩
  rw [Document.drift, hnext, hbytes, hexpected]
  simp

end Written

/-! ### Two hosts in either order -/

private theorem accepted_meshOf (nodes : List String) : (meshOf nodes).Accepted where
  interface := show validateInterface "wg0" = .ok () by decide
  namespaces := show validateNamespaces ["default"] = .ok () by decide
  fluxUrl := by rintro _ ⟨⟩
  gossipCert := by rintro _ ⟨⟩
  fluxCert := by rintro _ ⟨⟩

private theorem sameUpToOrder_meshOf {nodes nodes' : List String} (h : nodes.Perm nodes') :
    (meshOf nodes).SameUpToOrder (meshOf nodes') :=
  ⟨h, List.Perm.refl _, rfl⟩

/-- The firewall unit of the first of two new hosts, with a hash that counts the bytes. -/
theorem written_hashes_pair :
    ∃ planned, buildPlan (fun bytes => toString bytes.length) (meshOf ["a", "b"]) ⟨∅⟩ = .ok planned ∧
      ∃ s ∈ phase2 (meshOf ["a", "b"]) planned "a" planned.mgmtAssignments planned.subnetAssignments ⟨∅⟩,
        WellDelimited s.cmd.script ∧ ∃ f,
          (run hereDocument ⟨0, fun _ => none, fun _ => none⟩ s.cmd.script).files Firewall.firewallUnitPath = some f ∧
            toString (Str.asBytes f.content).length =
              toString (Document.firewallUnit.expected (meshOf ["b", "a"]) planned.mgmtAssignments
                planned.subnetAssignments "a").length := by
  obtain ⟨planned, hb, hp⟩ := exists_buildPlan (p := fun planned => shouldRun planned "a" .installFirewall "")
    (show (buildPlan (fun bytes => toString bytes.length) (meshOf ["a", "b"]) ⟨∅⟩).toOption.any _ = true by
      decide)
  have hs : ⟨.installFirewall, "", Document.firewallUnit.cmd (meshOf ["a", "b"]) planned.mgmtAssignments
      planned.subnetAssignments "a"⟩ ∈
        phase2 (meshOf ["a", "b"]) planned "a" planned.mgmtAssignments planned.subnetAssignments ⟨∅⟩ := by
    have hnode : ((meshOf ["a", "b"]).isNode "a" && (meshOf ["a", "b"]).installPodman) = true := by decide
    simp only [phase2, List.mem_append, mem_stepIf, List.mem_ite_nil_right]
    exact .inr ⟨hnode, .inr ⟨hp, rfl⟩⟩
  obtain ⟨hdelim, f, hf, hsame⟩ := written_hashes (fun bytes => toString bytes.length)
    (accepted_meshOf ["a", "b"]) hb (fun _ => rfl) (fun _ => rfl) (.inl hs)
    (show ActionType.installFirewall = Document.firewallUnit.actionType from rfl)
    ⟨0, fun _ => none, fun _ => none⟩
  exact ⟨planned, hb, _, hs, hdelim, f, hf, (hsame _ (sameUpToOrder_meshOf (List.Perm.swap "b" "a" []))).1⟩

end Coold.Cli
