import Coold.Lib.IpAddr
import Coold.Lib.Str

/-!
# Lists in the environment of coold

Namespaces are given as triples with colons between the fields and commas between the triples, allowed sources of mounts
with either between them.  Nothing is escaped.

What is written from fields without the separators and without white space at their ends is read back
(`parseNamespaces_join`), and only such fields are ever read (`isField_of_parseNamespaces`).
-/

namespace Coold.Agent

structure NamespaceConfig where
  name : String
  network : String
  gatewayIp : IpAddr
  deriving DecidableEq

/-- Why the namespaces cannot be read; what is at fault is the whole list or an entry of it. -/
inductive NamespacesError where
  | notTriple (chunk : String)
  | gatewayIp (chunk : String)
  | emptyField (chunk : String)
  | zeroEntries
  deriving DecidableEq

/-- The namespace of a host for which none is configured; it has no gateway. -/
def defaultNamespace : NamespaceConfig := ⟨"default", "coolify-default-mesh", .v4 0⟩

def parseNamespace (chunk : String) : Except NamespacesError NamespaceConfig :=
  match Str.splitn 3 ':' chunk with
  | [name, network, gateway] =>
    match IpAddr.parse (Str.trim gateway) with
    | none => .error (.gatewayIp chunk)
    | some gatewayIp =>
      if Str.trim name = "" ∨ Str.trim network = "" then .error (.emptyField chunk)
      else .ok ⟨Str.trim name, Str.trim network, gatewayIp⟩
  | _ => .error (.notTriple chunk)

/-- The parts between commas, without white space at their ends; empty ones are left out. -/
def namespaceChunks (raw : String) : List String := ((Str.split ',' raw).map Str.trim).filter (· ≠ "")

def parseNamespaces (raw : String) : Except NamespacesError (List NamespaceConfig) :=
  if Str.trim raw = "" then .ok [defaultNamespace]
  else
    match (namespaceChunks (Str.trim raw)).mapM parseNamespace with
    | .error e => .error e
    | .ok [] => .error .zeroEntries
    | .ok out => .ok out

/-- The allowed sources of mounts; empty ones are left out. -/
def parseMountSources (raw : String) : List String :=
  (((Str.split ',' raw).flatMap (Str.split ':')).map Str.trim).filter (· ≠ "")

example : parseNamespaces "a:net: ::1 ,, b : n : 10.0.0.1" =
    .ok [⟨"a", "net", .v6 1⟩, ⟨"b", "n", .v4 0x0A000001⟩] := by decide

example : (parseNamespaces "default::10.0.0.1", parseNamespaces " , ") =
    (.error (.emptyField "default::10.0.0.1"), .error .zeroEntries) := by decide

/-! ### Fields that are read back -/

/-- A nonempty field without the separators and without white space at its ends. -/
structure IsField (s : String) : Prop where
  ne : s ≠ ""
  trimmed : Str.Trimmed s
  colon : ':' ∉ s.toList
  comma : ',' ∉ s.toList

private theorem isField_trim {s : String} (hne : Str.trim s ≠ "") (hcolon : ':' ∉ s.toList) (hcomma : ',' ∉ s.toList) :
    IsField (Str.trim s) :=
  ⟨hne, Str.trimmed_trim s, fun hc => hcolon (Str.trim_chars hc), fun hc => hcomma (Str.trim_chars hc)⟩

/-- The text of an entry. -/
def namespaceText (name network gateway : String) : String := name ++ ":" ++ network ++ ":" ++ gateway

section Chunk

variable {name network gateway : String}

private theorem namespaceText_trimmed (hname : IsField name) (hgateway : IsField gateway) :
    Str.Trimmed (namespaceText name network gateway) := by
  have htext : namespaceText name network gateway = name ++ (":" ++ network ++ ":") ++ gateway := by
    simp only [namespaceText, String.append_assoc]
  rw [htext]
  exact hname.trimmed.around hgateway.trimmed hname.ne hgateway.ne _

private theorem namespaceText_ne_empty (hname : IsField name) : namespaceText name network gateway ≠ "" := by
  have := hname.ne
  simp [namespaceText, this]

private theorem comma_notMem_namespaceText (hname : IsField name) (hnetwork : IsField network)
    (hgateway : IsField gateway) :
    ',' ∉ (namespaceText name network gateway).toList := by
  simp [namespaceText, String.toList_append, hname.comma, hnetwork.comma, hgateway.comma]

/-- An entry is read back as its fields. -/
private theorem parseNamespace_text (hname : IsField name) (hnetwork : IsField network) (hgateway : IsField gateway)
    {ip : IpAddr} (hip : IpAddr.parse gateway = some ip) :
    parseNamespace (namespaceText name network gateway) = .ok ⟨name, network, ip⟩ := by
  have hsplit : Str.splitn 3 ':' (namespaceText name network gateway) = [name, network, gateway] := by
    have htext : namespaceText name network gateway =
        name ++ String.singleton ':' ++ (network ++ String.singleton ':' ++ gateway) := by
      have hcolon : String.singleton ':' = ":" := by decide
      simp only [namespaceText, hcolon, String.append_assoc]
    rw [htext, Str.splitn_cons hname.colon, Str.splitn_cons hnetwork.colon]
    simp [Str.splitn, Str.splitn.go]
  have hblank : ¬ (name = "" ∨ network = "") := not_or.2 ⟨hname.ne, hnetwork.ne⟩
  simp only [parseNamespace, hsplit, Str.trim_eq_self_iff.2 hname.trimmed, Str.trim_eq_self_iff.2 hnetwork.trimmed,
    Str.trim_eq_self_iff.2 hgateway.trimmed, hip, if_neg hblank]

end Chunk

/-- A namespace with fields that are read back; its gateway has a text that stands for it. -/
structure Readable (text : IpAddr → String) (n : NamespaceConfig) : Prop where
  name : IsField n.name
  network : IsField n.network
  gateway : IsField (text n.gatewayIp)
  parse : IpAddr.parse (text n.gatewayIp) = some n.gatewayIp

private theorem mapM_map_eq_ok {α β ε : Type} {f : α → β} {g : β → Except ε α} {l : List α}
    (h : ∀ a ∈ l, g (f a) = .ok a) : (l.map f).mapM g = .ok l := by
  induction l with
  | nil => rfl
  | cons a l ih =>
    obtain ⟨ha, hl⟩ := List.forall_mem_cons.1 h
    rw [List.map_cons, List.mapM_cons, ha, ih hl]
    rfl

private theorem mem_of_mapM_eq_ok {α β ε : Type} {f : α → Except ε β} {l : List α} {out : List β}
    (h : l.mapM f = .ok out) {b : β} (hb : b ∈ out) : ∃ a ∈ l, f a = .ok b := by
  induction l generalizing out with
  | nil =>
    cases h
    cases hb
  | cons a l ih =>
    rw [List.mapM_cons] at h
    cases ha : f a with
    | error e =>
      rw [ha] at h
      cases h
    | ok b' =>
      cases hl : l.mapM f with
      | error e =>
        rw [ha, hl] at h
        cases h
      | ok rest =>
        rw [ha, hl] at h
        cases h
        rcases List.mem_cons.1 hb with rfl | hb
        · exact ⟨a, List.mem_cons_self, ha⟩
        · obtain ⟨a', ha', hfa⟩ := ih hl hb
          exact ⟨a', List.mem_cons_of_mem a ha', hfa⟩

/-- Namespaces with such fields are read back from their texts. -/
theorem parseNamespaces_join {text : IpAddr → String} {ns : List NamespaceConfig} (hne : ns ≠ [])
    (h : ∀ n ∈ ns, Readable text n) :
    parseNamespaces (Str.join ',' (ns.map fun n => namespaceText n.name n.network (text n.gatewayIp))) = .ok ns := by
  let chunks := ns.map fun n => namespaceText n.name n.network (text n.gatewayIp)
  have hchunk : ∀ chunk ∈ chunks, Str.Trimmed chunk ∧ chunk ≠ "" ∧ ',' ∉ chunk.toList := by
    intro chunk hc
    obtain ⟨n, hn, rfl⟩ := List.mem_map.1 hc
    have hr := h n hn
    exact ⟨namespaceText_trimmed hr.name hr.gateway, namespaceText_ne_empty hr.name,
      comma_notMem_namespaceText hr.name hr.network hr.gateway⟩
  have hjoin := Str.trimmed_join ',' (by simpa [chunks] using hne) (fun c hc => ⟨(hchunk c hc).1, (hchunk c hc).2.1⟩)
  have hchunks : namespaceChunks (Str.join ',' chunks) = chunks := by
    have htrim : chunks.map Str.trim = chunks :=
      (List.map_congr_left fun c hc => Str.trim_eq_self_iff.2 (hchunk c hc).1).trans (List.map_id _)
    rw [namespaceChunks, Str.split_join ',' (by simpa [chunks] using hne) fun c hc => (hchunk c hc).2.2, htrim]
    exact List.filter_eq_self.2 fun c hc => by simpa using (hchunk c hc).2.1
  have hparse : chunks.mapM parseNamespace = .ok ns :=
    mapM_map_eq_ok fun n hn => parseNamespace_text (h n hn).name (h n hn).network (h n hn).gateway (h n hn).parse
  have htrim : Str.trim (Str.join ',' chunks) = Str.join ',' chunks := Str.trim_eq_self_iff.2 hjoin.1
  change parseNamespaces (Str.join ',' chunks) = .ok ns
  unfold parseNamespaces
  rw [htrim, if_neg hjoin.2, hchunks, hparse]
  cases ns with
  | nil => exact absurd rfl hne
  | cons n ns => rfl

/-- The name and the network of a namespace that was read can be read back. -/
theorem isField_of_parseNamespaces {raw : String} {out : List NamespaceConfig} (h : parseNamespaces raw = .ok out) :
    out ≠ [] ∧ ∀ n ∈ out, IsField n.name ∧ IsField n.network := by
  unfold parseNamespaces at h
  split at h
  · cases h
    refine ⟨by simp, List.forall_mem_singleton.2 ⟨?_, ?_⟩⟩
    · exact ⟨by decide, Str.trim_eq_self_iff.1 (by decide), by decide, by decide⟩
    · exact ⟨by decide, Str.trim_eq_self_iff.1 (by decide), by decide, by decide⟩
  · split at h
    · cases h
    · cases h
    · rename_i hne hmap
      cases h
      refine ⟨hne, fun n hn => ?_⟩
      obtain ⟨chunk, hchunk, hparse⟩ := mem_of_mapM_eq_ok hmap hn
      obtain ⟨piece, hpiece, rfl⟩ := List.mem_map.1 (List.mem_filter.1 hchunk).1
      have hcomma : ',' ∉ (Str.trim piece).toList :=
        fun hc => (Str.mem_of_mem_split hpiece).1 (Str.trim_chars hc)
      unfold parseNamespace at hparse
      split at hparse
      · rename_i name network gateway hsplit
        split at hparse
        · cases hparse
        · split at hparse
          · cases hparse
          · rename_i hblank
            cases hparse
            rw [not_or] at hblank
            -- the name and the network are the pieces before the first two colons
            obtain ⟨hcolon, hsub, rest, hrest, hsubrest⟩ := Str.splitn_eq_cons_cons hsplit
            obtain ⟨hcolon', hsub', -⟩ := Str.splitn_eq_cons_cons hrest
            exact ⟨isField_trim hblank.1 hcolon fun hc => hcomma (hsub _ hc),
              isField_trim hblank.2 hcolon' fun hc => hcomma (hsubrest _ (hsub' _ hc))⟩
      · cases hparse

end Coold.Agent
