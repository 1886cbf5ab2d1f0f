import Coold.Agent.Config
import Coold.Cli.Meshnet
import Coold.Cli.Services
import Coold.Cli.WgConfig

/-!
# Namespaces from the command line tool to coold

The tool writes the namespaces into the environment of coold (`namespacesEnvValue`) and coold parses them
(`parseNamespaces`).  The names have passed `validateNamespaces`, so they are fields that are read back; so are the
fields of anything that coold accepts.
-/

namespace Coold.Node

open Coold.Agent Coold.Cli

/-- The namespace as coold has it. -/
def namespaceConfig (n : CooldService.CooldNamespace) : NamespaceConfig := ⟨n.name, n.network, .v4 n.bridgeGateway⟩

/-- The text of an IPv4 address; no other gateways are written. -/
def gatewayText : IpAddr → String
  | .v4 ip => ipv4ToString ip
  | .v6 _ => ""

private theorem namespacesEnvValue_eq (ns : List CooldService.CooldNamespace) :
    CooldService.namespacesEnvValue ns =
      Str.join ',' ((ns.map namespaceConfig).map fun n => namespaceText n.name n.network (gatewayText n.gatewayIp)) := by
  have hsep : "," = String.singleton ',' := by decide
  rw [CooldService.namespacesEnvValue, hsep, ← Str.join_eq_intercalate, List.map_map]
  rfl

private theorem parse_of_parseV4 {s : String} {ip : BitVec 32} (h : IpAddr.parseV4 s = some ip) :
    IpAddr.parse s = some (.v4 ip) := by
  unfold IpAddr.parseV4 at h
  split at h
  · rename_i octets hread
    cases h
    simp [IpAddr.parse, IpAddr.readIpAddr, hread]
  · cases h

/-- The characters of names and of addresses. -/
def isFieldChar (c : Char) : Bool := c.isLower || c.isDigit || c == '-' || c == '.'

private theorem isField_of_chars {s : String} (hne : s ≠ "") (h : ∀ c ∈ s.toList, isFieldChar c = true) :
    IsField s := by
  have hspace : ∀ c, isFieldChar c = true → Str.isWhitespace c = false := by
    intro c hc
    refine Str.isWhitespace_of_printable ?_
    have hlower : c.isLower = (decide ('a'.val ≤ c.val) && decide (c.val ≤ 'z'.val)) := rfl
    simp only [isFieldChar, Bool.or_eq_true, beq_iff_eq, hlower, Char.isDigit, Bool.and_eq_true,
      decide_eq_true_eq] at hc
    rcases hc with ((hc | hc) | rfl) | rfl
    · exact ⟨Nat.le_trans (by decide) hc.1, Nat.le_trans hc.2 (by decide)⟩
    · exact ⟨Nat.le_trans (by decide) hc.1, Nat.le_trans hc.2 (by decide)⟩
    · decide
    · decide
  exact ⟨hne, ⟨fun c hc => hspace c (h c (List.mem_of_mem_head? hc)),
      fun c hc => hspace c (h c (List.mem_of_mem_getLast? hc))⟩,
    fun hc => absurd (h _ hc) (by decide), fun hc => absurd (h _ hc) (by decide)⟩

private theorem isField_ipv4ToString (ip : Ipv4Addr) : IsField (ipv4ToString ip) := by
  have hparse := parseV4_ipv4ToString ip
  refine isField_of_chars ?_ fun c hc => ?_
  · intro hempty
    rw [hempty] at hparse
    have hnone : IpAddr.parseV4 "" = none := by decide
    rw [hnone] at hparse
    cases hparse
  · rcases IpAddr.parseV4_chars hparse hc with hd | rfl
    · simp [isFieldChar, hd]
    · decide

/-- The namespaces that coold reads. -/
private theorem readable_namespaceConfig {n : CooldService.CooldNamespace} (hname : IsField n.name)
    (hnetwork : IsField n.network) :
    Readable gatewayText (namespaceConfig n) :=
  ⟨hname, hnetwork, isField_ipv4ToString _, parse_of_parseV4 (parseV4_ipv4ToString _)⟩

private theorem isField_of_isDnsLabel {s : String} (h : isDnsLabel s = true) :
    IsField s ∧ IsField (podmanNetworkFor s) := by
  obtain ⟨hne, hchars⟩ := chars_of_isDnsLabel h
  have hfield : ∀ c ∈ s.toList, isFieldChar c = true := by
    intro c hc
    have := hchars c hc
    simp only [isLabelChar, Bool.or_eq_true] at this
    simp only [isFieldChar, Bool.or_eq_true]
    tauto
  have hall : ("coolify-".toList ++ "-mesh".toList).all isFieldChar = true := by decide
  have hlit := List.all_eq_true.1 hall
  have htext : podmanNetworkFor s = "coolify-" ++ s ++ "-mesh" := rfl
  refine ⟨isField_of_chars hne hfield, isField_of_chars (by rw [htext]; simp) fun c hc => ?_⟩
  rw [htext, String.toList_append, String.toList_append] at hc
  simp only [List.mem_append] at hc hlit
  rcases hc with (hc | hc) | hc
  · exact hlit c (Or.inl hc)
  · exact hfield c hc
  · exact hlit c (Or.inr hc)

/-- The namespaces that the command line tool writes: valid names, each with the network that belongs to it. -/
structure ValidNamespaces (ns : List CooldService.CooldNamespace) : Prop where
  names : validateNamespaces (ns.map CooldService.CooldNamespace.name) = .ok ()
  networks : ∀ n ∈ ns, n.network = podmanNetworkFor n.name

/-- Fields that can be read back are read back. -/
private theorem parseNamespaces_namespacesEnvValue {ns : List CooldService.CooldNamespace} (hne : ns ≠ [])
    (h : ∀ n ∈ ns, IsField n.name ∧ IsField n.network) :
    parseNamespaces (CooldService.namespacesEnvValue ns) = .ok (ns.map namespaceConfig) := by
  rw [namespacesEnvValue_eq]
  refine parseNamespaces_join (by simpa using hne) fun m hm => ?_
  obtain ⟨n, hn, rfl⟩ := List.mem_map.1 hm
  exact readable_namespaceConfig (h n hn).1 (h n hn).2

theorem ValidNamespaces.parse {ns : List CooldService.CooldNamespace} (h : ValidNamespaces ns) :
    parseNamespaces (CooldService.namespacesEnvValue ns) = .ok (ns.map namespaceConfig) := by
  refine parseNamespaces_namespacesEnvValue ?_ fun n hn => ?_
  · rintro rfl
    cases h.names
  · rw [h.networks n hn]
    exact isField_of_isDnsLabel (isDnsLabel_of_validateNamespaces h.names _ (List.mem_map_of_mem hn))

private theorem namespaceConfig_injective : Function.Injective namespaceConfig := by
  rintro ⟨name, network, gateway⟩ ⟨name', network', gateway'⟩ h
  simp only [namespaceConfig, NamespaceConfig.mk.injEq, IpAddr.v4.injEq] at h
  obtain ⟨rfl, rfl, rfl⟩ := h
  rfl

/-- A list of namespaces with IPv4 gateways can be written. -/
private theorem exists_map_namespaceConfig {out : List NamespaceConfig} (h : ∀ n ∈ out, ∃ ip, n.gatewayIp = .v4 ip) :
    ∃ ns : List CooldService.CooldNamespace, ns.map namespaceConfig = out := by
  induction out with
  | nil => exact ⟨[], rfl⟩
  | cons n out ih =>
    obtain ⟨⟨ip, hip⟩, hout⟩ := List.forall_mem_cons.1 h
    obtain ⟨ns, rfl⟩ := ih hout
    refine ⟨⟨n.name, n.network, ip⟩ :: ns, ?_⟩
    rw [List.map_cons, namespaceConfig, ← hip]

/-- Namespaces with valid names are read by coold as they were written, so that different lists have different texts;
and what coold reads from any text, with IPv4 gateways, it reads again from the text that is written of it. -/
theorem namespaces_codec :
    (∀ ns, ValidNamespaces ns → parseNamespaces (CooldService.namespacesEnvValue ns) = .ok (ns.map namespaceConfig)) ∧
      (∀ ns ns', ValidNamespaces ns → ValidNamespaces ns' →
        CooldService.namespacesEnvValue ns = CooldService.namespacesEnvValue ns' → ns = ns') ∧
      ∀ raw out, parseNamespaces raw = .ok out → (∀ n ∈ out, ∃ ip, n.gatewayIp = .v4 ip) →
        ∃ ns : List CooldService.CooldNamespace,
          ns.map namespaceConfig = out ∧ parseNamespaces (CooldService.namespacesEnvValue ns) = .ok out := by
  refine ⟨fun ns h => h.parse, fun ns ns' h h' heq => ?_, fun raw out hparse hv4 => ?_⟩
  · have hread := h.parse
    rw [heq, h'.parse, Except.ok.injEq] at hread
    exact (List.map_injective_iff.2 namespaceConfig_injective hread).symm
  · obtain ⟨hne, hfields⟩ := isField_of_parseNamespaces hparse
    obtain ⟨ns, rfl⟩ := exists_map_namespaceConfig hv4
    refine ⟨ns, rfl, parseNamespaces_namespacesEnvValue (by simpa using hne) fun n hn => ?_⟩
    exact hfields (namespaceConfig n) (List.mem_map_of_mem hn)

/-- Two namespaces, as the first one of them is written and read. -/
example : parseNamespaces (CooldService.namespacesEnvValue
    [⟨"default", podmanNetworkFor "default", 0x0AD20001⟩, ⟨"a-1", podmanNetworkFor "a-1", 0x0AD20101⟩]) =
    .ok [⟨"default", "coolify-default-mesh", .v4 0x0AD20001⟩, ⟨"a-1", "coolify-a-1-mesh", .v4 0x0AD20101⟩] := by
  decide +kernel

end Coold.Node
