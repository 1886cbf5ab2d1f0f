import Coold.Agent.DesiredEndpoints
import Coold.Agent.Firewall
import Coold.Dns.Resolver

/-!
# Answers from the endpoint table

The resolver asks Corrosion for the live rows of a container and a namespace, both in lower case, and SQL compares texts
exactly.  The rows have the container names as Podman gives them.  A query is about the containers that it names when
case is ignored (`matched`), and it finds those that are spelled in lower case (`spelled`).  The answer is the one that
is meant exactly if nothing is lost in between (`answers_match_iff`).
-/

namespace Coold.Dns

open Agent

/-! ### The rows -/

def endpoints (table : Table) : List Endpoint := table.rows.entries.map fun e => e.2.endpoint

/-- The container runs and is not known to be ill. -/
def isLive (e : Endpoint) : Bool := e.state = "running" && (e.health = "healthy" || e.health = "unknown")

/-- The conditions of the query of `query_endpoints_by_name`. -/
def queried (containerName namespace_ : String) (e : Endpoint) : Bool :=
  e.containerName = containerName && e.namespace_ = namespace_ && isLive e

/-- The lookup of the backend, which trusts the rows of all hosts. -/
def corrosionLookup (rows : List Endpoint) : List IpAddr :=
  (Firewall.selectEndpointIps (rows.map fun e => ⟨e.containerIp, e.hostMgmtIp⟩) none).filterMap IpAddr.parse

/-- The backend reads the table, in any order. -/
def ReadsTable (backend : String → String → Option (List IpAddr)) (table : Table) : Prop :=
  ∀ containerName namespace_, ∃ rows : List Endpoint,
    rows.Perm ((endpoints table).filter (queried containerName namespace_)) ∧
      backend containerName namespace_ = some (corrosionLookup rows)

/-! ### What a query is about -/

/-- A text is a label when the case of ASCII letters is ignored. -/
def matchesLabel (s : String) (l : Label) : Bool := (Str.asBytes s).map lowerByte = l.bytes

/-- The live rows that a query names. -/
def matched (table : Table) (c n : Label) : List Endpoint :=
  (endpoints table).filter fun e => matchesLabel e.containerName c && matchesLabel e.namespace_ n && isLive e

/-- The live rows that are spelled as the resolver reads the query. -/
def spelled (T : LabelText) (table : Table) (c n : Label) : List Endpoint :=
  (endpoints table).filter (queried (T.text c.bytes) (T.text n.bytes))

def addrOf (e : Endpoint) : Option IpAddr := IpAddr.parse e.containerIp

def v4Bits : IpAddr → Option (BitVec 32)
  | .v4 bits => some bits
  | .v6 _ => none

def v4Of (e : Endpoint) : Option (BitVec 32) := (addrOf e).bind v4Bits

/-- The answer section holds the IPv4 addresses of the rows that the query names, and the name does not exist if and
only if none of these rows has an address. -/
structure AnswersMatch (response : Response) (table : Table) (c n : Label) : Prop where
  answers : (response.answers.map Record.data).Perm (((matched table c n).filterMap v4Of).map RData.a)
  nxDomain : response.code = .nxDomain ↔ ∀ e ∈ matched table c n, addrOf e = none

/-- Nothing is lost: a row with an address that is spelled as the query is one that the query names, a row with an IPv4
address that the query names is spelled so, and if the query names one with an address, some row is spelled so. -/
structure SpelledAsQueried (T : LabelText) (table : Table) (c n : Label) : Prop where
  named : ∀ e ∈ spelled T table c n, addrOf e ≠ none → e ∈ matched table c n
  ipv4 : ∀ e ∈ matched table c n, v4Of e ≠ none → e ∈ spelled T table c n
  some_addr : (∃ e ∈ matched table c n, addrOf e ≠ none) → ∃ e ∈ spelled T table c n, addrOf e ≠ none

/-! ### Tables of a mesh -/

/-- A host of the mesh with its containers. -/
structure MeshHost where
  config : SyncConfig
  podman : Podman

/-- Every row is one that its host wants. -/
def BuiltFrom (toLowercase : String → String) (hosts : List MeshHost) (table : Table) : Prop :=
  ∀ id row, table.rows.lookup id = some row →
    ∃ h ∈ hosts, (desiredEndpoints toLowercase h.config h.podman).map.lookup id = some row.endpoint

/-- Podman allows letters and digits of ASCII and three other characters. -/
def isNameChar (c : Char) : Bool :=
  ('a' ≤ c && c ≤ 'z') || ('A' ≤ c && c ≤ 'Z') || ('0' ≤ c && c ≤ '9') || c = '_' || c = '.' || c = '-'

def IsContainerName (s : String) : Prop := s.toList.all isNameChar = true

instance (s : String) : Decidable (IsContainerName s) := inferInstanceAs (Decidable (_ = _))

/-- The names that Podman gives, which may begin with slashes, and the namespaces are ASCII. -/
structure MeshHost.Named (h : MeshHost) : Prop where
  ids : ∀ c ∈ h.podman.containers, IsContainerName c.id
  names : ∀ c ∈ h.podman.containers, ∀ s ∈ c.names, IsContainerName (trimSlashes s)
  inspected : ∀ c ∈ h.podman.containers, ∀ inspect, h.podman.inspect c.id = some inspect →
    IsContainerName (trimSlashes inspect.name)
  namespaces : ∀ n ∈ h.config.namespaces, ∀ c ∈ n.name.toList, c.toNat < 128

section Tables

variable {toLowercase : String → String} {hosts : List MeshHost} {table : Table}

/-- An endpoint that a host wants has a name of Podman and a namespace of the host. -/
private theorem names_of_desired {h : MeshHost} (hn : h.Named) {id : String} {e : Endpoint}
    (he : (desiredEndpoints toLowercase h.config h.podman).map.lookup id = some e) :
    IsContainerName e.containerName ∧ ∀ c ∈ e.namespace_.toList, c.toNat < 128 := by
  rw [lookup_desiredEndpoints] at he
  obtain ⟨c, hc, hfound⟩ := List.exists_of_findSome?_eq_some he
  obtain ⟨-, hof⟩ := Option.ite_none_right_eq_some.1 hfound
  obtain ⟨inspect, hinspect, hof⟩ := Option.bind_eq_some_iff.1 hof
  obtain ⟨networks, -, hof⟩ := Option.bind_eq_some_iff.1 hof
  obtain ⟨a, ha, rfl⟩ := Option.map_eq_some_iff.1 hof
  refine ⟨?_, ?_⟩
  · simp only [baseEndpoint]
    split
    · exact hn.inspected c hc inspect hinspect
    · cases hnames : c.names with
      | nil => exact hn.ids c hc
      | cons s names => exact hn.names c hc s (by simp [hnames])
  · obtain ⟨entry, -, hentry⟩ := List.mem_filterMap.1 (List.mem_of_mem_head? ha)
    obtain ⟨ns, hns, rfl⟩ := Option.map_eq_some_iff.1 hentry
    obtain ⟨n, hmem, heq⟩ := List.mem_map.1 (Dict.mem_of_lookup_collect hns)
    obtain ⟨-, rfl⟩ := Prod.mk.inj heq
    exact hn.namespaces n hmem

private theorem names_of_mem_endpoints (hbuilt : BuiltFrom toLowercase hosts table) (hnamed : ∀ h ∈ hosts, h.Named)
    {e : Endpoint} (he : e ∈ endpoints table) :
    IsContainerName e.containerName ∧ ∀ c ∈ e.namespace_.toList, c.toNat < 128 := by
  obtain ⟨entry, hentry, rfl⟩ := List.mem_map.1 he
  obtain ⟨h, hh, hlookup⟩ := hbuilt entry.1 entry.2 (Dict.lookup_eq_some_iff_mem.2 hentry)
  exact names_of_desired (hnamed h hh) hlookup

theorem IsContainerName.ascii {s : String} (h : IsContainerName s) : ∀ c ∈ s.toList, c.toNat < 128 := by
  intro c hc
  have hname := List.all_eq_true.1 h c hc
  have hval : c.val.toNat = c.toNat := rfl
  simp only [isNameChar, Bool.or_eq_true, Bool.and_eq_true, decide_eq_true_eq, Char.le_def, UInt32.le_iff_toNat_le,
    hval] at hname
  rcases hname with ((((h | h) | h) | rfl) | rfl) | rfl
  · exact Nat.lt_of_le_of_lt h.2 (by decide)
  · exact Nat.lt_of_le_of_lt h.2 (by decide)
  · exact Nat.lt_of_le_of_lt h.2 (by decide)
  · decide
  · decide
  · decide

end Tables

/-! ### What is answered -/

section Answer

variable {T : LabelText} (errorAuthoritative : Bool) {r : CoolifyResolver} {request : Request} {table : Table}

private theorem corrosionLookup_eq (rows : List Endpoint) : corrosionLookup rows = rows.filterMap addrOf := by
  rw [corrosionLookup, Firewall.selectEndpointIps, List.map_map, List.filterMap_map]
  rfl

private theorem answerInternal_addresses {container namespace_ : String} {ips : List IpAddr}
    (ha : request.queryType = .a)
    (hips : r.backend container namespace_ = some ips) :
    (answerInternal errorAuthoritative r request container namespace_).answers.map Record.data =
        (ips.filterMap v4Bits).map RData.a ∧
      ((answerInternal errorAuthoritative r request container namespace_).code = .nxDomain ↔ ips = []) := by
  unfold answerInternal
  simp only [hips, ha, ne_eq, not_true_eq_false, if_false]
  by_cases hnil : ips = []
  · simp [hnil, sendCode]
  rw [if_neg hnil]
  -- the records are the IPv4 addresses
  have hrecords : (ips.filterMap (addressRecord request.name)).map Record.data =
      (ips.filterMap v4Bits).map RData.a := by
    rw [List.map_filterMap, List.map_filterMap]
    refine List.filterMap_congr fun ip _ => ?_
    cases ip <;> rfl
  split
  · rename_i hempty
    rw [← hrecords, hempty]
    simp [sendEmpty, hnil]
  · exact ⟨hrecords, by simp [hnil]⟩

/-- The answer to a query for an address whose name is taken. -/
private theorem handleRequest_addresses {c n : Label} (hreads : ReadsTable r.backend table)
    (hop : request.opCode = .query)
    (htype : request.messageType = .query) (ha : request.queryType = .a) (hz : zoneOf r.zone request.name = true)
    (htaken : containerAndNamespace T r.zone request.name = some (T.text c.bytes, T.text n.bytes)) :
    ((handleRequest T errorAuthoritative r request).answers.map Record.data).Perm
        (((spelled T table c n).filterMap v4Of).map RData.a) ∧
      ((handleRequest T errorAuthoritative r request).code = .nxDomain ↔
        ∀ e ∈ spelled T table c n, addrOf e = none) := by
  obtain ⟨rows, hperm, hlookup⟩ := hreads (T.text c.bytes) (T.text n.bytes)
  have hhandle : handleRequest T errorAuthoritative r request =
      answerInternal errorAuthoritative r request (T.text c.bytes) (T.text n.bytes) := by
    simp [handleRequest, hop, htype, hz, htaken]
  obtain ⟨hanswers, hcode⟩ := answerInternal_addresses errorAuthoritative ha hlookup
  rw [hhandle, hanswers, hcode, corrosionLookup_eq, List.filterMap_filterMap]
  refine ⟨((hperm.filterMap v4Of).map RData.a), ?_⟩
  rw [List.filterMap_eq_nil_iff]
  exact forall_congr' fun e => by rw [hperm.mem_iff]; rfl

end Answer

/-! ### Spelling -/

section Spelling

variable {T : LabelText} {table : Table} {c n l : Label} {s : String}

private theorem lowerByte_lt {b : UInt8} (h : b < 128) : lowerByte b < 128 := by
  unfold lowerByte
  split
  · rename_i hb
    rw [UInt8.le_iff_toNat_le, UInt8.le_iff_toNat_le] at hb
    rw [UInt8.lt_iff_toNat_lt, UInt8.toNat_add]
    have h90 : b.toNat ≤ 90 := hb.2
    have h32 : (32 : UInt8).toNat = 32 := rfl
    have h128 : (128 : UInt8).toNat = 128 := rfl
    omega
  · exact h

/-- The text of a label of ASCII is the label. -/
private theorem matchesLabel_text (hl : ∀ b ∈ l.bytes, b < 128) : matchesLabel (T.text l.bytes) l = true := by
  have hchars : (l.bytes.map fun b => Char.ofNat (lowerByte b).toNat) = l.bytes.map fun b => Char.ofNat b.toNat := by
    conv_rhs => rw [← l.lower, List.map_map]
    rfl
  rw [matchesLabel, T.ascii _ hl, hchars, Str.asBytes_ofList hl, l.lower]
  exact decide_eq_true rfl

/-- A text of ASCII is no other label. -/
private theorem lt_of_matchesLabel (hs : ∀ c ∈ s.toList, c.toNat < 128) (h : matchesLabel s l = true) :
    ∀ b ∈ l.bytes, b < 128 := by
  intro b hb
  rw [← of_decide_eq_true h] at hb
  obtain ⟨b', hb', rfl⟩ := List.mem_map.1 hb
  exact lowerByte_lt (Str.lt_of_mem_asBytes hs b' hb')

private theorem eq_of_lowerByte {b : UInt8} (h : lowerByte b = 42) : b.toNat = 42 := by
  unfold lowerByte at h
  split at h
  · rename_i hb
    have h65 : 65 ≤ b.toNat := hb.1
    have h90 : b.toNat ≤ 90 := hb.2
    have hsum : (b + 32).toNat = 42 := by rw [h]; rfl
    rw [UInt8.toNat_add] at hsum
    have h32 : (32 : UInt8).toNat = 32 := rfl
    omega
  · rw [h]
    rfl

/-- No container is called `*`. -/
private theorem not_matchesLabel_star (hs : IsContainerName s) : matchesLabel s star = false := by
  by_contra h
  rw [Bool.not_eq_false] at h
  have heq : (Str.asBytes s).map lowerByte = [42] := of_decide_eq_true h
  cases hchars : s.toList with
  | nil => simp [Str.asBytes, hchars] at heq
  | cons a rest =>
    have ha : a ∈ s.toList := by simp [hchars]
    have hlt := hs.ascii a ha
    rw [Str.asBytes, hchars, List.flatMap_cons, Str.utf8EncodeChar_of_lt hlt, List.singleton_append, List.map_cons] at heq
    have hnat := eq_of_lowerByte (List.cons.inj heq).1
    rw [UInt8.toNat_ofNat_of_lt' (Nat.lt_trans hlt (by decide))] at hnat
    have hstar : a = '*' := Char.toNat_inj.1 hnat
    have hname := List.all_eq_true.1 hs a ha
    rw [hstar] at hname
    cases hname

private theorem mem_matched {e : Endpoint} : e ∈ matched table c n ↔
    e ∈ endpoints table ∧ matchesLabel e.containerName c = true ∧ matchesLabel e.namespace_ n = true ∧
      isLive e = true := by
  simp [matched, and_assoc]

private theorem mem_spelled {e : Endpoint} : e ∈ spelled T table c n ↔
    e ∈ endpoints table ∧ e.containerName = T.text c.bytes ∧ e.namespace_ = T.text n.bytes ∧ isLive e = true := by
  simp [spelled, queried, and_assoc]

private theorem matched_of_spelled (hc : ∀ b ∈ c.bytes, b < 128) (hn : ∀ b ∈ n.bytes, b < 128) {e : Endpoint}
    (he : e ∈ spelled T table c n) : e ∈ matched table c n := by
  obtain ⟨hmem, hname, hns, hlive⟩ := mem_spelled.1 he
  exact mem_matched.2 ⟨hmem, hname ▸ matchesLabel_text hc, hns ▸ matchesLabel_text hn, hlive⟩

end Spelling

/-! ### The answer that is meant -/

/-- A filter that loses no value of a partial function keeps what has a value. -/
private theorem keeps_of_length {α β : Type} {p : α → Bool} {f : α → Option β} {l : List α}
    (h : (l.filterMap f).length ≤ ((l.filter p).filterMap f).length) : ∀ a ∈ l, f a ≠ none → p a = true := by
  induction l with
  | nil => simp
  | cons a l ih =>
    have hle : ((l.filter p).filterMap f).length ≤ (l.filterMap f).length :=
      (List.filter_sublist.filterMap f).length_le
    rw [List.forall_mem_cons]
    by_cases hp : p a = true
    · rw [List.filter_cons_of_pos hp] at h
      cases hf : f a with
      | none =>
        rw [List.filterMap_cons_none hf, List.filterMap_cons_none hf] at h
        exact ⟨fun _ => hp, ih h⟩
      | some b =>
        rw [List.filterMap_cons_some hf, List.filterMap_cons_some hf, List.length_cons, List.length_cons] at h
        exact ⟨fun _ => hp, ih (by omega)⟩
    · rw [List.filter_cons_of_neg hp] at h
      cases hf : f a with
      | none =>
        rw [List.filterMap_cons_none hf] at h
        exact ⟨fun hne => absurd rfl hne, ih h⟩
      | some b =>
        rw [List.filterMap_cons_some hf, List.length_cons] at h
        omega

section Meant

variable {T : LabelText} {table : Table} {c n : Label} {response : Response}

private theorem v4Of_eq_none {e : Endpoint} (h : addrOf e = none) : v4Of e = none := by
  rw [v4Of, h]
  rfl

/-- When the rows that are spelled as the query are among those that it names. -/
private theorem answersMatch_iff_of_sub (hsub : ∀ e ∈ spelled T table c n, e ∈ matched table c n)
    (hanswers : (response.answers.map Record.data).Perm (((spelled T table c n).filterMap v4Of).map RData.a))
    (hcode : response.code = .nxDomain ↔ ∀ e ∈ spelled T table c n, addrOf e = none) :
    AnswersMatch response table c n ↔ SpelledAsQueried T table c n := by
  have hfilter : (matched table c n).filter (queried (T.text c.bytes) (T.text n.bytes)) = spelled T table c n := by
    rw [matched, List.filter_filter, spelled]
    refine List.filter_congr fun e he => ?_
    by_cases hq : queried (T.text c.bytes) (T.text n.bytes) e = true
    · have hm := hsub e (List.mem_filter.2 ⟨he, hq⟩)
      rw [hq, (List.mem_filter.1 hm).2]
      rfl
    · rw [Bool.not_eq_true] at hq
      rw [hq]
      rfl
  constructor
  · intro h
    refine ⟨fun e he _ => hsub e he, fun e he hv4 => ?_, fun ⟨e, he, haddr⟩ => ?_⟩
    · have hlength := (hanswers.symm.trans h.answers).length_eq
      rw [List.length_map, List.length_map, ← hfilter] at hlength
      have hq := keeps_of_length hlength.ge e he hv4
      exact List.mem_filter.2 ⟨(mem_matched.1 he).1, hq⟩
    · by_contra hno
      push Not at hno
      exact haddr (h.nxDomain.1 (hcode.2 hno) e he)
  · intro h
    have hv4 : (spelled T table c n).filterMap v4Of = (matched table c n).filterMap v4Of := by
      rw [← hfilter, List.filterMap_filter]
      refine List.filterMap_congr fun e he => ?_
      split
      · rfl
      · rename_i hq
        by_contra hne
        exact hq (List.mem_filter.1 (h.ipv4 e he (Ne.symm hne))).2
    refine ⟨hv4 ▸ hanswers, hcode.trans ⟨fun hnone e he => ?_, fun hnone e he => hnone e (hsub e he)⟩⟩
    by_contra haddr
    obtain ⟨e', he', haddr'⟩ := h.some_addr ⟨e, he, haddr⟩
    exact haddr' (hnone e' he')

/-- When the query names no row. -/
private theorem answersMatch_iff_of_nil (hnil : matched table c n = [])
    (hanswers : (response.answers.map Record.data).Perm (((spelled T table c n).filterMap v4Of).map RData.a))
    (hcode : response.code = .nxDomain ↔ ∀ e ∈ spelled T table c n, addrOf e = none) :
    AnswersMatch response table c n ↔ SpelledAsQueried T table c n := by
  constructor
  · intro h
    have hnone := hcode.1 (h.nxDomain.2 (by simp [hnil]))
    exact ⟨fun e he haddr => absurd (hnone e he) haddr, by simp [hnil], by simp [hnil]⟩
  · intro h
    have hnone : ∀ e ∈ spelled T table c n, addrOf e = none := by
      intro e he
      by_contra haddr
      simpa [hnil] using h.named e he haddr
    have hv4 : (spelled T table c n).filterMap v4Of = [] :=
      List.filterMap_eq_nil_iff.2 fun e he => v4Of_eq_none (hnone e he)
    rw [hv4] at hanswers
    refine ⟨by rw [hnil]; exact hanswers, iff_of_true (hcode.2 hnone) (by simp [hnil])⟩

end Meant

/-- In a mesh the answer to a query for an address is the one that is meant exactly if the rows that the query names are
spelled in lower case, as far as they have addresses. -/
theorem answers_match_iff (T : LabelText) (errorAuthoritative : Bool) (toLowercase : String → String)
    {hosts : List MeshHost} {table : Table} (hbuilt : BuiltFrom toLowercase hosts table)
    (hnamed : ∀ h ∈ hosts, h.Named) {r : CoolifyResolver} (hreads : ReadsTable r.backend table) {c n : Label}
    {request : Request} (hop : request.opCode = .query) (htype : request.messageType = .query)
    (ha : request.queryType = .a) (hname : Above r.zone request.name c n) :
    AnswersMatch (handleRequest T errorAuthoritative r request) table c n ↔ SpelledAsQueried T table c n := by
  have hz : zoneOf r.zone request.name = true := zoneOf_iff.2 ⟨[c, n], hname⟩
  have hnames := fun e => names_of_mem_endpoints (e := e) hbuilt hnamed
  have htwo := containerAndNamespace_two (T := T) hname
  by_cases hstar : c = star ∧ r.zone.labels.head? ≠ some star
  · -- no row is called `*`
    rw [if_pos hstar] at htwo
    have hmatched : ∀ e, e ∉ matched table c n := by
      intro e he
      obtain ⟨hmem, hc, -⟩ := mem_matched.1 he
      rw [hstar.1, not_matchesLabel_star (hnames e hmem).1] at hc
      cases hc
    have hspelled : ∀ e, e ∉ spelled T table c n := by
      intro e he
      obtain ⟨hmem, hc, -⟩ := mem_spelled.1 he
      have hlabel : matchesLabel e.containerName star = true := by
        rw [hc, hstar.1]
        exact matchesLabel_text (List.forall_mem_singleton.2 (by decide))
      rw [not_matchesLabel_star (hnames e hmem).1] at hlabel
      cases hlabel
    have hnil : matched table c n = [] := List.eq_nil_iff_forall_not_mem.2 hmatched
    refine answersMatch_iff_of_nil hnil ?_ ?_ <;> rw [handleRequest_of_none hop htype hz htwo]
    · rw [List.eq_nil_iff_forall_not_mem.2 hspelled]
      exact .refl _
    · exact iff_of_true rfl fun e he => absurd he (hspelled e)
  rw [if_neg hstar] at htwo
  obtain ⟨hanswers, hcode⟩ := handleRequest_addresses errorAuthoritative hreads hop htype ha hz htwo
  by_cases hascii : (∀ b ∈ c.bytes, b < 128) ∧ ∀ b ∈ n.bytes, b < 128
  · exact answersMatch_iff_of_sub (fun e he => matched_of_spelled hascii.1 hascii.2 he) hanswers hcode
  · -- all names are ASCII, and the query is not
    refine answersMatch_iff_of_nil (List.eq_nil_iff_forall_not_mem.2 fun e he => hascii ?_) hanswers hcode
    obtain ⟨hmem, hc, hn, -⟩ := mem_matched.1 he
    obtain ⟨hcontainer, hns⟩ := hnames e hmem
    exact ⟨lt_of_matchesLabel hcontainer.ascii hc, lt_of_matchesLabel hns hn⟩

/-! ### A container with a capital letter -/

def defaultLabel : Label := ⟨[100, 101, 102, 97, 117, 108, 116], List.cons_ne_nil _ _, rfl⟩

def webConfig : SyncConfig := ⟨"100.64.0.5", [⟨"default", "coolify-default-mesh"⟩]⟩

/-- A host with one container of this name. -/
def webHost (name : String) : MeshHost where
  config := webConfig
  podman :=
    { containers := [⟨"c1", [name], "docker.io/library/nginx:alpine", "running"⟩]
      inspect := fun id =>
        if id = "c1" then
          some ⟨"/" ++ name, some ((∅ : Dict String NetworkEntry).insert "coolify-default-mesh" ⟨"10.210.0.2"⟩),
            some ⟨"running", none⟩⟩
        else none }

def webEndpoint (name : String) : Endpoint := ⟨"c1", name, "default", "100.64.0.5", "10.210.0.2", "running", "unknown"⟩

def webTable (name : String) : Table := Table.empty.apply (.upsert (webEndpoint name) 1)

/-- The resolver that reads the table. -/
def tableResolver (table : Table) : CoolifyResolver where
  backend containerName namespace_ := some (corrosionLookup ((endpoints table).filter (queried containerName namespace_)))
  zone := ⟨[internalLabel]⟩
  upstream _ _ := none

private theorem readsTable_tableResolver (table : Table) : ReadsTable (tableResolver table).backend table :=
  fun _ _ => ⟨_, .refl _, rfl⟩

private theorem builtFrom_webTable {name : String}
    (h : (desiredEndpoints id webConfig (webHost name).podman).map.lookup "c1" = some (webEndpoint name)) :
    BuiltFrom id [webHost name] (webTable name) := by
  intro id row hrow
  rw [webTable, Table.lookup_apply] at hrow
  split at hrow
  · rename_i hid
    rw [hid, ← Option.some.inj hrow]
    exact ⟨webHost name, List.mem_singleton_self _, h⟩
  · cases hrow

private theorem named_webHost {name : String} (hname : IsContainerName (trimSlashes name))
    (hinspected : IsContainerName (trimSlashes ("/" ++ name))) : ∀ host ∈ [webHost name], host.Named := by
  rw [List.forall_mem_singleton]
  refine ⟨fun c hc => ?_, fun c hc s hs => ?_, fun c hc inspect hi => ?_, fun n hn => ?_⟩
  · obtain rfl := List.mem_singleton.1 hc
    exact (by decide : IsContainerName "c1")
  · obtain rfl := List.mem_singleton.1 hc
    obtain rfl := List.mem_singleton.1 hs
    exact hname
  · obtain rfl := List.mem_singleton.1 hc
    obtain rfl := Option.some.inj hi
    exact hinspected
  · obtain rfl := List.mem_singleton.1 hn
    intro c hc
    simpa using List.all_eq_true.1 (by decide : ("default".toList.all fun c => c.toNat < 128) = true) c hc

theorem answers_match_iff_web :
    AnswersMatch (handleRequest asciiText false (tableResolver (webTable "web"))
      (queryFor [webLabel, defaultLabel, internalLabel])) (webTable "web") webLabel defaultLabel :=
  (answers_match_iff asciiText false id (builtFrom_webTable (by decide))
    (named_webHost (by decide) (by decide)) (readsTable_tableResolver (webTable "web")) rfl rfl rfl (by decide)).2
      ⟨by decide, by decide, by decide⟩

/-- The container `Web` is not found. -/
theorem answers_lost :
    BuiltFrom id [webHost "Web"] (webTable "Web") ∧ (∀ host ∈ [webHost "Web"], host.Named) ∧
      ReadsTable (tableResolver (webTable "Web")).backend (webTable "Web") ∧
      handleRequest asciiText false (tableResolver (webTable "Web"))
        (queryFor [webLabel, defaultLabel, internalLabel]) = ⟨.nxDomain, false, []⟩ ∧
      (matched (webTable "Web") webLabel defaultLabel).map addrOf = [some (.v4 0x0AD20002)] ∧
      ¬ AnswersMatch (handleRequest asciiText false (tableResolver (webTable "Web"))
        (queryFor [webLabel, defaultLabel, internalLabel])) (webTable "Web") webLabel defaultLabel := by
  have hnx : handleRequest asciiText false (tableResolver (webTable "Web"))
      (queryFor [webLabel, defaultLabel, internalLabel]) = ⟨.nxDomain, false, []⟩ := by decide
  refine ⟨builtFrom_webTable (by decide), named_webHost (by decide) (by decide),
    readsTable_tableResolver _, hnx, by decide, fun h => ?_⟩
  have hnone := h.nxDomain.1 (by rw [hnx])
  exact absurd hnone (by decide)

end Coold.Dns
