import Coold.Lib.IpAddr
import Coold.Lib.Str

/-!
# The DNS resolver of a host

The resolver answers names in its zone from the endpoint table and forwards all others.  A name in the zone is taken as
`<container>.<namespace>.<zone>`: the resolver counts the labels above the zone and then takes the two leftmost ones.
`followsGrammar_iff` says for which names this is the grammar that is meant.  Two things come in between: a name may have
more than two labels above the zone, and a leading `*` is not counted.
-/

namespace Coold.Dns

/-! ### Names -/

/-- `to_ascii_lowercase`. -/
def lowerByte (b : UInt8) : UInt8 := if 65 ≤ b ∧ b ≤ 90 then b + 32 else b

/-- A label in lower case. -/
structure Label where
  bytes : List UInt8
  ne_nil : bytes ≠ []
  lower : bytes.map lowerByte = bytes
  deriving DecidableEq

def star : Label := ⟨[42], List.cons_ne_nil _ _, rfl⟩

/-- A name in lower case, without the label of the root.  It has at most 127 labels, so that their number is a byte. -/
structure LowerName where
  labels : List Label
  deriving DecidableEq

/-- The labels of a zone stand at the end of its names. -/
def zoneOf (zone name : LowerName) : Bool := zone.labels.isSuffixOf name.labels

/-- The number of labels, without a leading `*`. -/
def numLabels (name : LowerName) : Nat :=
  if name.labels.head? = some star then name.labels.length - 1 else name.labels.length

/-- `from_utf8_lossy` and `to_lowercase` of the bytes of a label. -/
structure LabelText where
  text : List UInt8 → String
  ne_empty : ∀ bytes, bytes ≠ [] → text bytes ≠ ""
  ascii : ∀ bytes, (∀ b ∈ bytes, b < 128) → text bytes = String.ofList (bytes.map fun b => Char.ofNat (lowerByte b).toNat)

/-! ### Requests and responses -/

inductive OpCode where
  | query
  | other (code : Nat)
  deriving DecidableEq

inductive MessageType where
  | query
  | response
  deriving DecidableEq

inductive RecordType where
  | a
  | other (code : Nat)
  deriving DecidableEq

inductive ResponseCode where
  | noError
  | servFail
  | nxDomain
  | refused
  deriving DecidableEq

inductive RData where
  | a (addr : BitVec 32)
  | other (code : Nat) (bytes : List UInt8)
  deriving DecidableEq

structure Record where
  name : LowerName
  ttl : Nat
  data : RData
  deriving DecidableEq

structure Request where
  opCode : OpCode
  messageType : MessageType
  name : LowerName
  queryType : RecordType
  deriving DecidableEq

structure Response where
  code : ResponseCode
  authoritative : Bool
  answers : List Record
  deriving DecidableEq

def positiveTtl : Nat := 5

/-- The record of an address; there are none for IPv6. -/
def addressRecord (name : LowerName) : IpAddr → Option Record
  | .v4 bits => some ⟨name, positiveTtl, .a bits⟩
  | .v6 _ => none

/-- The backend and the upstream resolver give `none` if they fail. -/
structure CoolifyResolver where
  backend : String → String → Option (List IpAddr)
  zone : LowerName
  upstream : LowerName → RecordType → Option (List Record)

section Handler

variable (T : LabelText) (errorAuthoritative : Bool)

/-- The container and the namespace of a name in the zone. -/
def containerAndNamespace (zone name : LowerName) : Option (String × String) :=
  if zoneOf zone name then
    let extra := numLabels name - numLabels zone
    if extra < 2 then none
    else
      match name.labels with
      | container :: namespace_ :: _ =>
        let container := T.text container.bytes
        let namespace_ := T.text namespace_.bytes
        if container = "" ∨ namespace_ = "" then none else some (container, namespace_)
      | _ => none
  else none

/-- An answer with a code alone.  Whether it is authoritative is decided by `error_msg` of the server library. -/
def sendCode (code : ResponseCode) : Response := ⟨code, errorAuthoritative, []⟩

def sendEmpty : Response := ⟨.noError, true, []⟩

def answerInternal (r : CoolifyResolver) (request : Request) (container namespace_ : String) : Response :=
  match r.backend container namespace_ with
  | none => sendCode errorAuthoritative .servFail
  | some ips =>
    if request.queryType ≠ .a then sendEmpty
    else if ips = [] then sendCode errorAuthoritative .nxDomain
    else
      let records := ips.filterMap (addressRecord request.name)
      if records = [] then sendEmpty else ⟨.noError, true, records⟩

def answerInZoneNxdomain : Response := sendCode errorAuthoritative .nxDomain

def answerForwarded (r : CoolifyResolver) (request : Request) : Response :=
  match r.upstream request.name request.queryType with
  | none => sendCode errorAuthoritative .servFail
  | some records => ⟨.noError, false, records⟩

def handleRequest (r : CoolifyResolver) (request : Request) : Response :=
  if request.opCode ≠ .query ∨ request.messageType ≠ .query then sendCode errorAuthoritative .refused
  else if zoneOf r.zone request.name then
    match containerAndNamespace T r.zone request.name with
    | some (container, namespace_) => answerInternal errorAuthoritative r request container namespace_
    | none => answerInZoneNxdomain errorAuthoritative
  else answerForwarded errorAuthoritative r request

end Handler

/-! ### Labels above the zone -/

section Labels

variable {T : LabelText} {zone name : LowerName} {l l₀ l₁ : Label}

theorem zoneOf_iff : zoneOf zone name = true ↔ ∃ front, name.labels = front ++ zone.labels := by
  rw [zoneOf, List.isSuffixOf_iff_suffix]
  exact ⟨fun ⟨front, h⟩ => ⟨front, h.symm⟩, fun ⟨front, h⟩ => ⟨front, h.symm⟩⟩

/-- The labels above the zone are counted without a leading `*`, and one more if the zone has a leading `*`. -/
private theorem numLabels_sub (front : List Label) (h : name.labels = l :: front ++ zone.labels) :
    numLabels name - numLabels zone =
      (if l = star then front.length else front.length + 1) + if zone.labels.head? = some star then 1 else 0 := by
  have hname : numLabels name =
      if l = star then front.length + zone.labels.length else front.length + zone.labels.length + 1 := by
    simp only [numLabels, h, List.cons_append, List.head?_cons, Option.some.injEq, List.length_cons,
      List.length_append, Nat.add_sub_cancel]
  have hzone : zone.labels.head? = some star → 0 < zone.labels.length := by
    intro hs
    cases hz : zone.labels with
    | nil => simp [hz] at hs
    | cons a labels => simp
  rw [hname, numLabels]
  by_cases hs : zone.labels.head? = some star
  · have hpos := hzone hs
    rw [if_pos hs, if_pos hs]
    split <;> omega
  · rw [if_neg hs, if_neg hs]
    split <;> omega

private theorem numLabels_sub_self (h : name.labels = zone.labels) : numLabels name - numLabels zone = 0 := by
  simp [numLabels, h]

/-- A name with enough labels is taken by its two leftmost ones. -/
private theorem containerAndNamespace_eq_some {rest : List Label} (hz : zoneOf zone name = true)
    (hextra : 2 ≤ numLabels name - numLabels zone) (h : name.labels = l₀ :: l₁ :: rest) :
    containerAndNamespace T zone name = some (T.text l₀.bytes, T.text l₁.bytes) := by
  have hne : ¬(T.text l₀.bytes = "" ∨ T.text l₁.bytes = "") :=
    not_or.2 ⟨T.ne_empty _ l₀.ne_nil, T.ne_empty _ l₁.ne_nil⟩
  simp only [containerAndNamespace, hz, if_true, h, if_neg (Nat.not_lt.2 hextra), if_neg hne]

private theorem containerAndNamespace_eq_none (hextra : numLabels name - numLabels zone < 2) :
    containerAndNamespace T zone name = none := by
  simp only [containerAndNamespace, if_pos hextra, ite_self]

/-- Of the names with two labels above the zone those are not taken that begin with `*`, unless the zone does so too. -/
theorem containerAndNamespace_two (h : name.labels = l₀ :: l₁ :: zone.labels) :
    containerAndNamespace T zone name =
      if l₀ = star ∧ zone.labels.head? ≠ some star then none else some (T.text l₀.bytes, T.text l₁.bytes) := by
  have hextra := numLabels_sub [l₁] h
  by_cases hl : l₀ = star ∧ zone.labels.head? ≠ some star
  · rw [if_pos hl]
    rw [if_pos hl.1, if_neg hl.2] at hextra
    exact containerAndNamespace_eq_none (by simp [hextra])
  · rw [if_neg hl]
    refine containerAndNamespace_eq_some (zoneOf_iff.2 ⟨[l₀, l₁], h⟩) ?_ h
    rw [hextra]
    by_cases hstar : l₀ = star
    · have hs : zone.labels.head? = some star := not_not.1 fun hs => hl ⟨hstar, hs⟩
      simp [hstar, hs]
    · simp [hstar]

/-- Outside of the zone nothing is taken. -/
private theorem containerAndNamespace_of_not_zoneOf (hz : zoneOf zone name = false) :
    containerAndNamespace T zone name = none := by
  simp [containerAndNamespace, hz]

/-- A query for a name in the zone that is not taken. -/
theorem handleRequest_of_none {errorAuthoritative : Bool} {r : CoolifyResolver} {request : Request}
    (hop : request.opCode = .query) (htype : request.messageType = .query) (hz : zoneOf r.zone request.name = true)
    (hnone : containerAndNamespace T r.zone request.name = none) :
    handleRequest T errorAuthoritative r request = ⟨.nxDomain, errorAuthoritative, []⟩ := by
  simp [handleRequest, hop, htype, hz, hnone, answerInZoneNxdomain, sendCode]

end Labels

/-! ### The grammar -/

/-- The name has exactly these two labels above the zone. -/
def Above (zone name : LowerName) (l₀ l₁ : Label) : Prop := name.labels = l₀ :: l₁ :: zone.labels

instance (zone name : LowerName) (l₀ l₁ : Label) : Decidable (Above zone name l₀ l₁) :=
  inferInstanceAs (Decidable (_ = _))

/-- The names that are taken are those with two labels above the zone, and all others in the zone do not exist, by the
authority of the resolver. -/
structure FollowsGrammar (T : LabelText) (errorAuthoritative : Bool) (zone name : LowerName) : Prop where
  taken : ∀ container namespace_, containerAndNamespace T zone name = some (container, namespace_) ↔
    ∃ l₀ l₁, Above zone name l₀ l₁ ∧ T.text l₀.bytes = container ∧ T.text l₁.bytes = namespace_ ∧
      container ≠ "" ∧ namespace_ ≠ ""
  refused : zoneOf zone name = true → (¬ ∃ l₀ l₁, Above zone name l₀ l₁) →
    ∀ (r : CoolifyResolver) (request : Request), r.zone = zone → request.name = name → request.opCode = .query →
      request.messageType = .query → handleRequest T errorAuthoritative r request = ⟨.nxDomain, true, []⟩

section Grammar

variable {T : LabelText} {errorAuthoritative : Bool} {zone name : LowerName} {l l₀ l₁ : Label}

theorem Above.inj {a b : Label} (h : Above zone name l₀ l₁) (h' : Above zone name a b) : a = l₀ ∧ b = l₁ := by
  have heq : a :: b :: zone.labels = l₀ :: l₁ :: zone.labels := Eq.trans (Eq.symm h') h
  simpa using heq

/-- The number of labels above the zone is one of the name. -/
private theorem labels_ne {front : List Label} (h : name.labels = front ++ zone.labels) (front' : List Label)
    (hlen : front.length ≠ front'.length) : name.labels ≠ front' ++ zone.labels := by
  intro heq
  have hlength := congrArg List.length (h.symm.trans heq)
  simp only [List.length_append] at hlength
  omega

private theorem not_above (front : List Label) (h : name.labels = front ++ zone.labels) (hlen : front.length ≠ 2) :
    ¬ ∃ l₀ l₁, Above zone name l₀ l₁ :=
  fun ⟨l₀, l₁, habove⟩ => labels_ne h [l₀, l₁] hlen habove

/-- A resolver without endpoints. -/
private def resolverOf (zone : LowerName) : CoolifyResolver := ⟨fun _ _ => none, zone, fun _ _ => none⟩

/-- A name that is not taken follows the grammar if it has not two labels and its error is authoritative. -/
private theorem followsGrammar_of_none (hnone : containerAndNamespace T zone name = none)
    (hno : ¬ ∃ l₀ l₁, Above zone name l₀ l₁) :
    FollowsGrammar T errorAuthoritative zone name ↔ zoneOf zone name = false ∨ errorAuthoritative = true := by
  constructor
  · intro h
    by_cases hz : zoneOf zone name = true
    · have hr := h.refused hz hno (resolverOf zone) ⟨.query, .query, name, .a⟩ rfl rfl rfl rfl
      rw [handleRequest_of_none rfl rfl hz hnone, Response.mk.injEq] at hr
      exact .inr hr.2.1
    · exact .inl (Bool.eq_false_iff.2 hz)
  · intro h
    refine ⟨fun container namespace_ => ?_, ?_⟩
    · rw [hnone]
      refine iff_of_false (by simp) ?_
      rintro ⟨l₀, l₁, habove, -⟩
      exact hno ⟨l₀, l₁, habove⟩
    · rintro hz - r request rfl rfl hop htype
      rw [handleRequest_of_none hop htype hz hnone]
      rcases h with hz' | rfl
      · rw [hz] at hz'
        cases hz'
      · rfl

/-- A name that is taken without having two labels above the zone. -/
private theorem not_followsGrammar_of_some {rest : List Label} (hz : zoneOf zone name = true)
    (hextra : 2 ≤ numLabels name - numLabels zone) (h : name.labels = l₀ :: l₁ :: rest) (hrest : rest ≠ zone.labels) :
    ¬ FollowsGrammar T errorAuthoritative zone name := by
  intro hf
  obtain ⟨a, b, habove, -⟩ := (hf.taken _ _).1 (containerAndNamespace_eq_some hz hextra h)
  have heq := h.symm.trans habove
  simp only [List.cons.injEq] at heq
  exact hrest heq.2.2

private theorem followsGrammar_of_not_zoneOf (hz : zoneOf zone name = false) :
    FollowsGrammar T errorAuthoritative zone name := by
  have hno : ¬ ∃ l₀ l₁, Above zone name l₀ l₁ := by
    rintro ⟨l₀, l₁, h⟩
    rw [zoneOf_iff.2 ⟨[l₀, l₁], h⟩] at hz
    cases hz
  exact (followsGrammar_of_none (containerAndNamespace_of_not_zoneOf hz) hno).2 (.inl hz)

private theorem followsGrammar_apex (h : name.labels = zone.labels) :
    FollowsGrammar T errorAuthoritative zone name ↔ errorAuthoritative = true := by
  have hz : zoneOf zone name = true := zoneOf_iff.2 ⟨[], h⟩
  have hextra := numLabels_sub_self h
  rw [followsGrammar_of_none (containerAndNamespace_eq_none (by omega)) (not_above [] h (by simp)), hz]
  simp

private theorem followsGrammar_single (h : name.labels = l :: zone.labels) :
    FollowsGrammar T errorAuthoritative zone name ↔
      errorAuthoritative = true ∧ (zone.labels.head? = some star → l = star) := by
  have hz : zoneOf zone name = true := zoneOf_iff.2 ⟨[l], h⟩
  have hextra := numLabels_sub [] h
  by_cases hl : zone.labels.head? = some star → l = star
  · have hlt : numLabels name - numLabels zone < 2 := by
      rw [hextra]
      by_cases hs : zone.labels.head? = some star
      · simp [hs, hl hs]
      · simp only [if_neg hs, List.length_nil]
        split <;> omega
    rw [followsGrammar_of_none (containerAndNamespace_eq_none hlt) (not_above [l] h (by simp)), hz]
    simp only [Bool.true_eq_false, false_or, iff_self_and]
    exact fun _ => hl
  · -- the leading `*` of the zone is taken for the namespace
    obtain ⟨hs, hlstar⟩ := Classical.not_imp.1 hl
    obtain ⟨rest, hrest⟩ := List.head?_eq_some_iff.1 hs
    have hge : 2 ≤ numLabels name - numLabels zone := by
      rw [hextra, if_neg hlstar, if_pos hs]
      simp
    refine iff_of_false (not_followsGrammar_of_some hz hge (h.trans (congrArg (l :: ·) hrest)) fun heq => ?_) fun h' =>
      hl h'.2
    simpa using congrArg List.length (heq.trans hrest)

private theorem followsGrammar_two (h : Above zone name l₀ l₁) :
    FollowsGrammar T errorAuthoritative zone name ↔ (l₀ = star → zone.labels.head? = some star) := by
  have htwo := containerAndNamespace_two (T := T) h
  have htexts : T.text l₀.bytes ≠ "" ∧ T.text l₁.bytes ≠ "" := ⟨T.ne_empty _ l₀.ne_nil, T.ne_empty _ l₁.ne_nil⟩
  by_cases hl : l₀ = star ∧ zone.labels.head? ≠ some star
  · -- a leading `*` is not counted, so the name is taken for one with a single label
    rw [if_pos hl] at htwo
    refine iff_of_false (fun hf => ?_) fun himp => hl.2 (himp hl.1)
    have hsome := (hf.taken _ _).2 ⟨l₀, l₁, h, rfl, rfl, htexts⟩
    rw [htwo] at hsome
    cases hsome
  · rw [if_neg hl] at htwo
    refine iff_of_true ⟨fun container namespace_ => ?_, fun _ hno => absurd ⟨l₀, l₁, h⟩ hno⟩ fun hstar =>
      not_not.1 fun hs => hl ⟨hstar, hs⟩
    rw [htwo, Option.some.injEq, Prod.mk.injEq]
    constructor
    · rintro ⟨rfl, rfl⟩
      exact ⟨l₀, l₁, h, rfl, rfl, htexts⟩
    · rintro ⟨a, b, habove, rfl, rfl, -⟩
      obtain ⟨rfl, rfl⟩ := h.inj habove
      exact ⟨rfl, rfl⟩

private theorem not_followsGrammar_deeper (rest : List Label) (h : name.labels = l₀ :: l₁ :: l :: rest ++ zone.labels) :
    ¬ FollowsGrammar T errorAuthoritative zone name := by
  have hz : zoneOf zone name = true := zoneOf_iff.2 ⟨_, h⟩
  have hge : 2 ≤ numLabels name - numLabels zone := by
    rw [numLabels_sub (l₁ :: l :: rest) h]
    simp only [List.length_cons]
    split <;> omega
  refine not_followsGrammar_of_some hz hge h fun heq => ?_
  have hlength : (l :: rest ++ zone.labels).length = zone.labels.length := congrArg List.length heq
  simp only [List.length_append, List.length_cons] at hlength
  omega

end Grammar

/-- The grammar is followed for the names outside of the zone, for those with two labels above the zone of which the
first is not `*`, and for those with fewer labels if the library makes errors authoritative.  In a zone that begins with
`*` the name may begin with `*` as well, and a single label must be one. -/
theorem followsGrammar_iff (T : LabelText) (errorAuthoritative : Bool) (zone name : LowerName) :
    FollowsGrammar T errorAuthoritative zone name ↔
      zoneOf zone name = false ∨
      (∃ l₀ l₁, Above zone name l₀ l₁ ∧ (l₀ = star → zone.labels.head? = some star)) ∨
      (errorAuthoritative = true ∧ (name.labels = zone.labels ∨
        ∃ l, name.labels = l :: zone.labels ∧ (zone.labels.head? = some star → l = star))) := by
  by_cases hz : zoneOf zone name = true
  swap
  · have hz' : zoneOf zone name = false := Bool.eq_false_iff.2 hz
    exact iff_of_true (followsGrammar_of_not_zoneOf hz') (.inl hz')
  obtain ⟨front, hfront⟩ := zoneOf_iff.1 hz
  rw [hz, Bool.true_eq_false, false_or]
  have hne := labels_ne hfront
  match front, hfront with
  | [], h =>
    have hno := not_above [] h (by simp)
    have hapex : name.labels = zone.labels := h
    rw [followsGrammar_apex hapex]
    exact ⟨fun he => .inr ⟨he, .inl h⟩, fun h' => (h'.resolve_left fun ⟨l₀, l₁, ha, _⟩ => hno ⟨l₀, l₁, ha⟩).1⟩
  | [l], h =>
    have hno := not_above [l] h (by simp)
    have hsingle : name.labels = l :: zone.labels := h
    rw [followsGrammar_single hsingle]
    constructor
    · exact fun ⟨he, hl⟩ => .inr ⟨he, .inr ⟨l, h, hl⟩⟩
    · rintro (⟨l₀, l₁, ha, -⟩ | ⟨he, heq | ⟨a, ha, hl⟩⟩)
      · exact absurd ⟨l₀, l₁, ha⟩ hno
      · exact absurd heq (hne [] (by simp))
      · obtain ⟨rfl, -⟩ := List.cons.inj (h.symm.trans ha)
        exact ⟨he, hl⟩
  | [l₀, l₁], h =>
    have habove : Above zone name l₀ l₁ := h
    rw [followsGrammar_two habove]
    constructor
    · exact fun hl => .inl ⟨l₀, l₁, h, hl⟩
    · rintro (⟨a, b, hab, ha⟩ | ⟨-, heq | ⟨l, hl, -⟩⟩)
      · rwa [(habove.inj hab).1] at ha
      · exact absurd heq (hne [] (by simp))
      · exact absurd hl (hne [l] (by simp))
  | l₀ :: l₁ :: l₂ :: rest, h =>
    refine iff_of_false (not_followsGrammar_deeper rest h) ?_
    rintro (⟨a, b, hab, -⟩ | ⟨-, heq | ⟨l, hl, -⟩⟩)
    · exact not_above _ h (by simp) ⟨a, b, hab⟩
    · exact hne [] (by simp) heq
    · exact hne [l] (by simp) hl

/-! ### Deeper names -/

/-- `from_utf8_lossy` and `to_lowercase` of ASCII. -/
def asciiText : LabelText where
  text bytes := String.ofList (bytes.map fun b => Char.ofNat (lowerByte b).toNat)
  ne_empty bytes h heq := h (by simpa using congrArg String.toList heq)
  ascii _ _ := rfl

def webLabel : Label := ⟨[119, 101, 98], List.cons_ne_nil _ _, rfl⟩
def prodLabel : Label := ⟨[112, 114, 111, 100], List.cons_ne_nil _ _, rfl⟩
def devLabel : Label := ⟨[100, 101, 118], List.cons_ne_nil _ _, rfl⟩
def internalLabel : Label := ⟨[105, 110, 116], List.cons_ne_nil _ _, rfl⟩

/-- A resolver of the zone `int` with the container `web` in the namespace `prod`. -/
def webResolver : CoolifyResolver where
  backend container namespace_ := if container = "web" ∧ namespace_ = "prod" then some [.v4 0x0AD20002] else some []
  zone := ⟨[internalLabel]⟩
  upstream _ _ := none

def queryFor (labels : List Label) : Request := ⟨.query, .query, ⟨labels⟩, .a⟩

/-- The name `web.prod.dev.int` is answered with the container `web` of `prod`, and the name `web.int` without
authority. -/
theorem grammar_broken :
    handleRequest asciiText false webResolver (queryFor [webLabel, prodLabel, devLabel, internalLabel]) =
        ⟨.noError, true, [⟨⟨[webLabel, prodLabel, devLabel, internalLabel]⟩, 5, .a 0x0AD20002⟩]⟩ ∧
      ¬ FollowsGrammar asciiText false ⟨[internalLabel]⟩ ⟨[webLabel, prodLabel, devLabel, internalLabel]⟩ ∧
      handleRequest asciiText false webResolver (queryFor [webLabel, internalLabel]) = ⟨.nxDomain, false, []⟩ ∧
      ¬ FollowsGrammar asciiText false ⟨[internalLabel]⟩ ⟨[webLabel, internalLabel]⟩ := by
  refine ⟨by decide, not_followsGrammar_deeper [] rfl, by decide, fun h => ?_⟩
  exact absurd ((followsGrammar_single rfl).1 h).1 (by decide)

end Coold.Dns
