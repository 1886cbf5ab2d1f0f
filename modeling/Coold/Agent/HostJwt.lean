import Coold.Lib.Json
import Coold.Lib.Lts
import Coold.Lib.Str

/-!
# Rotation of the host token

`applyHostJwt` installs a pushed token in the file of the host token.  The token has to be three base64url segments;
its signature is not verified.  When the pushed token has a subject and the installed one has a subject, the two have
to agree.  The parser of `serde_json` is the parameter `fromSlice`, and a label of a run is one call: the pushed text,
whether the file system let the installed file be read, and whether it let the new one be written and renamed.

A call replaces the subject of the installed token exactly when it installs a token of another subject, or of none,
without comparing it (`applyHostJwt_keeps_iff`): the pushed token has no subject, or the installed one is not read.
-/

namespace Coold.Agent.HostJwt

/-! ### base64url -/

/-- The value of a base64url digit. -/
def sextet (byte : UInt8) : Option UInt32 :=
  if 'A'.toUInt8 ≤ byte ∧ byte ≤ 'Z'.toUInt8 then some (byte - 'A'.toUInt8).toUInt32
  else if 'a'.toUInt8 ≤ byte ∧ byte ≤ 'z'.toUInt8 then some (byte - 'a'.toUInt8 + 26).toUInt32
  else if '0'.toUInt8 ≤ byte ∧ byte ≤ '9'.toUInt8 then some (byte - '0'.toUInt8 + 52).toUInt32
  else if byte = '-'.toUInt8 then some 62
  else if byte = '_'.toUInt8 then some 63
  else none

/-- The loop of `base64urlDecode`: the bits read so far are the low bits of `buffer`, and `bits` of them are not yet
written. -/
def decodeLoop : List UInt8 → (buffer bits : UInt32) → Option (List UInt8)
  | [], _, _ => some []
  | byte :: rest, buffer, bits => do
    let buffer := (buffer <<< 6) ||| (← sextet byte)
    let bits := bits + 6
    if 8 ≤ bits then
      let bits := bits - 8
      return (buffer >>> bits).toUInt8 :: (← decodeLoop rest buffer bits)
    else decodeLoop rest buffer bits

/-- Decode base64url without padding; left-over bits are dropped. -/
def base64urlDecode (input : String) : Option (List UInt8) := decodeLoop (Str.asBytes input) 0 0

/-! ### The pushed and the installed token -/

/-- Why a token is not installed.  `io` is a failure to write or to rename the file. -/
inductive HostJwtError where
  | empty
  | notStructural
  | notBase64url
  | subMismatch (newSub currentSub : String)
  | io
  deriving DecidableEq

section Token

variable (fromSlice : List UInt8 → Option Json.Value)

/-- The `sub` of a structurally valid token, if its payload is an object with a string `sub`. -/
def validateAndExtractSub (jwt : String) : Except HostJwtError (Option String) :=
  if jwt = "" then .error .empty
  else
    let parts := Str.split '.' jwt
    if parts.length ≠ 3 ∨ parts.any (· = "") then .error .notStructural
    else
      match parts.mapM base64urlDecode with
      | none => .error .notBase64url
      | some decoded =>
        .ok (((decoded[1]?.bind fromSlice).bind fun payload => payload.get "sub").bind Json.Value.asString)

/-- What `read_to_string` makes of a file: nothing when it is missing or not text, and nothing when the read fails. -/
def readInstalled (reads : Bool) (file : Option String) : Option String := if reads then file else none

/-- The subject of the installed token, by what was read of its file. -/
def currentHostSub (file : Option String) : Option String := do
  let raw ← file
  let sub ← (validateAndExtractSub fromSlice (Str.trim raw)).toOption
  sub

/-- The file is written beside its place and renamed: a failed write leaves it as it was. -/
def writeHostJwtAtomic (writes : Bool) (jwt : String) (file : Option String) :
    Except HostJwtError Unit × Option String :=
  if writes then (.ok (), some jwt) else (.error .io, file)

/-- The result of a call and the file after it. -/
def applyHostJwt (newJwt : String) (reads writes : Bool) (file : Option String) :
    Except HostJwtError Unit × Option String :=
  let newJwt := Str.trim newJwt
  match validateAndExtractSub fromSlice newJwt with
  | .error e => (.error e, file)
  | .ok newSub =>
    match newSub, currentHostSub fromSlice (readInstalled reads file) with
    | some newSub, some currentSub =>
      if currentSub ≠ newSub then (.error (.subMismatch newSub currentSub), file)
      else writeHostJwtAtomic writes newJwt file
    | _, _ => writeHostJwtAtomic writes newJwt file

/-- One call of `applyHostJwt`, with what the file system made of it. -/
structure Push where
  newJwt : String
  reads : Bool
  writes : Bool

def step (file : Option String) (p : Push) : Option (Option String) :=
  some (applyHostJwt fromSlice p.newJwt p.reads p.writes file).2

/-! ### What a call keeps -/

/-- A call is refused and the file stays, or the trimmed token is installed; then its subject is the one that was read
of the installed token, as far as there are two. -/
private theorem applyHostJwt_cases (newJwt : String) (reads writes : Bool) (file : Option String) :
    (∃ e, applyHostJwt fromSlice newJwt reads writes file = (.error e, file)) ∨
      ∃ sub, validateAndExtractSub fromSlice (Str.trim newJwt) = .ok sub ∧ writes = true ∧
        (∀ a b, sub = some a → currentHostSub fromSlice (readInstalled reads file) = some b → a = b) ∧
        applyHostJwt fromSlice newJwt reads writes file = (.ok (), some (Str.trim newJwt)) := by
  cases hv : validateAndExtractSub fromSlice (Str.trim newJwt) with
  | error e => exact Or.inl ⟨e, by simp [applyHostJwt, hv]⟩
  | ok sub =>
    cases writes with
    | false =>
      refine Or.inl ?_
      simp only [applyHostJwt, hv, writeHostJwtAtomic]
      split
      · split
        · exact ⟨_, rfl⟩
        · exact ⟨_, rfl⟩
      · exact ⟨_, rfl⟩
    | true =>
      -- the subjects are compared only if both tokens have one
      cases sub with
      | none => exact Or.inr ⟨none, rfl, rfl, by simp, by simp [applyHostJwt, hv, writeHostJwtAtomic]⟩
      | some a =>
        cases hc : currentHostSub fromSlice (readInstalled reads file) with
        | none => exact Or.inr ⟨some a, rfl, rfl, by simp, by simp [applyHostJwt, hv, hc, writeHostJwtAtomic]⟩
        | some b =>
          by_cases hab : b = a
          · refine Or.inr ⟨some a, rfl, rfl, ?_, by simp [applyHostJwt, hv, hc, hab, writeHostJwtAtomic]⟩
            rintro _ _ ⟨⟩ ⟨⟩
            exact hab.symm
          · exact Or.inl ⟨.subMismatch a b, by simp [applyHostJwt, hv, hc, hab]⟩

variable {fromSlice}

/-- The subject of an installed token is the one it was validated with. -/
private theorem currentHostSub_trim {newJwt : String} {sub : Option String}
    (h : validateAndExtractSub fromSlice (Str.trim newJwt) = .ok sub) :
    currentHostSub fromSlice (some (Str.trim newJwt)) = sub := by
  simp [currentHostSub, Str.trim_trim, h, Except.toOption]

variable (fromSlice)

/-- A call that installs a valid token of another subject than `sub`, or of none, with nothing to compare: the token
has no subject, or the installed one is not read. -/
def Push.Unpins (sub : String) (p : Push) : Prop :=
  p.writes = true ∧ ∃ newSub, validateAndExtractSub fromSlice (Str.trim p.newJwt) = .ok newSub ∧
    newSub ≠ some sub ∧ (newSub = none ∨ p.reads = false)

/-- A call installs its token, of subject `sub`, or it is refused and the file stays. -/
def InstallsOrRejects (sub : String) (file : Option String) (p : Push) : Prop :=
  (applyHostJwt fromSlice p.newJwt p.reads p.writes file = (.ok (), some (Str.trim p.newJwt)) ∧
      validateAndExtractSub fromSlice (Str.trim p.newJwt) = .ok (some sub)) ∨
    ∃ e, applyHostJwt fromSlice p.newJwt p.reads p.writes file = (.error e, file)

variable {fromSlice}

private theorem installsOrRejects_of_not_unpins {sub : String} {file : Option String} {p : Push}
    (h : currentHostSub fromSlice file = some sub) (hp : ¬ p.Unpins fromSlice sub) :
    InstallsOrRejects fromSlice sub file p := by
  rcases applyHostJwt_cases fromSlice p.newJwt p.reads p.writes file with he | ⟨newSub, hv, hw, heq, ha⟩
  · exact Or.inr he
  · refine Or.inl ⟨ha, ?_⟩
    by_cases hsub : newSub = some sub
    · rw [hv, hsub]
    · -- a token of another subject is installed only if nothing is compared
      refine absurd ⟨hw, newSub, hv, hsub, ?_⟩ hp
      cases hr : p.reads with
      | false => exact Or.inr rfl
      | true =>
        refine Or.inl (Option.eq_none_iff_forall_ne_some.2 fun a hsome => hsub ?_)
        rw [hsome, heq a sub hsome (by rw [hr]; exact h)]

private theorem applyHostJwt_of_unpins {sub : String} {p : Push} (hp : p.Unpins fromSlice sub)
    (file : Option String) : (applyHostJwt fromSlice p.newJwt p.reads p.writes file).1 = .ok () := by
  obtain ⟨hw, newSub, hv, -, hnone | hr⟩ := hp
  · simp [applyHostJwt, hv, hnone, hw, writeHostJwtAtomic]
  · have hcur : currentHostSub fromSlice (readInstalled false file) = none := rfl
    simp [applyHostJwt, hv, hr, hcur, hw, writeHostJwtAtomic]

/-- A call keeps the subject of the installed token exactly when it does not install another one uncompared. -/
theorem applyHostJwt_keeps_iff {sub : String} {file : Option String} {p : Push}
    (h : currentHostSub fromSlice file = some sub) :
    currentHostSub fromSlice (applyHostJwt fromSlice p.newJwt p.reads p.writes file).2 = some sub ↔
      ¬ p.Unpins fromSlice sub := by
  constructor
  · intro hkeep hp
    have hok := applyHostJwt_of_unpins hp file
    obtain ⟨-, newSub, hv, hne, -⟩ := hp
    rcases applyHostJwt_cases fromSlice p.newJwt p.reads p.writes file with ⟨e, ha⟩ | ⟨newSub', hv', -, -, ha⟩
    · rw [ha] at hok
      cases hok
    · rw [ha, currentHostSub_trim hv'] at hkeep
      obtain rfl := Except.ok.inj (hv.symm.trans hv')
      exact hne hkeep
  · intro hp
    rcases installsOrRejects_of_not_unpins h hp with ⟨ha, hv⟩ | ⟨e, ha⟩
    · rw [ha, currentHostSub_trim hv]
    · rw [ha, h]

/-- In a sequence of calls that starts with a token of subject `sub` in the file, the file holds a valid token of
this subject after every call, and every call installs such a token or leaves the file as it is, exactly when no call
of the sequence installs a token of another subject, or of none, without comparing it. -/
theorem host_sub_pinned_iff {sub : String} {file : Option String} (pushes : List Push)
    (h : currentHostSub fromSlice file = some sub) :
    Lts.Always (step fromSlice) (fun file => currentHostSub fromSlice file = some sub) file pushes ∧
        Lts.Along (step fromSlice) (InstallsOrRejects fromSlice sub) file pushes ↔
      ∀ p ∈ pushes, ¬ p.Unpins fromSlice sub := by
  -- no call is ever disabled
  have hrun : ∀ (pushes : List Push) file, ∃ file', Lts.run (step fromSlice) file pushes = some file' := by
    intro pushes
    induction pushes with
    | nil => exact fun file => ⟨file, rfl⟩
    | cons p pushes ih =>
      intro file
      obtain ⟨file', hrest⟩ := ih (applyHostJwt fromSlice p.newJwt p.reads p.writes file).2
      exact ⟨file', Lts.run_cons_eq_some.2 ⟨_, rfl, hrest⟩⟩
  obtain ⟨file', hr⟩ := hrun pushes file
  have hkeep : Lts.Always (step fromSlice) (fun file => currentHostSub fromSlice file = some sub) file pushes ↔
      Lts.Along (step fromSlice) (fun _ p => ¬ p.Unpins fromSlice sub) file pushes := by
    refine Lts.always_iff_along_of_step ?_ h hr
    intro f p f' hf hs
    rw [← Option.some.inj hs]
    exact applyHostJwt_keeps_iff hf
  rw [← Lts.along_iff_forall_mem hr, ← hkeep]
  refine ⟨And.left, fun hall => ⟨hall, ?_⟩⟩
  refine Lts.along_mono (I := fun file => currentHostSub fromSlice file = some sub) ?_ ?_ h (hkeep.1 hall)
  · intro f p f' hf hp hs
    rw [← Option.some.inj hs]
    exact (applyHostJwt_keeps_iff hf).2 hp
  · exact fun f p hf hp => installsOrRejects_of_not_unpins hf hp

end Token

/-! ### A token without a subject -/

/-- What `serde_json` makes of the payloads below. -/
def sampleFromSlice (bytes : List UInt8) : Option Json.Value :=
  if bytes = Str.asBytes "\x7b\"sub\":\"h\"\x7d" then some (.object [("sub", .string "h")])
  else if bytes = Str.asBytes "\x7b\"sub\":\"x\"\x7d" then some (.object [("sub", .string "x")])
  else none

/-- The token of host `h`. -/
def hostToken : String := "e30.eyJzdWIiOiJoIn0.c2ln"

/-- The token of another host. -/
def otherToken : String := "e30.eyJzdWIiOiJ4In0.c2ln"

/-- The host token is rotated, although the installed one could not be read, and a token of another host refused. -/
theorem host_sub_pinned_rotation :
    Lts.Always (step sampleFromSlice) (fun file => currentHostSub sampleFromSlice file = some "h") (some hostToken)
      [⟨hostToken ++ "\n", false, true⟩, ⟨otherToken, true, true⟩] := by
  refine ((host_sub_pinned_iff [⟨hostToken ++ "\n", false, true⟩, ⟨otherToken, true, true⟩]
    (by decide : currentHostSub sampleFromSlice (some hostToken) = some "h")).2 ?_).1
  have hhost : validateAndExtractSub sampleFromSlice (Str.trim (hostToken ++ "\n")) = .ok (some "h") := by decide
  have hother : validateAndExtractSub sampleFromSlice (Str.trim otherToken) = .ok (some "x") := by decide
  simp [Push.Unpins, hhost, hother]

/-- After a token without a subject the one of another host is installed. -/
theorem host_sub_not_pinned :
    currentHostSub sampleFromSlice (some hostToken) = some "h" ∧
      Lts.run (step sampleFromSlice) (some hostToken) [⟨"a.b.c", true, true⟩] = some (some "a.b.c") ∧
      currentHostSub sampleFromSlice (some "a.b.c") = none ∧
      Lts.run (step sampleFromSlice) (some hostToken) [⟨"a.b.c", true, true⟩, ⟨otherToken, true, true⟩] =
        some (some otherToken) ∧
      currentHostSub sampleFromSlice (some otherToken) = some "x" := by
  decide

end Coold.Agent.HostJwt
