import Coold.Agent.HostJwt
import Coold.Lib.Fs

/-!
# Concurrent rotations of the host token

Every command is handled in a task of its own, so that several calls of `apply_host_jwt` may be under way at once.  A
call validates the pushed token, compares its subject with the installed one, opens the temporary file, writes the
token, sets the mode of the file and renames it over the path; when one of these fails it removes the temporary file.
The name of the temporary file is made of the name of the path and of the id of the process, so that all calls share it.

A label of a run is one such step of one call, with what the file system made of it, or a read of the path.  `writer`
is the call that last truncated or wrote a file, and `seen` is what the readers of the path have found.
-/

namespace Coold.Agent.HostJwtRuns

open HostJwt

/-- The names in the directory of the token: the path and `.<file name>.tmp.<process id>`. -/
inductive Name where
  | path
  | tmp
  deriving DecidableEq

/-- How far a call has come.  `n` is the file its handle is for, or the file it has installed. -/
inductive Pc where
  | validated (newSub : Option String)
  | passed
  | opened (n : Nat)
  | written (n : Nat)
  | moded (n : Nat)
  | failing
  | installed (n : Nat)
  | refused (e : HostJwtError)
  deriving DecidableEq

/-- The token of the call has been validated and its subject compared. -/
def Pc.pastCheck : Pc → Bool
  | .validated _ => false
  | .refused e => e = .io
  | _ => true

structure Call where
  jwt : String
  pc : Pc
  deriving DecidableEq

/-- The file a call has open under the name of the temporary file, and what it should hold. -/
def Call.held (c : Call) : Option (Nat × List UInt8) :=
  match c.pc with
  | .opened n => some (n, [])
  | .written n => some (n, Str.asBytes c.jwt)
  | .moded n => some (n, Str.asBytes c.jwt)
  | _ => none

structure State where
  fs : Fs Name UInt8
  calls : Nat → Option Call
  writer : Nat → Option Nat
  seen : List (Option (List UInt8))

/-- A step of call `i`, or a read of the path.  `ok` says whether the system calls of the step succeed, `short` how
many bytes a failing write leaves. -/
inductive Move where
  | start (i : Nat) (newJwt : String)
  | check (i : Nat) (ok : Bool)
  | openTmp (i : Nat) (ok : Bool)
  | write (i : Nat) (short : Option Nat)
  | chmod (i : Nat) (ok : Bool)
  | rename (i : Nat) (ok : Bool)
  | remove (i : Nat) (ok : Bool)
  | read

/-- The text of a file, if it is text. -/
def readToString (bytes : List UInt8) : Option String := String.fromUTF8? ⟨bytes.toArray⟩

def State.setCall (s : State) (i : Nat) (c : Call) : State := { s with calls := Function.update s.calls i (some c) }

section Steps

variable (fromSlice : List UInt8 → Option Json.Value)

def step (s : State) : Move → Option State
  | .start i newJwt =>
    match s.calls i with
    | some _ => none
    | none =>
      let jwt := Str.trim newJwt
      match validateAndExtractSub fromSlice jwt with
      | .error e => some (s.setCall i ⟨jwt, .refused e⟩)
      | .ok newSub => some (s.setCall i ⟨jwt, .validated newSub⟩)
  | .check i ok =>
    match s.calls i with
    | some ⟨jwt, .validated newSub⟩ =>
      match newSub, currentHostSub fromSlice (readInstalled ok ((s.fs.read .path).bind readToString)) with
      | some newSub, some currentSub =>
        if currentSub ≠ newSub then some (s.setCall i ⟨jwt, .refused (.subMismatch newSub currentSub)⟩)
        else some (s.setCall i ⟨jwt, .passed⟩)
      | _, _ => some (s.setCall i ⟨jwt, .passed⟩)
    | _ => none
  | .openTmp i ok =>
    match s.calls i with
    | some ⟨jwt, .passed⟩ =>
      if ok then
        let (n, fs) := s.fs.openTruncate .tmp
        some { s.setCall i ⟨jwt, .opened n⟩ with fs := fs, writer := Function.update s.writer n (some i) }
      else some (s.setCall i ⟨jwt, .failing⟩)
    | _ => none
  | .write i short =>
    match s.calls i with
    | some ⟨jwt, .opened n⟩ =>
      let writer := Function.update s.writer n (some i)
      match short with
      | none => some { s.setCall i ⟨jwt, .written n⟩ with fs := s.fs.writeStart n (Str.asBytes jwt), writer := writer }
      | some k =>
        some { s.setCall i ⟨jwt, .failing⟩ with
          fs := s.fs.writeStart n ((Str.asBytes jwt).take k), writer := writer }
    | _ => none
  | .chmod i ok =>
    match s.calls i with
    | some ⟨jwt, .written n⟩ =>
      -- the mode is set by name, so the name has to be there
      if ok && (s.fs.dir .tmp).isSome then some (s.setCall i ⟨jwt, .moded n⟩)
      else some (s.setCall i ⟨jwt, .failing⟩)
    | _ => none
  | .rename i ok =>
    match s.calls i with
    | some ⟨jwt, .moded _⟩ =>
      match ok, s.fs.dir .tmp, s.fs.rename .tmp .path with
      | true, some m, some fs => some { s.setCall i ⟨jwt, .installed m⟩ with fs := fs }
      | _, _, _ => some (s.setCall i ⟨jwt, .failing⟩)
    | _ => none
  | .remove i ok =>
    match s.calls i with
    | some ⟨jwt, .failing⟩ =>
      some { s.setCall i ⟨jwt, .refused .io⟩ with fs := if ok then s.fs.unlink .tmp else s.fs }
    | _ => none
  | .read => some { s with seen := s.fs.read .path :: s.seen }

end Steps

/-- No call has started; `stray` is what an earlier process with the same id may have left of its temporary file. -/
def State.init (content stray : Option (List UInt8)) : State where
  fs :=
    { dir := fun
        | .path => content.map fun _ => 0
        | .tmp => stray.map fun _ => 1
      data := fun n => if n = 0 then content.getD [] else if n = 1 then stray.getD [] else []
      next := 2 }
  calls := fun _ => none
  writer := fun _ => none
  seen := []

/-- The initial content, or a token of a call that passed the validation, in full. -/
def Full (content : Option (List UInt8)) (s : State) (r : Option (List UInt8)) : Prop :=
  r = content ∨ ∃ i c, s.calls i = some c ∧ c.pc.pastCheck = true ∧ r = some (Str.asBytes c.jwt)

/-- The path holds the initial content or a whole token, so does all that its readers have found, and a call that has
returned `Ok` is the last writer of the file it installed. -/
def NotTorn (content : Option (List UInt8)) (s : State) : Prop :=
  Full content s (s.fs.read .path) ∧ (∀ r ∈ s.seen, Full content s r) ∧
    ∀ i c n, s.calls i = some c → c.pc = .installed n → s.writer n = some i

/-- A call opens the temporary file only while no other call has it open. -/
def OpensAlone (s : State) (a : Move) : Prop :=
  ∀ i ok, a = .openTmp i ok → ∀ j c, j ≠ i → s.calls j = some c → c.held = none

/-! ### The invariant of runs in which the file is opened by one call at a time -/

structure Inv (content : Option (List UInt8)) (s : State) : Prop where
  ok : s.fs.Ok
  path : Full content s (s.fs.read .path)
  seen : ∀ r ∈ s.seen, Full content s r
  one : ∀ i j c d, s.calls i = some c → s.calls j = some d → c.held ≠ none → d.held ≠ none → i = j
  held : ∀ i c n bytes, s.calls i = some c → c.held = some (n, bytes) →
    n < s.fs.next ∧ s.fs.dir .path ≠ some n ∧ (s.fs.dir .tmp = none ∨ s.fs.dir .tmp = some n) ∧
      s.writer n = some i ∧ s.fs.data n = bytes
  installed : ∀ i c n, s.calls i = some c → c.pc = .installed n →
    n < s.fs.next ∧ s.writer n = some i ∧ s.fs.dir .tmp ≠ some n ∧
      ∀ j d bytes, s.calls j = some d → d.held ≠ some (n, bytes)

theorem inv_init (content stray : Option (List UInt8)) : Inv content (State.init content stray) where
  ok := by
    constructor
    · intro p n hn
      cases p <;> simp [State.init] at hn <;> simp [State.init] <;> omega
    · intro p q n hp hq
      cases p <;> cases q <;> simp [State.init] at hp hq ⊢ <;> omega
  path := by
    refine Or.inl ?_
    cases content with
    | none => rfl
    | some bytes => rfl
  seen := by simp [State.init]
  one := by simp [State.init]
  held := by simp [State.init]
  installed := by simp [State.init]

section Update

variable {content : Option (List UInt8)} {s : State} {i : Nat} {c : Call}

/-- The call of `c` has not lost what `Full` needs of the call it replaces. -/
def Keeps (s : State) (i : Nat) (c : Call) : Prop :=
  ∀ d, s.calls i = some d → d.pc.pastCheck = true → c.pc.pastCheck = true ∧ c.jwt = d.jwt

private theorem Full.setCall {r : Option (List UInt8)} {s' : State} (h : Full content s r)
    (hcalls : s'.calls = Function.update s.calls i (some c)) (hk : Keeps s i c) : Full content s' r := by
  rcases h with h | ⟨j, d, hj, hpast, hr⟩
  · exact Or.inl h
  · refine Or.inr ?_
    by_cases hji : j = i
    · subst hji
      obtain ⟨hc, hjwt⟩ := hk d hj hpast
      exact ⟨j, c, by rw [hcalls, Function.update_self], hc, by rw [hjwt]; exact hr⟩
    · exact ⟨j, d, by rw [hcalls, Function.update_of_ne hji]; exact hj, hpast, hr⟩

/-- The calls after an update at `i`. -/
private theorem calls_update {s' : State} {j : Nat} {d : Call}
    (hcalls : s'.calls = Function.update s.calls i (some c)) (h : s'.calls j = some d) :
    (j = i ∧ d = c) ∨ (j ≠ i ∧ s.calls j = some d) := by
  rw [hcalls] at h
  by_cases hji : j = i
  · rw [hji, Function.update_self, Option.some.injEq] at h
    exact Or.inl ⟨hji, h.symm⟩
  · rw [Function.update_of_ne hji] at h
    exact Or.inr ⟨hji, h⟩

/-- A step of call `i` after which it holds no file and has installed none.  It may have changed the file it held, and
the temporary name may be gone. -/
private theorem Inv.release (h : Inv content s) {s' : State}
    (hcalls : s'.calls = Function.update s.calls i (some c)) (hk : Keeps s i c) (hheld : c.held = none)
    (hinst : ∀ n, c.pc ≠ .installed n) (hok : s'.fs.Ok) (hnext : s'.fs.next = s.fs.next)
    (hpath : s'.fs.dir .path = s.fs.dir .path)
    (htmp : s'.fs.dir .tmp = s.fs.dir .tmp ∨ s'.fs.dir .tmp = none) (hseen : s'.seen = s.seen)
    (hown : ∀ n, s'.fs.data n = s.fs.data n ∧ s'.writer n = s.writer n ∨
      ∃ d bytes, s.calls i = some d ∧ d.held = some (n, bytes)) : Inv content s' := by
  have hread : s'.fs.read .path = s.fs.read .path := by
    refine Fs.read_congr hpath fun n hn => ?_
    rcases hown n with ⟨hd, -⟩ | ⟨d, bytes, hi, hd⟩
    · exact hd
    · exact absurd hn (h.held i d n bytes hi hd).2.1
  refine ⟨hok, ?_, ?_, ?_, ?_, ?_⟩
  · rw [hread]
    exact h.path.setCall hcalls hk
  · intro r hr
    rw [hseen] at hr
    exact (h.seen r hr).setCall hcalls hk
  · intro a b d e ha hb hd he
    rcases calls_update hcalls ha with ⟨-, rfl⟩ | ⟨-, ha'⟩
    · exact absurd hheld hd
    · rcases calls_update hcalls hb with ⟨-, rfl⟩ | ⟨-, hb'⟩
      · exact absurd hheld he
      · exact h.one a b d e ha' hb' hd he
  · intro j d n bytes hj hd
    rcases calls_update hcalls hj with ⟨-, rfl⟩ | ⟨hji, hj'⟩
    · rw [hheld] at hd
      cases hd
    · obtain ⟨hlt, hp, ht, hw, hdata⟩ := h.held j d n bytes hj' hd
      rcases hown n with ⟨hdn, hwn⟩ | ⟨e, bs, hi, he⟩
      · refine ⟨hnext ▸ hlt, hpath ▸ hp, ?_, hwn ▸ hw, hdn ▸ hdata⟩
        rcases htmp with htmp | htmp
        · exact htmp ▸ ht
        · exact Or.inl htmp
      · -- only one call holds a file
        exact absurd (h.one j i d e hj' hi (by simp [hd]) (by simp [he])) hji
  · intro j d n hj hd
    rcases calls_update hcalls hj with ⟨-, rfl⟩ | ⟨hji, hj'⟩
    · exact absurd hd (hinst n)
    · obtain ⟨hlt, hw, ht, hno⟩ := h.installed j d n hj' hd
      rcases hown n with ⟨-, hwn⟩ | ⟨e, bs, hi, he⟩
      · refine ⟨hnext ▸ hlt, hwn ▸ hw, ?_, ?_⟩
        · rcases htmp with htmp | htmp
          · exact htmp ▸ ht
          · simp [htmp]
        · intro k e bytes hk'
          rcases calls_update hcalls hk' with ⟨-, rfl⟩ | ⟨-, hk''⟩
          · simp [hheld]
          · exact hno k e bytes hk''
      · exact absurd he (hno i e bs hi)

/-- A step after which call `i` holds file `n`, as the only call that holds one. -/
private theorem Inv.hold (h : Inv content s) {s' : State} {n : Nat} {bytes : List UInt8}
    (hcalls : s'.calls = Function.update s.calls i (some c)) (hk : Keeps s i c) (hheld : c.held = some (n, bytes))
    (hinst : ∀ m, c.pc ≠ .installed m) (halone : ∀ j d, j ≠ i → s.calls j = some d → d.held = none)
    (hfree : ∀ j d, j ≠ i → s.calls j = some d → d.pc ≠ .installed n) (hok : s'.fs.Ok)
    (hnext : s.fs.next ≤ s'.fs.next) (hlt : n < s'.fs.next) (hpath : s'.fs.dir .path = s.fs.dir .path)
    (hn : s.fs.dir .path ≠ some n) (htmp : s'.fs.dir .tmp = none ∨ s'.fs.dir .tmp = some n)
    (hseen : s'.seen = s.seen) (hw : s'.writer n = some i) (hdata : s'.fs.data n = bytes)
    (hother : ∀ m, m ≠ n → s'.fs.data m = s.fs.data m ∧ s'.writer m = s.writer m) : Inv content s' := by
  have hread : s'.fs.read .path = s.fs.read .path := by
    refine Fs.read_congr hpath fun m hm => (hother m ?_).1
    rintro rfl
    exact hn hm
  refine ⟨hok, ?_, ?_, ?_, ?_, ?_⟩
  · rw [hread]
    exact h.path.setCall hcalls hk
  · intro r hr
    rw [hseen] at hr
    exact (h.seen r hr).setCall hcalls hk
  · intro a b d e ha hb hd he
    rcases calls_update hcalls ha with ⟨rfl, -⟩ | ⟨hai, ha'⟩
    · rcases calls_update hcalls hb with ⟨rfl, -⟩ | ⟨hbi, hb'⟩
      · rfl
      · exact absurd (halone b e hbi hb') he
    · exact absurd (halone a d hai ha') hd
  · intro j d m bs hj hd
    rcases calls_update hcalls hj with ⟨rfl, rfl⟩ | ⟨hji, hj'⟩
    · rw [hheld] at hd
      cases hd
      exact ⟨hlt, hpath ▸ hn, htmp, hw, hdata⟩
    · rw [halone j d hji hj'] at hd
      cases hd
  · intro j d m hj hd
    rcases calls_update hcalls hj with ⟨-, rfl⟩ | ⟨hji, hj'⟩
    · exact absurd hd (hinst m)
    · obtain ⟨hm, hwm, ht, -⟩ := h.installed j d m hj' hd
      have hmn : m ≠ n := by
        rintro rfl
        exact hfree j d hji hj' hd
      refine ⟨Nat.lt_of_lt_of_le hm hnext, (hother m hmn).2 ▸ hwm, ?_, ?_⟩
      · rcases htmp with htmp | htmp
        · simp [htmp]
        · simpa [htmp] using fun hnm => hmn hnm.symm
      · intro k e bs hk'
        rcases calls_update hcalls hk' with ⟨-, rfl⟩ | ⟨hki, hk''⟩
        · rw [hheld]
          rintro ⟨⟩
          exact hmn rfl
        · rw [halone k e hki hk'']
          rintro ⟨⟩

/-- What the call that holds a file knows of the others. -/
private theorem Inv.alone (h : Inv content s) {n : Nat} {bytes : List UInt8} (hi : s.calls i = some c)
    (hheld : c.held = some (n, bytes)) :
    (∀ j d, j ≠ i → s.calls j = some d → d.held = none) ∧
      ∀ j d, j ≠ i → s.calls j = some d → d.pc ≠ .installed n := by
  constructor
  · intro j d hji hj
    by_contra hd
    exact hji (h.one j i d c hj hi hd (by simp [hheld]))
  · intro j d _ hj hd
    exact (h.installed j d n hj hd).2.2.2 i c bytes hi hheld

/-- The temporary file is opened while no call has it open. -/
private theorem Inv.openTmp (h : Inv content s) {jwt : String} (hi : s.calls i = some ⟨jwt, .passed⟩)
    (halone : ∀ j d, j ≠ i → s.calls j = some d → d.held = none) :
    Inv content
      { s.setCall i ⟨jwt, .opened (s.fs.openTruncate .tmp).1⟩ with
        fs := (s.fs.openTruncate .tmp).2
        writer := Function.update s.writer (s.fs.openTruncate .tmp).1 (some i) } := by
  obtain ⟨hcase, htmp, hother, hdata, hdata'⟩ := s.fs.openTruncate_spec .tmp
  have hpath : (s.fs.openTruncate .tmp).2.dir .path = s.fs.dir .path := hother .path (by decide)
  -- the file is the one of the temporary name or a new one
  have hn : s.fs.dir .path ≠ some (s.fs.openTruncate .tmp).1 := by
    intro hp
    rcases hcase with ⟨hold, -⟩ | ⟨-, hnew, -⟩
    · exact absurd (h.ok.inj .path .tmp _ hp hold) (by decide)
    · have := h.ok.made .path _ hp
      omega
  refine h.hold rfl ?_ rfl (by simp) halone ?_ (h.ok.openTruncate .tmp) ?_ ?_ hpath hn
    (Or.inr htmp) rfl (by simp) hdata fun m hm => ⟨hdata' m hm, by simp [hm]⟩
  · intro d hd _
    rw [hi] at hd
    cases hd
    exact ⟨rfl, rfl⟩
  · intro j d _ hj hd
    obtain ⟨hlt, -, ht, -⟩ := h.installed j d _ hj hd
    rcases hcase with ⟨hold, -⟩ | ⟨-, hnew, -⟩
    · exact ht hold
    · omega
  · rcases hcase with ⟨-, he⟩ | ⟨-, -, he⟩ <;> simp [he]
  · exact (h.ok.openTruncate .tmp).made .tmp _ htmp

/-- The file held by a call becomes the file of the path. -/
private theorem Inv.rename (h : Inv content s) {jwt : String} {n m : Nat} {fs : Fs Name UInt8}
    (hi : s.calls i = some ⟨jwt, .moded n⟩) (hm : s.fs.dir .tmp = some m)
    (hr : s.fs.rename .tmp .path = some fs) :
    Inv content { s.setCall i ⟨jwt, .installed m⟩ with fs := fs } := by
  obtain ⟨hlt, hp, htmp, hw, hdata⟩ := h.held i _ n _ hi rfl
  obtain ⟨halone, hfree⟩ := h.alone hi rfl
  -- the temporary name still refers to the file of the call
  obtain rfl : n = m := by
    rcases htmp with htmp | htmp <;> rw [hm] at htmp <;> cases htmp
    rfl
  obtain ⟨k, hk, htmp', hpath', -, hdata', hnext⟩ := Fs.rename_spec (by decide) hr
  obtain rfl : n = k := Option.some.inj (hm.symm.trans hk)
  have hkeeps : Keeps s i ⟨jwt, .installed n⟩ := by
    intro d hd _
    rw [hi] at hd
    cases hd
    exact ⟨rfl, rfl⟩
  have hcalls : (State.setCall s i ⟨jwt, .installed n⟩).calls = Function.update s.calls i (some ⟨jwt, .installed n⟩) :=
    rfl
  refine ⟨h.ok.rename (by decide) hr, ?_, ?_, ?_, ?_, ?_⟩
  · refine Or.inr ⟨i, ⟨jwt, .installed n⟩, by simp [State.setCall], rfl, ?_⟩
    simp [Fs.read, hpath', hdata', hdata]
  · exact fun r hr => (h.seen r hr).setCall rfl hkeeps
  · intro a b d e ha hb hd he
    rcases calls_update hcalls ha with ⟨-, rfl⟩ | ⟨hai, ha'⟩
    · exact absurd rfl hd
    · exact absurd (halone a d hai ha') hd
  · intro j d k bs hj hd
    rcases calls_update hcalls hj with ⟨-, rfl⟩ | ⟨hji, hj'⟩
    · cases hd
    · rw [halone j d hji hj'] at hd
      cases hd
  · intro j d k hj hd
    have hnot : ∀ l e bs, (State.setCall s i ⟨jwt, .installed n⟩).calls l = some e → e.held ≠ some (k, bs) := by
      intro l e bs hl
      rcases calls_update hcalls hl with ⟨-, rfl⟩ | ⟨hli, hl'⟩
      · rintro ⟨⟩
      · rw [halone l e hli hl']
        rintro ⟨⟩
    rcases calls_update hcalls hj with ⟨rfl, rfl⟩ | ⟨hji, hj'⟩
    · cases hd
      exact ⟨hnext ▸ hlt, hw, by simp [htmp'], hnot⟩
    · obtain ⟨hk, hwk, -, -⟩ := h.installed j d k hj' hd
      exact ⟨hnext ▸ hk, hwk, by simp [htmp'], hnot⟩

/-- A step after which call `i` holds no file and that leaves the files as they are. -/
private theorem Inv.leave (h : Inv content s) (hk : Keeps s i c) (hheld : c.held = none)
    (hinst : ∀ n, c.pc ≠ .installed n) : Inv content (s.setCall i c) :=
  h.release rfl hk hheld hinst h.ok rfl rfl (Or.inl rfl) rfl fun _ => Or.inl ⟨rfl, rfl⟩

/-- The call is replaced by one that has come as far, with the same token. -/
private theorem keeps_of_eq {pc pc' : Pc} {jwt : String} (hi : s.calls i = some ⟨jwt, pc⟩)
    (hpast : pc.pastCheck = true → pc'.pastCheck = true) : Keeps s i ⟨jwt, pc'⟩ := by
  intro d hd hd'
  rw [hi] at hd
  cases hd
  exact ⟨hpast hd', rfl⟩

end Update

section Runs

variable {fromSlice : List UInt8 → Option Json.Value} {content : Option (List UInt8)}

private theorem inv_write {s s' : State} {i : Nat} {short : Option Nat} (h : Inv content s)
    (hs : step fromSlice s (.write i short) = some s') : Inv content s' := by
  simp only [step] at hs
  split at hs
  next jwt n hi =>
    obtain ⟨hlt, hp, htmp, hw, hdata⟩ := h.held i _ n _ hi rfl
    obtain ⟨halone, hfree⟩ := h.alone hi rfl
    cases short with
    | none =>
      simp only [Option.some.injEq] at hs
      subst hs
      refine h.hold rfl (keeps_of_eq hi fun _ => rfl) rfl (by simp) halone hfree ⟨h.ok.made, h.ok.inj⟩ le_rfl hlt rfl hp
        htmp rfl (by simp) (Fs.data_writeStart_of_nil _ hdata) fun m hm => ?_
      exact ⟨Fs.data_writeStart_of_ne _ hm, by simp [hm]⟩
    | some k =>
      simp only [Option.some.injEq] at hs
      subst hs
      refine h.release rfl (keeps_of_eq hi fun _ => rfl) rfl (by simp) ⟨h.ok.made, h.ok.inj⟩ rfl rfl (Or.inl rfl) rfl ?_
      intro m
      by_cases hm : m = n
      · subst hm
        exact Or.inr ⟨_, _, hi, rfl⟩
      · exact Or.inl ⟨Fs.data_writeStart_of_ne _ hm, by simp [hm]⟩
  next => cases hs

/-- A step that opens the temporary file only while no call has it open keeps the invariant. -/
theorem inv_step {s s' : State} {a : Move} (h : Inv content s) (hp : OpensAlone s a)
    (hs : step fromSlice s a = some s') : Inv content s' := by
  cases a with
  | start i newJwt =>
    simp only [step] at hs
    split at hs
    next => cases hs
    next hi =>
      have hk : ∀ c, Keeps s i c := fun c d hd => by rw [hi] at hd; cases hd
      split at hs <;> cases hs
      · exact h.leave (hk _) rfl (by simp)
      · exact h.leave (hk _) rfl (by simp)
  | check i ok =>
    simp only [step] at hs
    split at hs
    next jwt newSub hi =>
      have hk : ∀ pc, Keeps s i ⟨jwt, pc⟩ := fun pc => keeps_of_eq hi fun hf => Bool.noConfusion hf
      split at hs
      · split at hs <;> cases hs
        · exact h.leave (hk _) rfl (by simp)
        · exact h.leave (hk _) rfl (by simp)
      · cases hs
        exact h.leave (hk _) rfl (by simp)
    next => cases hs
  | openTmp i ok =>
    simp only [step] at hs
    split at hs
    next jwt hi =>
      split at hs <;> cases hs
      · exact h.openTmp hi (hp i ok rfl)
      · exact h.leave (keeps_of_eq hi fun _ => rfl) rfl (by simp)
    next => cases hs
  | write i short => exact inv_write h hs
  | chmod i ok =>
    simp only [step] at hs
    split at hs
    next jwt n hi =>
      obtain ⟨hlt, hpn, htmp, hw, hdata⟩ := h.held i _ n _ hi rfl
      obtain ⟨halone, hfree⟩ := h.alone hi rfl
      split at hs <;> cases hs
      · exact h.hold rfl (keeps_of_eq hi fun _ => rfl) rfl (by simp) halone hfree h.ok le_rfl hlt rfl hpn htmp rfl hw
          hdata fun m _ => ⟨rfl, rfl⟩
      · exact h.leave (keeps_of_eq hi fun _ => rfl) rfl (by simp)
    next => cases hs
  | rename i ok =>
    simp only [step] at hs
    split at hs
    next jwt n hi =>
      split at hs <;> cases hs
      next hm hr => exact h.rename hi hm hr
      next => exact h.leave (keeps_of_eq hi fun _ => rfl) rfl (by simp)
    next => cases hs
  | remove i ok =>
    simp only [step] at hs
    split at hs
    next jwt hi =>
      cases hs
      have hk : Keeps s i ⟨jwt, .refused .io⟩ := keeps_of_eq hi fun _ => rfl
      cases ok with
      | true =>
        exact h.release rfl hk rfl (by simp) (h.ok.unlink .tmp) rfl (by simp [Fs.unlink]) (Or.inr (by simp [Fs.unlink]))
          rfl fun _ => Or.inl ⟨rfl, rfl⟩
      | false => exact h.leave hk rfl (by simp)
    next => cases hs
  | read =>
    cases hs
    refine ⟨h.ok, h.path, ?_, h.one, h.held, h.installed⟩
    rintro r (_ | ⟨_, hr⟩)
    · exact h.path
    · exact h.seen r hr

/-- In every run in which a call opens the temporary file only while no other call has it open, the path always holds
the initial content or the whole token of a validated call, and so do its readers find; and a call that has returned
`Ok` is the last writer of what it installed. -/
theorem host_jwt_not_torn (content stray : Option (List UInt8)) (moves : List Move)
    (h : Lts.Along (step fromSlice) OpensAlone (State.init content stray) moves) :
    Lts.Always (step fromSlice) (NotTorn content) (State.init content stray) moves := by
  refine Lts.always_of_along (fun s a s' => inv_step) ?_ (inv_init content stray) h
  intro s hs
  exact ⟨hs.path, hs.seen, fun i c n hi hc => (hs.installed i c n hi hc).2.1⟩

end Runs

/-! ### Two calls that share the temporary file -/

/-- The second call opens the temporary file of the first, and writes after the first has renamed it. -/
def overlapping : List Move :=
  [.start 0 hostToken, .check 0 true, .start 1 "a.b.c", .check 1 true, .openTmp 0 true, .openTmp 1 true, .write 0 none,
    .chmod 0 true, .rename 0 true, .write 1 none]

/-- The path holds the short token with the rest of the long one behind it. -/
theorem host_jwt_torn :
    ¬ Lts.Always (step sampleFromSlice) (NotTorn none) (State.init none none) overlapping := by
  intro h
  have hend : (Lts.run (step sampleFromSlice) (State.init none none) overlapping).map
      (fun s => (s.fs.read .path, s.calls 0, s.calls 1)) =
        some (some (Str.asBytes "a.b.cyJzdWIiOiJoIn0.c2ln"), some ⟨hostToken, .installed 2⟩,
          some ⟨"a.b.c", .written 2⟩) := by
    decide
  have hrest : ∀ n, (Lts.run (step sampleFromSlice) (State.init none none) overlapping).map
      (fun s => s.calls (n + 2)) = some none := fun n => rfl
  obtain ⟨s, hs, heq⟩ := Option.map_eq_some_iff.1 hend
  simp only [Prod.mk.injEq] at heq
  obtain ⟨hread, h0, h1⟩ := heq
  rcases (h.last hs).1 with hr | ⟨i, c, hi, -, hr⟩
  · rw [hread] at hr
    cases hr
  · rw [hread, Option.some.injEq] at hr
    -- neither call was given this token, and there is no other call
    match i, hi with
    | 0, hi =>
      rw [h0] at hi
      cases hi
      exact absurd hr (by decide)
    | 1, hi =>
      rw [h1] at hi
      cases hi
      exact absurd hr (by decide)
    | n + 2, hi =>
      have := hrest n
      rw [hs, Option.map_some, hi] at this
      cases this

/-- A call alone. -/
def aloneMoves : List Move :=
  [.start 0 hostToken, .check 0 true, .openTmp 0 true, .write 0 none, .chmod 0 true, .rename 0 true, .read]

/-- A call alone installs its token, and a reader finds it. -/
theorem host_jwt_not_torn_alone :
    Lts.Always (step sampleFromSlice) (NotTorn none) (State.init none none) aloneMoves ∧
      (Lts.run (step sampleFromSlice) (State.init none none) aloneMoves).map (fun s => (s.seen, s.calls 0)) =
        some ([some (Str.asBytes hostToken)], some ⟨hostToken, .installed 2⟩) := by
  refine ⟨host_jwt_not_torn none none _ ?_, by decide⟩
  refine (Lts.along_cons rfl).2 ⟨by rintro _ _ ⟨⟩, (Lts.along_cons rfl).2 ⟨by rintro _ _ ⟨⟩, ?_⟩⟩
  refine (Lts.along_cons rfl).2 ⟨?_, ?_⟩
  · rintro i ok ⟨⟩ j c hj hc
    cases j with
    | zero => exact absurd rfl hj
    | succ n => cases hc
  · refine (Lts.along_cons rfl).2 ⟨by rintro _ _ ⟨⟩, (Lts.along_cons rfl).2 ⟨by rintro _ _ ⟨⟩, ?_⟩⟩
    exact (Lts.along_cons rfl).2 ⟨by rintro _ _ ⟨⟩, (Lts.along_cons rfl).2 ⟨by rintro _ _ ⟨⟩, trivial⟩⟩

end Coold.Agent.HostJwtRuns
