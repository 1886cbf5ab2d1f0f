import Mathlib.Logic.Function.Basic

/-!
# Files, names and handles

A name of the file system refers to a file, and a file lives on while a handle to it is open, whatever becomes of its
name: `openTruncate` empties the file a name refers to, or makes a new one, and gives the handle; `writeStart` writes
from the start of the file of a handle and leaves what lies beyond; `rename` and `unlink` change names only.

`Ok` says that no two names share a file and that files not yet made are in no directory entry.
-/

/-- What becomes of a write of a whole file: it is done, the file cannot be opened, or it is emptied and then holds what
was written before the failure. -/
inductive WriteReply (β : Type*) where
  | written
  | unopened
  | cut (left : β)

/-- The files by number, with the file each name refers to. -/
structure Fs (Name β : Type*) where
  dir : Name → Option Nat
  data : Nat → List β
  next : Nat

namespace Fs

variable {Name β : Type*} [DecidableEq Name]

/-- What a reader of a name finds. -/
def read (fs : Fs Name β) (p : Name) : Option (List β) := (fs.dir p).map fs.data

/-- Open for writing with the flags to create and to truncate: the handle and the file system after it. -/
def openTruncate (fs : Fs Name β) (p : Name) : Nat × Fs Name β :=
  match fs.dir p with
  | some n => (n, { fs with data := Function.update fs.data n [] })
  | none => (fs.next,
      { dir := Function.update fs.dir p (some fs.next), data := Function.update fs.data fs.next [],
        next := fs.next + 1 })

/-- Write from the start of the file of a handle. -/
def writeStart (fs : Fs Name β) (n : Nat) (bytes : List β) : Fs Name β :=
  { fs with data := Function.update fs.data n (bytes ++ (fs.data n).drop bytes.length) }

/-- Move the file of `p` to `q`; there has to be one. -/
def rename (fs : Fs Name β) (p q : Name) : Option (Fs Name β) :=
  (fs.dir p).map fun n => { fs with dir := Function.update (Function.update fs.dir p none) q (some n) }

def unlink (fs : Fs Name β) (p : Name) : Fs Name β := { fs with dir := Function.update fs.dir p none }

/-- Every name refers to a file that was made, and no two names to the same one. -/
structure Ok (fs : Fs Name β) : Prop where
  made : ∀ p n, fs.dir p = some n → n < fs.next
  inj : ∀ p q n, fs.dir p = some n → fs.dir q = some n → p = q

omit [DecidableEq Name] in
theorem read_congr {fs fs' : Fs Name β} {p : Name} (hd : fs'.dir p = fs.dir p)
    (h : ∀ n, fs.dir p = some n → fs'.data n = fs.data n) : fs'.read p = fs.read p := by
  unfold read
  rw [hd]
  cases hp : fs.dir p with
  | none => rfl
  | some n => rw [Option.map_some, Option.map_some, h n hp]

/-- What `openTruncate` does: the handle is the file of the name or a new one, it is empty, and all else is as before. -/
theorem openTruncate_spec (fs : Fs Name β) (p : Name) :
    ((fs.dir p = some (fs.openTruncate p).1 ∧ (fs.openTruncate p).2.next = fs.next) ∨
        (fs.dir p = none ∧ (fs.openTruncate p).1 = fs.next ∧ (fs.openTruncate p).2.next = fs.next + 1)) ∧
      (fs.openTruncate p).2.dir p = some (fs.openTruncate p).1 ∧
      (∀ q, q ≠ p → (fs.openTruncate p).2.dir q = fs.dir q) ∧
      (fs.openTruncate p).2.data (fs.openTruncate p).1 = [] ∧
      ∀ n, n ≠ (fs.openTruncate p).1 → (fs.openTruncate p).2.data n = fs.data n := by
  unfold openTruncate
  cases h : fs.dir p with
  | some n => refine ⟨Or.inl ⟨rfl, rfl⟩, h, fun _ _ => rfl, by simp, fun m hm => by simp [hm]⟩
  | none => refine ⟨Or.inr ⟨rfl, rfl, rfl⟩, by simp, fun q hq => by simp [hq], by simp, fun m hm => by simp [hm]⟩

omit [DecidableEq Name] in
@[simp] theorem dir_writeStart (fs : Fs Name β) (n : Nat) (bytes : List β) : (fs.writeStart n bytes).dir = fs.dir := rfl

omit [DecidableEq Name] in
/-- A write to an empty file leaves exactly the bytes written. -/
theorem data_writeStart_of_nil {fs : Fs Name β} {n : Nat} (bytes : List β) (h : fs.data n = []) :
    (fs.writeStart n bytes).data n = bytes := by
  simp [writeStart, h]

omit [DecidableEq Name] in
theorem data_writeStart_of_ne {fs : Fs Name β} {n m : Nat} (bytes : List β) (h : m ≠ n) :
    (fs.writeStart n bytes).data m = fs.data m := by
  simp [writeStart, h]

/-- What a successful `rename` does. -/
theorem rename_spec {fs fs' : Fs Name β} {p q : Name} (hpq : p ≠ q) (h : fs.rename p q = some fs') :
    ∃ n, fs.dir p = some n ∧ fs'.dir p = none ∧ fs'.dir q = some n ∧
      (∀ r, r ≠ p → r ≠ q → fs'.dir r = fs.dir r) ∧ fs'.data = fs.data ∧ fs'.next = fs.next := by
  obtain ⟨n, hn, rfl⟩ := Option.map_eq_some_iff.1 h
  exact ⟨n, hn, by simp [hpq], by simp, fun r hp hq => by simp [hp, hq], rfl, rfl⟩

theorem Ok.openTruncate {fs : Fs Name β} (h : fs.Ok) (p : Name) : (fs.openTruncate p).2.Ok := by
  obtain ⟨hcase, hp, hother, -, -⟩ := fs.openTruncate_spec p
  have hnext : fs.next ≤ (fs.openTruncate p).2.next := by omega
  -- a file of another name is not the one the handle is for
  have hne : ∀ q n, q ≠ p → fs.dir q = some n → n ≠ (fs.openTruncate p).1 := by
    rintro q n hq hn rfl
    rcases hcase with ⟨hold, -⟩ | ⟨-, hnew, -⟩
    · exact hq (h.inj q p _ hn hold)
    · exact absurd (h.made q _ hn) (by omega)
  constructor
  · intro q n hn
    by_cases hq : q = p
    · rw [hq, hp] at hn
      cases hn
      rcases hcase with ⟨hold, heq⟩ | ⟨-, hnew, heq⟩
      · exact heq ▸ h.made p _ hold
      · omega
    · rw [hother q hq] at hn
      exact Nat.lt_of_lt_of_le (h.made q n hn) hnext
  · intro q r n hq hr
    by_cases hqp : q = p
    · by_cases hrp : r = p
      · rw [hqp, hrp]
      · rw [hqp, hp] at hq
        rw [hother r hrp] at hr
        exact absurd (Option.some.inj hq).symm (hne r n hrp hr)
    · rw [hother q hqp] at hq
      by_cases hrp : r = p
      · rw [hrp, hp] at hr
        exact absurd (Option.some.inj hr).symm (hne q n hqp hq)
      · rw [hother r hrp] at hr
        exact h.inj q r n hq hr

omit [DecidableEq Name] in
/-- A change that only drops names, or moves one, keeps the names apart. -/
theorem Ok.of_dir {fs fs' : Fs Name β} (h : fs.Ok) (hnext : fs'.next = fs.next) (f : Name → Name)
    (hf : ∀ p n, fs'.dir p = some n → fs.dir (f p) = some n)
    (hinj : ∀ p q, fs'.dir p ≠ none → fs'.dir q ≠ none → f p = f q → p = q) : fs'.Ok where
  made p n hn := hnext ▸ h.made (f p) n (hf p n hn)
  inj p q n hp hq := hinj p q (by simp [hp]) (by simp [hq]) (h.inj (f p) (f q) n (hf p n hp) (hf q n hq))

theorem Ok.unlink {fs : Fs Name β} (h : fs.Ok) (p : Name) : (fs.unlink p).Ok := by
  refine h.of_dir rfl id ?_ fun _ _ _ _ => id
  intro q n hn
  by_cases hq : q = p
  · simp [Fs.unlink, hq] at hn
  · simpa [Fs.unlink, hq] using hn

theorem Ok.rename {fs fs' : Fs Name β} (h : fs.Ok) {p q : Name} (hpq : p ≠ q) (hr : fs.rename p q = some fs') :
    fs'.Ok := by
  obtain ⟨n, hn, hp, hq, hother, -, hnext⟩ := rename_spec hpq hr
  refine h.of_dir hnext (fun r => if r = q then p else r) ?_ ?_
  · intro r m hm
    by_cases h1 : r = q
    · rw [h1, hq] at hm
      simpa [h1, hn] using hm
    · have h2 : r ≠ p := fun h2 => by rw [h2, hp] at hm; cases hm
      simpa [h1, hother r h2 h1] using hm
  · intro r t hr' ht' heq
    have hrp : r ≠ p := fun h2 => hr' (h2 ▸ hp)
    have htp : t ≠ p := fun h2 => ht' (h2 ▸ hp)
    by_cases h1 : r = q <;> by_cases h2 : t = q
    · rw [h1, h2]
    · simp only [h1, h2, if_true, if_false] at heq
      exact absurd heq.symm htp
    · simp only [h1, h2, if_true, if_false] at heq
      exact absurd heq hrp
    · simpa [h1, h2] using heq

end Fs
