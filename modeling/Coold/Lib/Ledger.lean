import Mathlib.Data.List.Basic

/-!
# Observations and their writes

Several tasks keep a store up to date: a task observes a value, holds it for a while and writes it.  A `Ledger` records
the observations in the order in which they were made and the newest of those that were written, so that "the store
shows the newest observation written" is a property of the ledger and the store (`Shows`).

`Ok` says where the last observation is: in the hands of a task, or written.  It is kept by every step of a task
(`Ok.spawn`, `Ok.move`, `Ok.observe`, `Ok.write`), and once no task holds anything the last observation made is the
newest written (`Ok.written_of_last`).
-/

/-- A value with the number of its observation. -/
structure Observed (α : Type*) where
  number : Nat
  value : α

/-- The observations made so far, and the newest of those that were written. -/
structure Ledger (α : Type*) where
  made : List α
  written : Option (Observed α)

namespace Ledger

variable {α β τ : Type*}

def empty : Ledger α := ⟨[], none⟩

/-- The next observation. -/
def next (l : Ledger α) (v : α) : Observed α := ⟨l.made.length, v⟩

def observe (l : Ledger α) (v : α) : Ledger α := { l with made := l.made ++ [v] }

/-- Nothing that was observed later has been written. -/
def Newest (l : Ledger α) (o : Observed α) : Prop := ∀ w ∈ l.written, w.number ≤ o.number

instance (l : Ledger α) (o : Observed α) : Decidable (l.Newest o) :=
  inferInstanceAs (Decidable (∀ w ∈ l.written, w.number ≤ o.number))

def write (l : Ledger α) (o : Observed α) : Ledger α := if l.Newest o then { l with written := some o } else l

/-- The store is as the newest observation written makes it, if there is one. -/
def Shows (l : Ledger α) (view : α → β) (store : β) : Prop := ∀ w ∈ l.written, store = view w.value

/-- Every observation that was written or is held by a task is in the record, and the last one is written or held. -/
structure Ok (l : Ledger α) (held : τ → Option (Observed α)) (tasks : List τ) : Prop where
  written : ∀ w ∈ l.written, l.made[w.number]? = some w.value
  inHand : ∀ t ∈ tasks, ∀ o, held t = some o → l.made[o.number]? = some o.value
  last : l.made ≠ [] → ∃ o : Observed α, o.number + 1 = l.made.length ∧
    (l.written = some o ∨ ∃ t ∈ tasks, held t = some o)

/-- A write leaves the store as the newest observation written makes it exactly when it is the newest one and the store
shows it, or the store does not change. -/
theorem shows_write_iff {l : Ledger α} {o : Observed α} {view : α → β} {store store' : β} (h : l.Shows view store) :
    (l.write o).Shows view store' ↔ if l.Newest o then store' = view o.value else store' = store := by
  unfold Shows write
  split
  · constructor
    · exact fun hs => hs o rfl
    · intro hs w hw
      rw [hs, Option.some.inj hw]
  · rename_i hnew
    cases hw : l.written with
    | none => exact absurd (fun w hw' => by rw [hw] at hw'; cases hw') hnew
    | some w =>
      constructor
      · exact fun hs => (hs w rfl).trans (h w hw).symm
      · intro hs w' hw'
        rw [hs, ← Option.some.inj hw', h w hw]

section Ok

variable {l : Ledger α} {held : τ → Option (Observed α)} {tasks : List τ}

theorem ok_empty : (empty : Ledger α).Ok held ([] : List τ) where
  written w hw := by cases hw
  inHand t ht := absurd ht List.not_mem_nil
  last h := absurd rfl h

/-- A task that is not the one replaced stays. -/
private theorem mem_set_or_eq {i : Nat} {t t' p : τ} (ht : tasks[i]? = some t) (hp : p ∈ tasks) :
    p ∈ tasks.set i t' ∨ p = t := by
  obtain ⟨j, hj⟩ := List.mem_iff_getElem?.1 hp
  by_cases hij : i = j
  · subst hij
    exact Or.inr (Option.some.inj (hj.symm.trans ht))
  · exact Or.inl (List.mem_iff_getElem?.2 ⟨j, by rw [List.getElem?_set_ne hij, hj]⟩)

private theorem mem_set_self {i : Nat} {t t' : τ} (ht : tasks[i]? = some t) : t' ∈ tasks.set i t' := by
  obtain ⟨hi, -⟩ := List.getElem?_eq_some_iff.1 ht
  exact List.mem_set hi t'

theorem Ok.spawn {t : τ} (h : l.Ok held tasks) (ht : held t = none) : l.Ok held (tasks ++ [t]) where
  written := h.written
  inHand t' ht' o ho := by
    rcases List.mem_append.1 ht' with ht' | ht'
    · exact h.inHand t' ht' o ho
    · rw [List.mem_singleton.1 ht', ht] at ho
      cases ho
  last hne := by
    obtain ⟨o, hn, hw | ⟨t', ht', ho⟩⟩ := h.last hne
    · exact ⟨o, hn, Or.inl hw⟩
    · exact ⟨o, hn, Or.inr ⟨t', List.mem_append_left _ ht', ho⟩⟩

/-- A step that does not change what the task holds. -/
theorem Ok.move {i : Nat} {t t' : τ} (h : l.Ok held tasks) (ht : tasks[i]? = some t) (hheld : held t' = held t) :
    l.Ok held (tasks.set i t') where
  written := h.written
  inHand p hp o ho := by
    rcases List.mem_or_eq_of_mem_set hp with hp | rfl
    · exact h.inHand p hp o ho
    · exact h.inHand t (List.mem_of_getElem? ht) o (hheld ▸ ho)
  last hne := by
    obtain ⟨o, hn, hw | ⟨p, hp, ho⟩⟩ := h.last hne
    · exact ⟨o, hn, Or.inl hw⟩
    · rcases mem_set_or_eq ht hp with hp | rfl
      · exact ⟨o, hn, Or.inr ⟨p, hp, ho⟩⟩
      · exact ⟨o, hn, Or.inr ⟨t', mem_set_self ht, hheld.trans ho⟩⟩

/-- A task makes an observation and holds it. -/
theorem Ok.observe {i : Nat} {t t' : τ} {v : α} (h : l.Ok held tasks) (ht : tasks[i]? = some t)
    (hheld : held t' = some (l.next v)) : (l.observe v).Ok held (tasks.set i t') where
  written w hw := by
    have hmade := h.written w hw
    exact (List.getElem?_append_left (List.getElem?_eq_some_iff.1 hmade).1).trans hmade
  inHand p hp o ho := by
    rcases List.mem_or_eq_of_mem_set hp with hp | rfl
    · have hmade := h.inHand p hp o ho
      exact (List.getElem?_append_left (List.getElem?_eq_some_iff.1 hmade).1).trans hmade
    · rw [← Option.some.inj (hheld.symm.trans ho)]
      exact List.getElem?_concat_length
  last _ := ⟨l.next v, by simp [next, Ledger.observe], Or.inr ⟨t', mem_set_self ht, hheld⟩⟩

/-- A task writes what it holds. -/
theorem Ok.write {i : Nat} {t t' : τ} {o : Observed α} (h : l.Ok held tasks) (ht : tasks[i]? = some t)
    (hheld : held t = some o) (hheld' : held t' = none) : (l.write o).Ok held (tasks.set i t') where
  written w hw := by
    unfold Ledger.write at hw ⊢
    split at hw
    · rename_i hnew
      rw [if_pos hnew]
      rw [← Option.some.inj hw]
      exact h.inHand t (List.mem_of_getElem? ht) o hheld
    · rename_i hnew
      rw [if_neg hnew]
      exact h.written w hw
  inHand p hp o' ho' := by
    have hmade : (l.write o).made = l.made := by
      unfold Ledger.write
      split <;> rfl
    rw [hmade]
    rcases List.mem_or_eq_of_mem_set hp with hp | rfl
    · exact h.inHand p hp o' ho'
    · rw [hheld'] at ho'
      cases ho'
  last := by
    have ho := (List.getElem?_eq_some_iff.1 (h.inHand t (List.mem_of_getElem? ht) o hheld)).1
    unfold Ledger.write
    split
    · rename_i hnew
      intro hne
      obtain ⟨o', hn, hw | ⟨p, hp, ho'⟩⟩ := h.last hne
      · -- the last observation was written, so this is the last one too
        have := hnew o' hw
        exact ⟨o, by simp only at hn ⊢; omega, Or.inl rfl⟩
      · rcases mem_set_or_eq ht hp with hp | rfl
        · exact ⟨o', hn, Or.inr ⟨p, hp, ho'⟩⟩
        · exact ⟨o, by rw [hheld] at ho'; cases ho'; exact hn, Or.inl rfl⟩
    · rename_i hnew
      intro hne
      obtain ⟨o', hn, hw | ⟨p, hp, ho'⟩⟩ := h.last hne
      · exact ⟨o', hn, Or.inl hw⟩
      · rcases mem_set_or_eq ht hp with hp | rfl
        · exact ⟨o', hn, Or.inr ⟨p, hp, ho'⟩⟩
        · -- nothing newer than the last observation was written
          obtain rfl : o = o' := Option.some.inj (hheld.symm.trans ho')
          refine absurd (fun w hw => ?_) hnew
          have := (List.getElem?_eq_some_iff.1 (h.written w hw)).1
          omega

/-- Once no task holds anything, the last observation made is the newest written. -/
theorem Ok.written_of_last {v : α} (h : l.Ok held tasks) (hnone : ∀ t ∈ tasks, held t = none)
    (hlast : l.made.getLast? = some v) : ∃ w ∈ l.written, w.value = v := by
  have hne : l.made ≠ [] := by
    rintro he
    rw [he] at hlast
    cases hlast
  obtain ⟨o, hn, hw | ⟨t, ht, ho⟩⟩ := h.last hne
  · refine ⟨o, hw, ?_⟩
    have hmade := h.written o hw
    rw [List.getLast?_eq_getElem?, ← hn, Nat.add_sub_cancel, hmade] at hlast
    exact Option.some.inj hlast
  · rw [hnone t ht] at ho
    cases ho

end Ok

end Ledger
