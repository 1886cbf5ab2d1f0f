import Coold.Lib.Dict
import Mathlib.Logic.Function.Basic

/-!
# Differences of finite maps, and views built from updates

`diff put drop desired current` lists what has to change to turn `current` into `desired`: one `put` for every
entry of `desired` that `current` does not have as it is, then one `drop` for every key of `current` that
`desired` lacks.  A view is a partial function; an update sets or clears one key of it.  When the updates of a
list have distinct keys, the view after all of them is the last word on the keys they name and unchanged
elsewhere.
-/

namespace Dict

variable {K V : Type} [DecidableEq K]

section Diff

variable [DecidableEq V] {Δ : Type} (put : V → Δ) (drop : K → Δ)

/-- The changes that turn `current` into `desired`. -/
def diff (desired current : Dict K V) : List Δ :=
  (desired.entries.filterMap fun e => if current.lookup e.1 = some e.2 then none else some (put e.2)) ++
    (current.keys.filter fun k => !decide (k ∈ desired)).map drop

variable {put drop}

theorem mem_diff {desired current : Dict K V} {d : Δ} :
    d ∈ diff put drop desired current ↔
      (∃ k v, desired.lookup k = some v ∧ current.lookup k ≠ some v ∧ put v = d) ∨
      (∃ k v, current.lookup k = some v ∧ desired.lookup k = none ∧ drop k = d) := by
  unfold diff
  rw [List.mem_append, List.mem_filterMap, List.mem_map]
  constructor
  · rintro (⟨⟨k, v⟩, hm, hp⟩ | ⟨k, hk, hd⟩)
    · left
      split at hp
      · cases hp
      · rename_i hne
        exact ⟨k, v, lookup_eq_some_iff_mem.2 hm, hne, Option.some.inj hp⟩
    · right
      rw [List.mem_filter] at hk
      obtain ⟨v, hv⟩ := mem_keys_iff.1 hk.1
      have hn : k ∉ desired := by simpa using hk.2
      exact ⟨k, v, hv, AList.lookup_eq_none.2 hn, hd⟩
  · rintro (⟨k, v, hd, hc, he⟩ | ⟨k, v, hc, hd, he⟩)
    · exact Or.inl ⟨⟨k, v⟩, lookup_eq_some_iff_mem.1 hd, by simp [hc, he]⟩
    · refine Or.inr ⟨k, List.mem_filter.2 ⟨mem_keys_iff.2 ⟨v, hc⟩, ?_⟩, he⟩
      simpa using AList.lookup_eq_none.1 hd

/-- There is nothing to change exactly when the two maps agree. -/
theorem diff_eq_nil_iff {desired current : Dict K V} :
    diff put drop desired current = [] ↔ ∀ k, desired.lookup k = current.lookup k := by
  rw [List.eq_nil_iff_forall_not_mem]
  constructor
  · intro h k
    cases hd : desired.lookup k with
    | some v =>
      by_contra hne
      exact h _ (mem_diff.2 (Or.inl ⟨k, v, hd, fun hc => hne hc.symm, rfl⟩))
    | none =>
      cases hc : current.lookup k with
      | none => rfl
      | some v => exact absurd (mem_diff.2 (Or.inr ⟨k, v, hc, hd, rfl⟩)) (h _)
  · intro h d hd
    rcases mem_diff.1 hd with ⟨k, v, hd, hc, -⟩ | ⟨k, v, hc, hd, -⟩
    · exact hc (h k ▸ hd)
    · rw [← h k, hd] at hc
      cases hc

private theorem sublist_map_key_puts {current : Dict K V} {l : List (Sigma fun _ : K => V)} (key : Δ → K)
    (hl : ∀ e ∈ l, key (put e.2) = e.1) :
    List.Sublist ((l.filterMap fun e =>
      if current.lookup e.1 = some e.2 then none else some (put e.2)).map key) l.keys := by
  induction l with
  | nil => exact List.Sublist.slnil
  | cons e l ih =>
    have ih := ih fun e' he' => hl e' (List.mem_cons_of_mem _ he')
    rw [List.filterMap_cons, List.keys_cons]
    split
    · exact ih.cons e.1
    · rename_i d hd
      split at hd
      · cases hd
      · obtain rfl := Option.some.inj hd
        rw [List.map_cons, hl e (List.mem_cons_self ..)]
        exact ih.cons_cons e.1

/-- The changes name distinct keys, for any function that reads the key back from a change. -/
theorem nodup_map_key_diff {desired current : Dict K V} (key : Δ → K)
    (hput : ∀ k v, desired.lookup k = some v → key (put v) = k) (hdrop : ∀ k, key (drop k) = k) :
    ((diff put drop desired current).map key).Nodup := by
  unfold diff
  rw [List.map_append, List.map_map, List.nodup_append]
  have hsub : List.Sublist ((desired.entries.filterMap fun e =>
      if current.lookup e.1 = some e.2 then none else some (put e.2)).map key) desired.keys :=
    sublist_map_key_puts key fun e he => hput e.1 e.2 (lookup_eq_some_iff_mem.2 he)
  refine ⟨hsub.nodup desired.keys_nodup, ?_, ?_⟩
  · have hid : (key ∘ drop) = id := funext hdrop
    rw [hid, List.map_id]
    exact (current.keys_nodup).filter _
  · intro a ha b hb hab
    subst hab
    rw [List.mem_map] at hb
    obtain ⟨k, hk, rfl⟩ := hb
    rw [List.mem_filter] at hk
    have hn : k ∉ desired := by simpa using hk.2
    have hm := hsub.subset ha
    rw [Function.comp_apply, hdrop] at hm
    exact hn (AList.mem_keys.2 hm)

end Diff

section View

variable {W : Type}

/-- Set or clear the keys that a list of updates names, in order. -/
def applyUpdates (view : K → Option W) (us : List (K × Option W)) : K → Option W :=
  us.foldl (fun v u => Function.update v u.1 u.2) view

theorem applyUpdates_of_notMem {us : List (K × Option W)} {k : K} (view : K → Option W)
    (h : k ∉ us.map Prod.fst) : applyUpdates view us k = view k := by
  induction us generalizing view with
  | nil => rfl
  | cons u us ih =>
    simp only [List.map_cons, List.mem_cons, not_or] at h
    show applyUpdates (Function.update view u.1 u.2) us k = view k
    rw [ih _ h.2, Function.update_of_ne h.1]

theorem applyUpdates_of_mem {us : List (K × Option W)} {k : K} {w : Option W} (view : K → Option W)
    (hnd : (us.map Prod.fst).Nodup) (h : (k, w) ∈ us) : applyUpdates view us k = w := by
  induction us generalizing view with
  | nil => cases h
  | cons u us ih =>
    rw [List.map_cons, List.nodup_cons] at hnd
    show applyUpdates (Function.update view u.1 u.2) us k = w
    rcases List.mem_cons.1 h with rfl | h
    · rw [applyUpdates_of_notMem _ hnd.1, Function.update_self]
    · exact ih _ hnd.2 h

end View

end Dict
