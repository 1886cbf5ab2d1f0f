import Mathlib.Data.List.AList
import Mathlib.Data.List.Induction
import Mathlib.Data.List.Sort

/-!
# Finite maps with an iteration order

A hash map is modelled by Mathlib's `AList`: a list of entries with distinct keys.  The order of the list is the
order in which the map is iterated, so a statement about every `Dict` covers every iteration order.
-/

/-- A finite map from `K` to `V`. -/
abbrev Dict (K V : Type) := AList (fun _ : K => V)

namespace Dict

variable {K V : Type} [DecidableEq K]

theorem lookup_insert_ite (m : Dict K V) (k k' : K) (v : V) :
    (m.insert k v).lookup k' = if k' = k then some v else m.lookup k' := by
  by_cases h : k' = k
  · subst h; simp
  · rw [AList.lookup_insert_ne h, if_neg h]

theorem lookup_erase_ite (m : Dict K V) (k k' : K) :
    (m.erase k).lookup k' = if k' = k then none else m.lookup k' := by
  by_cases h : k' = k
  · subst h; simp
  · rw [AList.lookup_erase_ne h, if_neg h]

omit [DecidableEq K] in
private theorem nodupKeys_map_snd (f : K → V → V) (m : Dict K V) :
    (m.entries.map fun e => ⟨e.1, f e.1 e.2⟩ : List (Sigma fun _ : K => V)).NodupKeys := by
  have hk : (m.entries.map fun e => (⟨e.1, f e.1 e.2⟩ : Sigma fun _ : K => V)).keys = m.entries.keys := by
    simp [List.keys, List.map_map, Function.comp_def]
  unfold List.NodupKeys
  rw [hk]
  exact m.nodupKeys

/-- Replace every value, keeping the keys and their order. -/
def mapVal (f : K → V → V) (m : Dict K V) : Dict K V :=
  ⟨m.entries.map fun e => ⟨e.1, f e.1 e.2⟩, nodupKeys_map_snd f m⟩

/-- Keep the entries that satisfy `p`. -/
def retain (p : K → V → Bool) (m : Dict K V) : Dict K V :=
  ⟨m.entries.filter fun e => p e.1 e.2, m.nodupKeys.sublist List.filter_sublist⟩

/-- Insert the pairs of a list one after the other, so that the last pair of a key wins. -/
def collect (l : List (K × V)) : Dict K V := l.foldl (fun m e => m.insert e.1 e.2) ∅

/-- The entries in the order of their keys, as an ordered map iterates them. -/
def sorted {K V : Type} [LE K] [DecidableLE K] (m : Dict K V) : List (K × V) :=
  (m.entries.map fun e => (e.1, e.2)).insertionSort fun a b => a.1 ≤ b.1

theorem lookup_eq_some_iff_mem {m : Dict K V} {k : K} {v : V} :
    m.lookup k = some v ↔ (⟨k, v⟩ : Sigma fun _ : K => V) ∈ m.entries :=
  AList.mem_lookup_iff

theorem mem_sorted [LE K] [DecidableLE K] {m : Dict K V} {e : K × V} :
    e ∈ m.sorted ↔ m.lookup e.1 = some e.2 := by
  rw [lookup_eq_some_iff_mem, sorted, List.mem_insertionSort, List.mem_map]
  constructor
  · rintro ⟨⟨k, v⟩, hmem, rfl⟩
    exact hmem
  · exact fun hmem => ⟨_, hmem, rfl⟩

omit [DecidableEq K] in
theorem nodup_map_fst_sorted [LE K] [DecidableLE K] (m : Dict K V) : (m.sorted.map Prod.fst).Nodup := by
  have hperm : m.sorted.Perm (m.entries.map fun e => (e.1, e.2)) := List.perm_insertionSort _ _
  rw [(hperm.map Prod.fst).nodup_iff, List.map_map]
  exact m.nodupKeys

omit [DecidableEq K] in
theorem pairwise_sorted [LE K] [DecidableLE K] [Std.Total fun a b : K => a ≤ b] [IsTrans K fun a b => a ≤ b]
    (m : Dict K V) : m.sorted.Pairwise fun a b => a.1 ≤ b.1 := by
  have htotal : Std.Total fun a b : K × V => a.1 ≤ b.1 := ⟨fun a b => Std.Total.total (r := fun a b : K => a ≤ b) a.1 b.1⟩
  have htrans : IsTrans (K × V) fun a b => a.1 ≤ b.1 :=
    ⟨fun a b c => IsTrans.trans (r := fun a b : K => a ≤ b) a.1 b.1 c.1⟩
  exact List.pairwise_insertionSort _ _

/-- Maps with the same values are iterated in the same order of their keys. -/
theorem sorted_congr [LE K] [DecidableLE K] [Std.Total fun a b : K => a ≤ b] [IsTrans K fun a b => a ≤ b]
    [Std.Antisymm fun a b : K => a ≤ b] {m m' : Dict K V} (h : ∀ k, m.lookup k = m'.lookup k) :
    m.sorted = m'.sorted := by
  have hperm : m.sorted.Perm m'.sorted := by
    rw [List.perm_ext_iff_of_nodup m.nodup_map_fst_sorted.of_map m'.nodup_map_fst_sorted.of_map]
    intro e
    rw [mem_sorted, mem_sorted, h]
  refine hperm.eq_of_pairwise (fun a b ha hb hab hba => ?_) m.pairwise_sorted m'.pairwise_sorted
  have hk : a.1 = b.1 := Std.Antisymm.antisymm (r := fun a b : K => a ≤ b) _ _ hab hba
  rw [mem_sorted] at ha hb
  rw [← h, ← hk, ha, Option.some.injEq] at hb
  exact Prod.ext hk hb

theorem mem_keys_iff {m : Dict K V} {k : K} : k ∈ m.keys ↔ ∃ v, m.lookup k = some v := by
  rw [← AList.mem_keys, ← AList.lookup_isSome, Option.isSome_iff_exists]

omit [DecidableEq K] in
private theorem length_keys (m : Dict K V) : m.keys.length = m.entries.length := by
  simp [AList.keys, List.keys]

theorem length_erase_le (m : Dict K V) (k : K) : (m.erase k).entries.length ≤ m.entries.length := by
  have h := List.length_erase_le (a := k) (l := m.keys)
  rwa [← AList.keys_erase, length_keys, length_keys] at h

/-- An insertion adds an entry unless the key has one. -/
theorem length_insert (m : Dict K V) (k : K) (v : V) :
    (m.insert k v).entries.length = if (m.lookup k).isSome then m.entries.length else m.entries.length + 1 := by
  have h : (m.insert k v).entries.length = (m.keys.erase k).length + 1 := by
    rw [← length_keys, AList.keys_insert, List.length_cons]
  have hkey : (m.lookup k).isSome ↔ k ∈ m.keys := AList.lookup_isSome.trans AList.mem_keys
  rw [h, List.length_erase, length_keys]
  by_cases hk : k ∈ m.keys
  · have hpos : 0 < m.keys.length := List.length_pos_of_mem hk
    rw [length_keys] at hpos
    rw [if_pos hk, if_pos (hkey.2 hk)]
    omega
  · rw [if_neg hk, if_neg fun hs => hk (hkey.1 hs)]

/-- A property of the values under every key that three missing values have is one of the keys of the maps. -/
theorem forall_lookup_iff {R : Option V → Option V → Option V → Prop} (hR : R none none none) (a b c : Dict K V) :
    (∀ k, R (a.lookup k) (b.lookup k) (c.lookup k)) ↔
      ∀ k ∈ a.keys ++ b.keys ++ c.keys, R (a.lookup k) (b.lookup k) (c.lookup k) := by
  refine ⟨fun h k _ => h k, fun h k => ?_⟩
  by_cases hk : k ∈ a.keys ++ b.keys ++ c.keys
  · exact h k hk
  · simp only [List.mem_append, not_or] at hk
    rw [AList.lookup_eq_none.2 hk.1.1, AList.lookup_eq_none.2 hk.1.2, AList.lookup_eq_none.2 hk.2]
    exact hR

private theorem dlookup_map_snd (f : K → V → V) (l : List (Sigma fun _ : K => V)) (k : K) :
    (l.map fun e => (⟨e.1, f e.1 e.2⟩ : Sigma fun _ : K => V)).dlookup k = (l.dlookup k).map (f k) := by
  induction l with
  | nil => rfl
  | cons e l ih =>
    obtain ⟨k', v⟩ := e
    by_cases h : k' = k
    · subst h; simp
    · simp [Ne.symm h, ih]

theorem lookup_mapVal (f : K → V → V) (m : Dict K V) (k : K) :
    (mapVal f m).lookup k = (m.lookup k).map (f k) :=
  dlookup_map_snd f m.entries k

theorem lookup_retain (p : K → V → Bool) (m : Dict K V) (k : K) :
    (retain p m).lookup k = (m.lookup k).filter (p k) := by
  apply Option.ext
  intro v
  rw [lookup_eq_some_iff_mem, Option.filter_eq_some_iff, lookup_eq_some_iff_mem]
  simp [retain]

private theorem lookup_collect_concat (l : List (K × V)) (k k' : K) (v : V) :
    (collect (l ++ [(k, v)])).lookup k' = if k' = k then some v else (collect l).lookup k' := by
  simp only [collect, List.foldl_append, List.foldl_cons, List.foldl_nil]
  exact lookup_insert_ite _ _ _ _

/-- Inserting pairs into a map gives their keys the values of the map of the pairs. -/
theorem lookup_foldl_insert (l : List (K × V)) (m : Dict K V) (k : K) :
    (l.foldl (fun m e => m.insert e.1 e.2) m).lookup k = ((collect l).lookup k).or (m.lookup k) := by
  induction l using List.reverseRecOn with
  | nil => rfl
  | append_singleton l e ih =>
    obtain ⟨k', v⟩ := e
    rw [List.foldl_append, List.foldl_cons, List.foldl_nil, lookup_insert_ite, lookup_collect_concat, ih]
    by_cases hk : k = k'
    · simp [hk]
    · simp [hk]

theorem lookup_foldl_erase (l : List K) (m : Dict K V) (k : K) :
    (l.foldl (fun m a => m.erase a) m).lookup k = if k ∈ l then none else m.lookup k := by
  induction l generalizing m with
  | nil => simp
  | cons a l ih =>
    rw [List.foldl_cons, ih, lookup_erase_ite]
    by_cases hk : k = a
    · simp [hk]
    · simp [hk]

/-- The value of a key is the one of some pair of the list. -/
theorem mem_of_lookup_collect {l : List (K × V)} {k : K} {v : V} (h : (collect l).lookup k = some v) :
    (k, v) ∈ l := by
  induction l using List.reverseRecOn with
  | nil => cases h
  | append_singleton l e ih =>
    obtain ⟨k', v'⟩ := e
    rw [lookup_collect_concat] at h
    by_cases hk : k = k'
    · rw [if_pos hk, Option.some.injEq] at h
      simp [hk, h]
    · rw [if_neg hk] at h
      exact List.mem_append_left _ (ih h)

theorem isSome_lookup_collect {l : List (K × V)} {k : K} {v : V} (h : (k, v) ∈ l) :
    ((collect l).lookup k).isSome := by
  induction l using List.reverseRecOn with
  | nil => cases h
  | append_singleton l e ih =>
    obtain ⟨k', v'⟩ := e
    rw [lookup_collect_concat]
    split
    · rfl
    · rename_i hk
      rcases List.mem_append.1 h with h | h
      · exact ih h
      · simp only [List.mem_singleton, Prod.mk.injEq] at h
        exact absurd h.1 hk

/-- Where no key is given twice, the order of the list does not matter. -/
theorem lookup_collect_eq_some_iff {l : List (K × V)} (hl : (l.map Prod.fst).Nodup) {k : K} {v : V} :
    (collect l).lookup k = some v ↔ (k, v) ∈ l := by
  refine ⟨mem_of_lookup_collect, fun h => ?_⟩
  obtain ⟨v', hv'⟩ := Option.isSome_iff_exists.1 (isSome_lookup_collect h)
  have heq : (k, v') = (k, v) := List.inj_on_of_nodup_map hl (mem_of_lookup_collect hv') h rfl
  rw [hv', (Prod.mk.injEq ..).mp heq |>.2]

section FilterMap

variable {α : Type} {f : α → Option V} {g : α → K} {l : List α}

omit [DecidableEq K] in
private theorem nodup_map_fst_filterMap (hl : (l.map g).Nodup) :
    ((l.filterMap fun a => (f a).map fun v => (g a, v)).map Prod.fst).Nodup := by
  refine hl.sublist ?_
  induction l with
  | nil => exact List.Sublist.refl _
  | cons a l ih =>
    rw [List.map_cons, List.nodup_cons] at hl
    cases hf : f a with
    | none =>
      rw [List.filterMap_cons_none (by simp [hf]), List.map_cons]
      exact (ih hl.2).cons _
    | some v =>
      rw [List.filterMap_cons_some (by simp [hf]; rfl), List.map_cons, List.map_cons]
      exact (ih hl.2).cons_cons _

/-- A map built from the elements that have a value, each under its own key. -/
theorem lookup_collect_filterMap (hl : (l.map g).Nodup) {a : α} (ha : a ∈ l) :
    (collect (l.filterMap fun a => (f a).map fun v => (g a, v))).lookup (g a) = f a := by
  apply Option.ext
  intro v
  rw [lookup_collect_eq_some_iff (nodup_map_fst_filterMap hl), List.mem_filterMap]
  constructor
  · rintro ⟨b, hb, hv⟩
    obtain ⟨v', hv', heq⟩ := Option.map_eq_some_iff.1 hv
    simp only [Prod.mk.injEq] at heq
    rw [← List.inj_on_of_nodup_map hl hb ha heq.1, hv', heq.2]
  · exact fun hv => ⟨a, ha, by simp [hv]⟩

theorem lookup_collect_filterMap_eq_none {k : K} (hk : k ∉ l.map g) :
    (collect (l.filterMap fun a => (f a).map fun v => (g a, v))).lookup k = none := by
  cases h : (collect (l.filterMap fun a => (f a).map fun v => (g a, v))).lookup k with
  | none => rfl
  | some v =>
    obtain ⟨b, hb, hv⟩ := List.mem_filterMap.1 (mem_of_lookup_collect h)
    obtain ⟨v', -, heq⟩ := Option.map_eq_some_iff.1 hv
    simp only [Prod.mk.injEq] at heq
    exact absurd (List.mem_map.2 ⟨b, hb, heq.1⟩) hk

end FilterMap

/-- A map built from elements that are their own keys; one that occurs twice has the same value twice. -/
theorem lookup_collect_self (f : K → Option V) (l : List K) (k : K) :
    (collect (l.filterMap fun a => (f a).map fun v => (a, v))).lookup k = if k ∈ l then f k else none := by
  cases h : (collect (l.filterMap fun a => (f a).map fun v => (a, v))).lookup k with
  | some v =>
    obtain ⟨a, hmem, heq⟩ := List.mem_filterMap.1 (mem_of_lookup_collect h)
    obtain ⟨v', hv', heq⟩ := Option.map_eq_some_iff.1 heq
    cases heq
    rw [if_pos hmem, hv']
  | none =>
    split
    next hmem =>
      cases hv : f k with
      | none => rfl
      | some v =>
        have hpair : (k, v) ∈ l.filterMap fun a => (f a).map fun v => (a, v) :=
          List.mem_filterMap.2 ⟨k, hmem, by rw [hv]; rfl⟩
        have hsome := isSome_lookup_collect hpair
        rw [h] at hsome
        cases hsome
    next => rfl

theorem lookup_collect_map_self (f : K → V) (l : List K) (k : K) :
    (collect (l.map fun a => (a, f a))).lookup k = if k ∈ l then some (f k) else none := by
  rw [← lookup_collect_self (fun a => some (f a))]
  simp [List.filterMap_eq_map']

/-- The entries whose value has an image. -/
def filterMapVal {W : Type} (f : V → Option W) (m : Dict K V) : Dict K W :=
  collect (m.entries.filterMap fun e => (f e.2).map fun w => (e.1, w))

theorem lookup_filterMapVal {W : Type} (f : V → Option W) (m : Dict K V) (k : K) :
    (filterMapVal f m).lookup k = (m.lookup k).bind f := by
  have hnd : (m.entries.map Sigma.fst).Nodup := m.nodupKeys
  cases hk : m.lookup k with
  | some v => exact lookup_collect_filterMap (f := fun e => f e.2) hnd (lookup_eq_some_iff_mem.1 hk)
  | none =>
    refine lookup_collect_filterMap_eq_none (f := fun e : Sigma fun _ : K => V => f e.2) (g := Sigma.fst) ?_
    exact AList.lookup_eq_none.1 hk

end Dict
