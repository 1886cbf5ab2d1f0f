import Coold.Lib.Dict

/-!
# Assignments from a pool

Every name of a list is assigned a value, and no two of them values with the same address.  The values that are already
in use are visited first, in an order of their own: a value is kept when it is valid and its address is not yet taken.
Then every name without a value is given a new one, made from a free address that `search` finds.

A name keeps a valid value whose address no earlier name has (`assign_keeps`), the values of the result are valid and
their addresses distinct if the search finds such values (`assign_ok`), and a complete assignment of valid values with
distinct addresses is kept as it is (`assign_stable`).
-/

/-- What the values of a pool are, and how a new one is found.  `bad` and `taken` are the remarks made about a value that
is not kept. -/
structure Pool (K V α W E : Type) where
  valid : V → Bool
  addr : V → α
  make : α → V
  search : List α → Except E α
  bad : K → V → W
  taken : K → V → W

namespace Pool

/-- The values assigned so far and the addresses they take. -/
structure Book (K V α : Type) where
  assigned : Dict K V
  used : List α

variable {K V α W E : Type} [DecidableEq K] (p : Pool K V α W E)

def keepStep [DecidableEq α] (names : List K) (st : Book K V α × List W) (e : K × V) : Book K V α × List W :=
  if e.1 ∉ names then st
  else if !p.valid e.2 then (st.1, st.2 ++ [p.bad e.1 e.2])
  else if p.addr e.2 ∈ st.1.used then (st.1, st.2 ++ [p.taken e.1 e.2])
  else (⟨st.1.assigned.insert e.1 e.2, p.addr e.2 :: st.1.used⟩, st.2)

def emptyBook : Book K V α := ⟨∅, []⟩

/-- The values in use that are kept, with the remarks about the others. -/
def keep [DecidableEq α] (names : List K) (existing : List (K × V)) : Book K V α × List W :=
  existing.foldl (p.keepStep names) (emptyBook, [])

def fillStep (book : Book K V α) (k : K) : Except E (Book K V α) :=
  if (book.assigned.lookup k).isSome then .ok book
  else
    match p.search book.used with
    | .error e => .error e
    | .ok a => .ok ⟨book.assigned.insert k (p.make a), a :: book.used⟩

/-- New values for the names that have none. -/
def fill (names : List K) (book : Book K V α) : Except E (Book K V α) := names.foldlM p.fillStep book

/-- The assignment, with the remarks. -/
def assign [DecidableEq α] (names : List K) (existing : List (K × V)) : Except E (Dict K V × List W) :=
  match p.fill names (p.keep names existing).1 with
  | .error e => .error e
  | .ok book => .ok (book.assigned, (p.keep names existing).2)

/-! ### The values that are kept -/

section Keep

/-- The kept values are values in use of listed names, valid ones, and `used` has exactly their addresses, one each. -/
structure Kept (names : List K) (visited : List (K × V)) (book : Book K V α) : Prop where
  mem : ∀ k v, book.assigned.lookup k = some v → (k, v) ∈ visited ∧ k ∈ names ∧ p.valid v = true
  used : ∀ a, a ∈ book.used ↔ ∃ k v, book.assigned.lookup k = some v ∧ p.addr v = a
  inj : ∀ k k' v v', book.assigned.lookup k = some v → book.assigned.lookup k' = some v' → p.addr v = p.addr v' →
    k = k'
  count : book.used.length = book.assigned.keys.length

omit V in
private theorem length_keys_insert {V : Type} {m : Dict K V} {k : K} {v : V} (h : m.lookup k = none) :
    (m.insert k v).keys.length = m.keys.length + 1 := by
  have hk : k ∉ m.keys := fun hk => absurd (Dict.mem_keys_iff.1 hk) (by simp [h])
  rw [AList.keys_insert, List.erase_of_not_mem hk, List.length_cons]

private theorem kept_empty (names : List K) : p.Kept names [] emptyBook where
  mem k v h := by cases h
  used a := by
    constructor
    · intro h
      cases h
    · rintro ⟨k, v, h, -⟩
      cases h
  inj k k' v v' h := by cases h
  count := rfl

variable {p}

private theorem Kept.weaken {names : List K} {visited : List (K × V)} {book : Book K V α} {e : K × V}
    (h : p.Kept names visited book) : p.Kept names (visited ++ [e]) book :=
  ⟨fun k v hk => ⟨List.mem_append_left _ (h.mem k v hk).1, (h.mem k v hk).2⟩, h.used, h.inj, h.count⟩

variable [DecidableEq α]

private theorem Kept.step {names : List K} {visited : List (K × V)} {st : Book K V α × List W} {e : K × V}
    (hfresh : e.1 ∉ visited.map Prod.fst) (h : p.Kept names visited st.1) :
    p.Kept names (visited ++ [e]) (p.keepStep names st e).1 := by
  unfold keepStep
  by_cases hn : e.1 ∉ names
  · rw [if_pos hn]
    exact h.weaken
  by_cases hv : (!p.valid e.2) = true
  · rw [if_neg hn, if_pos hv]
    exact h.weaken
  by_cases hu : p.addr e.2 ∈ st.1.used
  · rw [if_neg hn, if_neg hv, if_pos hu]
    exact h.weaken
  rw [if_neg hn, if_neg hv, if_neg hu]
  simp only [not_not] at hn
  simp only [Bool.not_eq_true', Bool.not_eq_false] at hv
  -- the name was not visited before, so it has no value yet
  have hnew : st.1.assigned.lookup e.1 = none := by
    cases hl : st.1.assigned.lookup e.1 with
    | none => rfl
    | some v => exact absurd (List.mem_map_of_mem (h.mem _ _ hl).1) hfresh
  refine ⟨?_, ?_, ?_, ?_⟩
  · intro k v hk
    rw [Dict.lookup_insert_ite] at hk
    by_cases hke : k = e.1
    · rw [if_pos hke, Option.some.injEq] at hk
      subst hk hke
      exact ⟨List.mem_append_right _ (List.mem_singleton.2 rfl), hn, hv⟩
    · rw [if_neg hke] at hk
      exact h.weaken.mem k v hk
  · intro a
    simp only [List.mem_cons, h.used a, Dict.lookup_insert_ite]
    constructor
    · rintro (rfl | ⟨k, v, hk, rfl⟩)
      · exact ⟨e.1, e.2, by simp, rfl⟩
      · refine ⟨k, v, ?_, rfl⟩
        rw [if_neg, hk]
        rintro rfl
        rw [hnew] at hk
        cases hk
    · rintro ⟨k, v, hk, rfl⟩
      by_cases hke : k = e.1
      · rw [if_pos hke, Option.some.injEq] at hk
        exact Or.inl (hk ▸ rfl)
      · rw [if_neg hke] at hk
        exact Or.inr ⟨k, v, hk, rfl⟩
  · intro k k' v v' hk hk' ha
    rw [Dict.lookup_insert_ite] at hk hk'
    by_cases hke : k = e.1 <;> by_cases hke' : k' = e.1
    · rw [hke, hke']
    · rw [if_pos hke, Option.some.injEq] at hk
      rw [if_neg hke'] at hk'
      exact absurd ((h.used _).2 ⟨k', v', hk', ha.symm⟩) (hk ▸ hu)
    · rw [if_neg hke] at hk
      rw [if_pos hke', Option.some.injEq] at hk'
      exact absurd ((h.used _).2 ⟨k, v, hk, ha⟩) (hk' ▸ hu)
    · rw [if_neg hke] at hk
      rw [if_neg hke'] at hk'
      exact h.inj k k' v v' hk hk' ha
  · rw [List.length_cons, h.count, length_keys_insert hnew]

variable (p)

private theorem keep_concat (names : List K) (l : List (K × V)) (e : K × V) :
    p.keep names (l ++ [e]) = p.keepStep names (p.keep names l) e := by
  simp [keep, List.foldl_append]

private theorem kept_keep (names : List K) {existing : List (K × V)} (hnd : (existing.map Prod.fst).Nodup) :
    p.Kept names existing (p.keep names existing).1 := by
  induction existing using List.reverseRecOn with
  | nil => exact p.kept_empty names
  | append_singleton l e ih =>
    rw [List.map_append, List.nodup_append] at hnd
    rw [keep_concat]
    refine (ih hnd.1).step ?_
    intro hmem
    exact hnd.2.2 _ hmem e.1 (by simp) rfl

private theorem lookup_keepStep_of_ne (names : List K) (st : Book K V α × List W) {e : K × V} {k : K} (h : k ≠ e.1) :
    (p.keepStep names st e).1.assigned.lookup k = st.1.assigned.lookup k := by
  unfold keepStep
  split
  · rfl
  · split
    · rfl
    · split
      · rfl
      · exact AList.lookup_insert_ne h

/-- A listed name keeps its valid value unless an earlier name has the address. -/
theorem lookup_keep (names : List K) {l r : List (K × V)} {k : K} {v : V}
    (hnd : ((l ++ (k, v) :: r).map Prod.fst).Nodup) (hk : k ∈ names) (hv : p.valid v = true)
    (hfirst : ∀ e ∈ l, e.1 ∈ names → p.valid e.2 = true → p.addr e.2 ≠ p.addr v) :
    (p.keep names (l ++ (k, v) :: r)).1.assigned.lookup k = some v := by
  induction r using List.reverseRecOn with
  | nil =>
    rw [List.map_append, List.nodup_append] at hnd
    rw [keep_concat]
    have hkept := p.kept_keep names hnd.1
    have hfree : p.addr v ∉ (p.keep names l).1.used := by
      intro hu
      obtain ⟨k', v', hk', ha⟩ := (hkept.used _).1 hu
      obtain ⟨hmem, hn, hval⟩ := hkept.mem k' v' hk'
      exact hfirst (k', v') hmem hn hval ha
    simp [keepStep, hk, hv, hfree]
  | append_singleton r e ih =>
    rw [← List.cons_append, ← List.append_assoc] at hnd ⊢
    rw [List.map_append, List.nodup_append] at hnd
    rw [keep_concat, lookup_keepStep_of_ne, ih hnd.1]
    rintro rfl
    exact hnd.2.2 e.1 (by simp) e.1 (by simp) rfl

end Keep

/-! ### The new values -/

private theorem fill_cons {k : K} {names : List K} {book book' : Book K V α}
    (h : p.fill (k :: names) book = .ok book') :
    ∃ mid, p.fillStep book k = .ok mid ∧ p.fill names mid = .ok book' := by
  unfold fill at h
  rw [List.foldlM_cons] at h
  cases hs : p.fillStep book k with
  | error e =>
    rw [hs] at h
    cases h
  | ok mid =>
    rw [hs] at h
    exact ⟨mid, rfl, h⟩

/-- A name that has a value keeps it; another one is given a new value. -/
private theorem fillStep_cases {k : K} {book mid : Book K V α} (h : p.fillStep book k = .ok mid) :
    ((book.assigned.lookup k).isSome ∧ mid = book) ∨
      (book.assigned.lookup k = none ∧ ∃ a, p.search book.used = .ok a ∧
        mid = ⟨book.assigned.insert k (p.make a), a :: book.used⟩) := by
  unfold fillStep at h
  by_cases hk : (book.assigned.lookup k).isSome
  · rw [if_pos hk] at h
    cases h
    exact Or.inl ⟨hk, rfl⟩
  · rw [if_neg hk] at h
    refine Or.inr ⟨by simpa using hk, ?_⟩
    cases hs : p.search book.used with
    | error e =>
      rw [hs] at h
      cases h
    | ok a =>
      rw [hs] at h
      cases h
      exact ⟨a, rfl, rfl⟩

private theorem lookup_fill_of_some {names : List K} {book book' : Book K V α} {k : K} {v : V}
    (h : p.fill names book = .ok book') (hk : book.assigned.lookup k = some v) :
    book'.assigned.lookup k = some v := by
  induction names generalizing book with
  | nil =>
    cases h
    exact hk
  | cons n names ih =>
    obtain ⟨mid, hstep, hrest⟩ := p.fill_cons h
    refine ih hrest ?_
    rcases p.fillStep_cases hstep with ⟨-, rfl⟩ | ⟨hnone, a, -, rfl⟩
    · exact hk
    · rw [AList.lookup_insert_ne, hk]
      rintro rfl
      rw [hnone] at hk
      cases hk

private theorem isSome_lookup_fill {names : List K} {book book' : Book K V α} {k : K}
    (h : p.fill names book = .ok book') (hk : k ∈ names) : (book'.assigned.lookup k).isSome := by
  induction names generalizing book with
  | nil => cases hk
  | cons n names ih =>
    obtain ⟨mid, hstep, hrest⟩ := p.fill_cons h
    rcases List.mem_cons.1 hk with rfl | hk
    · have hmid : (mid.assigned.lookup k).isSome := by
        rcases p.fillStep_cases hstep with ⟨hsome, rfl⟩ | ⟨-, a, -, rfl⟩
        · exact hsome
        · simp
      obtain ⟨v, hv⟩ := Option.isSome_iff_exists.1 hmid
      rw [p.lookup_fill_of_some hrest hv]
      rfl
    · exact ih hrest hk

/-- Where a value comes from. -/
theorem of_lookup_fill {names : List K} {book book' : Book K V α} {k : K} {v : V}
    (h : p.fill names book = .ok book') (hk : book'.assigned.lookup k = some v) :
    book.assigned.lookup k = some v ∨ (k ∈ names ∧ ∃ used a, p.search used = .ok a ∧ v = p.make a) := by
  induction names generalizing book with
  | nil =>
    cases h
    exact Or.inl hk
  | cons n names ih =>
    obtain ⟨mid, hstep, hrest⟩ := p.fill_cons h
    rcases ih hrest with hmid | ⟨hmem, hnew⟩
    · rcases p.fillStep_cases hstep with ⟨-, rfl⟩ | ⟨-, a, hs, rfl⟩
      · exact Or.inl hmid
      · rw [Dict.lookup_insert_ite] at hmid
        by_cases hkn : k = n
        · rw [if_pos hkn, Option.some.injEq] at hmid
          exact Or.inr ⟨hkn ▸ List.mem_cons_self, book.used, a, hs, hmid.symm⟩
        · rw [if_neg hkn] at hmid
          exact Or.inl hmid
    · exact Or.inr ⟨List.mem_cons_of_mem _ hmem, hnew⟩

private theorem fill_eq_self {names : List K} (book : Book K V α) (h : ∀ k ∈ names, (book.assigned.lookup k).isSome) :
    p.fill names book = .ok book := by
  induction names with
  | nil => rfl
  | cons n names ih =>
    have hn : p.fillStep book n = .ok book := by simp [fillStep, h n List.mem_cons_self]
    unfold fill at ih ⊢
    rw [List.foldlM_cons, hn]
    exact ih fun k hk => h k (List.mem_cons_of_mem _ hk)

/-- New values cannot be given only where a search fails while a name has no value.  `P` is what the steps before keep. -/
theorem fill_eq_error {P : Book K V α → Prop} {names : List K} {book : Book K V α} {e : E}
    (hstep : ∀ k ∈ names, ∀ book mid, P book → p.fillStep book k = .ok mid → P mid) (hP : P book)
    (h : p.fill names book = .error e) :
    ∃ k ∈ names, ∃ last, P last ∧ last.assigned.lookup k = none ∧ p.search last.used = .error e := by
  induction names generalizing book with
  | nil => cases h
  | cons n names ih =>
    unfold fill at h ih
    rw [List.foldlM_cons] at h
    cases hs : p.fillStep book n with
    | error e' =>
      rw [hs] at h
      cases h
      refine ⟨n, List.mem_cons_self, book, hP, ?_⟩
      unfold fillStep at hs
      split at hs
      · cases hs
      next hnone =>
        refine ⟨by simpa using hnone, ?_⟩
        cases hsearch : p.search book.used with
        | error e' =>
          rw [hsearch] at hs
          cases hs
          rfl
        | ok a =>
          rw [hsearch] at hs
          cases hs
    | ok mid =>
      rw [hs] at h
      obtain ⟨k, hk, hlast⟩ := ih (fun k hk => hstep k (List.mem_cons_of_mem _ hk))
        (hstep n List.mem_cons_self book mid hP hs) h
      exact ⟨k, List.mem_cons_of_mem _ hk, hlast⟩

/-- All values are valid, their addresses are distinct and taken, one for each name. -/
structure Book.Ok (names : List K) (book : Book K V α) : Prop where
  sub : ∀ k v, book.assigned.lookup k = some v → k ∈ names ∧ p.valid v = true ∧ p.addr v ∈ book.used
  inj : ∀ k k' v v', book.assigned.lookup k = some v → book.assigned.lookup k' = some v' → p.addr v = p.addr v' →
    k = k'
  count : book.used.length = book.assigned.keys.length

variable {p}

private theorem Book.Ok.insert {names : List K} {book : Book K V α} {k : K} {a : α}
    (h : book.Ok p names) (hk : k ∈ names) (hnone : book.assigned.lookup k = none) (hfree : a ∉ book.used)
    (haddr : p.addr (p.make a) = a) (hvalid : p.valid (p.make a) = true) :
    Book.Ok p names ⟨book.assigned.insert k (p.make a), a :: book.used⟩ := by
  refine ⟨?_, ?_, by rw [List.length_cons, h.count, length_keys_insert hnone]⟩
  · intro k' v hk'
    rw [Dict.lookup_insert_ite] at hk'
    by_cases hkk : k' = k
    · rw [if_pos hkk, Option.some.injEq] at hk'
      rw [← hk', haddr]
      exact ⟨hkk ▸ hk, hvalid, List.mem_cons_self⟩
    · rw [if_neg hkk] at hk'
      obtain ⟨hmem, hval, hused⟩ := h.sub k' v hk'
      exact ⟨hmem, hval, List.mem_cons_of_mem _ hused⟩
  · intro k₁ k₂ v₁ v₂ h₁ h₂ ha
    rw [Dict.lookup_insert_ite] at h₁ h₂
    by_cases hk₁ : k₁ = k <;> by_cases hk₂ : k₂ = k
    · rw [hk₁, hk₂]
    · rw [if_pos hk₁, Option.some.injEq] at h₁
      rw [if_neg hk₂] at h₂
      rw [← h₁, haddr] at ha
      exact absurd (ha ▸ (h.sub k₂ v₂ h₂).2.2) hfree
    · rw [if_neg hk₁] at h₁
      rw [if_pos hk₂, Option.some.injEq] at h₂
      rw [← h₂, haddr] at ha
      exact absurd (ha ▸ (h.sub k₁ v₁ h₁).2.2) hfree
    · rw [if_neg hk₁] at h₁
      rw [if_neg hk₂] at h₂
      exact h.inj k₁ k₂ v₁ v₂ h₁ h₂ ha

/-- While a name has no value, fewer addresses are taken than there are names. -/
private theorem Book.Ok.length_lt {names : List K} {book : Book K V α} {k : K}
    (h : book.Ok p names) (hk : k ∈ names) (hnone : book.assigned.lookup k = none) :
    book.used.length < names.length := by
  have hnot : k ∉ book.assigned.keys := fun hmem => absurd (Dict.mem_keys_iff.1 hmem) (by simp [hnone])
  have hsub : k :: book.assigned.keys ⊆ names := by
    intro k' hk'
    rcases List.mem_cons.1 hk' with rfl | hk'
    · exact hk
    · obtain ⟨v, hv⟩ := Dict.mem_keys_iff.1 hk'
      exact (h.sub k' v hv).1
  have hnd : (k :: book.assigned.keys).Nodup := List.nodup_cons.2 ⟨hnot, book.assigned.nodupKeys⟩
  have := (List.subperm_of_subset hnd hsub).length_le
  rw [List.length_cons] at this
  have := h.count
  omega

variable (p)

/-- What a search finds while fewer addresses are taken than there are names: a free address with a valid value. -/
def Finds (bound : Nat) : Prop :=
  ∀ used a, used.length < bound → p.search used = .ok a →
    a ∉ used ∧ p.addr (p.make a) = a ∧ p.valid (p.make a) = true

private theorem ok_fillStep {names : List K} (hfinds : p.Finds names.length) {k : K}
    (hk : k ∈ names) {book mid : Book K V α} (hb : book.Ok p names) (h : p.fillStep book k = .ok mid) :
    mid.Ok p names := by
  rcases p.fillStep_cases h with ⟨-, rfl⟩ | ⟨hnone, a, hs, rfl⟩
  · exact hb
  · obtain ⟨hfree, haddr, hvalid⟩ := hfinds _ a (hb.length_lt hk hnone) hs
    exact hb.insert hk hnone hfree haddr hvalid

private theorem ok_fill {names rest : List K} (hfinds : p.Finds names.length)
    {book book' : Book K V α} (hrest : ∀ k ∈ rest, k ∈ names) (hb : book.Ok p names)
    (h : p.fill rest book = .ok book') : book'.Ok p names := by
  induction rest generalizing book with
  | nil =>
    cases h
    exact hb
  | cons n rest ih =>
    obtain ⟨mid, hstep, htail⟩ := p.fill_cons h
    exact ih (fun k hk => hrest k (List.mem_cons_of_mem _ hk))
      (p.ok_fillStep hfinds (hrest n List.mem_cons_self) hb hstep) htail

variable {p} in
private theorem Kept.ok {names : List K} {existing : List (K × V)} {book : Book K V α}
    (h : p.Kept names existing book) : book.Ok p names :=
  ⟨fun k v hk => ⟨(h.mem k v hk).2.1, (h.mem k v hk).2.2, (h.used _).2 ⟨k, v, hk, rfl⟩⟩, h.inj, h.count⟩

/-! ### The assignment -/

variable [DecidableEq α]

private theorem assign_eq_ok {names : List K} {existing : List (K × V)} {m : Dict K V} {w : List W} :
    p.assign names existing = .ok (m, w) ↔
      ∃ book, p.fill names (p.keep names existing).1 = .ok book ∧ book.assigned = m ∧ (p.keep names existing).2 = w := by
  unfold assign
  cases hf : p.fill names (p.keep names existing).1 with
  | error e => simp
  | ok book => simp [eq_comm]

/-- The names of the list have a value, and no others. -/
theorem isSome_lookup_assign {names : List K} {existing : List (K × V)} {m : Dict K V} {w : List W}
    (hnd : (existing.map Prod.fst).Nodup) (h : p.assign names existing = .ok (m, w)) (k : K) :
    (m.lookup k).isSome ↔ k ∈ names := by
  obtain ⟨book, hf, rfl, -⟩ := p.assign_eq_ok.1 h
  constructor
  · intro hk
    obtain ⟨v, hv⟩ := Option.isSome_iff_exists.1 hk
    rcases p.of_lookup_fill hf hv with hold | ⟨hmem, -⟩
    · exact ((p.kept_keep names hnd).mem k v hold).2.1
    · exact hmem
  · exact p.isSome_lookup_fill hf

/-- A value of the assignment is a valid one in use, or a new one. -/
theorem of_lookup_assign {names : List K} {existing : List (K × V)} {m : Dict K V} {w : List W}
    (hnd : (existing.map Prod.fst).Nodup) (h : p.assign names existing = .ok (m, w)) {k : K} {v : V}
    (hk : m.lookup k = some v) :
    ((k, v) ∈ existing ∧ p.valid v = true) ∨ ∃ used a, p.search used = .ok a ∧ v = p.make a := by
  obtain ⟨book, hf, rfl, -⟩ := p.assign_eq_ok.1 h
  rcases p.of_lookup_fill hf hk with hold | ⟨-, hnew⟩
  · obtain ⟨hmem, -, hv⟩ := (p.kept_keep names hnd).mem k v hold
    exact Or.inl ⟨hmem, hv⟩
  · exact Or.inr hnew

/-- A listed name keeps its valid value unless an earlier name has the address. -/
theorem assign_keeps {names : List K} {l r : List (K × V)} {m : Dict K V} {w : List W} {k : K} {v : V}
    (hnd : ((l ++ (k, v) :: r).map Prod.fst).Nodup) (h : p.assign names (l ++ (k, v) :: r) = .ok (m, w))
    (hk : k ∈ names) (hv : p.valid v = true)
    (hfirst : ∀ e ∈ l, e.1 ∈ names → p.valid e.2 = true → p.addr e.2 ≠ p.addr v) : m.lookup k = some v := by
  obtain ⟨book, hf, rfl, -⟩ := p.assign_eq_ok.1 h
  exact p.lookup_fill_of_some hf (p.lookup_keep names hnd hk hv hfirst)

/-- A listed name keeps its valid value if no other listed name has the address. -/
theorem assign_keeps_of_unique {names : List K} {existing : List (K × V)} {m : Dict K V} {w : List W} {k : K} {v : V}
    (hnd : (existing.map Prod.fst).Nodup) (h : p.assign names existing = .ok (m, w)) (hk : k ∈ names)
    (hmem : (k, v) ∈ existing) (hv : p.valid v = true)
    (huniq : ∀ e ∈ existing, e.1 ∈ names → p.valid e.2 = true → p.addr e.2 = p.addr v → e.1 = k) :
    m.lookup k = some v := by
  obtain ⟨l, r, rfl⟩ := List.append_of_mem hmem
  refine p.assign_keeps hnd h hk hv fun e he hn hval ha => ?_
  have hek := huniq e (List.mem_append_left _ he) hn hval ha
  rw [List.map_append, List.nodup_append] at hnd
  exact hnd.2.2 e.1 (List.mem_map_of_mem he) k (by simp) hek

/-- There is no assignment only where a search fails. -/
theorem exists_search_of_assign {names : List K} {existing : List (K × V)} {e : E}
    (h : p.assign names existing = .error e) : ∃ used, p.search used = .error e := by
  unfold assign at h
  split at h
  next e' hf =>
    cases h
    obtain ⟨_, -, last, -, -, hs⟩ := p.fill_eq_error (P := fun _ => True) (fun _ _ _ _ _ _ => trivial) trivial hf
    exact ⟨last.used, hs⟩
  next => cases h

/-- If the search finds valid values, it fails only while fewer addresses are taken than there are names. -/
theorem exists_search_of_assign_lt {names : List K} {existing : List (K × V)} {e : E}
    (hfinds : p.Finds names.length) (hnd : (existing.map Prod.fst).Nodup)
    (h : p.assign names existing = .error e) : ∃ used, used.length < names.length ∧ p.search used = .error e := by
  unfold assign at h
  split at h
  next e' hf =>
    cases h
    obtain ⟨k, hk, last, hlast, hnone, hs⟩ := p.fill_eq_error (P := fun book => book.Ok p names)
      (fun k hk book mid => p.ok_fillStep hfinds hk) (p.kept_keep names hnd).ok hf
    exact ⟨last.used, hlast.length_lt hk hnone, hs⟩
  next => cases h

/-- The values of the assignment are valid and their addresses distinct, if the search finds such values. -/
theorem assign_ok {names : List K} {existing : List (K × V)} {m : Dict K V} {w : List W}
    (hfinds : p.Finds names.length) (hnd : (existing.map Prod.fst).Nodup)
    (h : p.assign names existing = .ok (m, w)) :
    (∀ k v, m.lookup k = some v → p.valid v = true) ∧
      ∀ k k' v v', m.lookup k = some v → m.lookup k' = some v' → p.addr v = p.addr v' → k = k' := by
  obtain ⟨book, hf, rfl, -⟩ := p.assign_eq_ok.1 h
  have hbook := p.ok_fill hfinds (fun _ => id) (p.kept_keep names hnd).ok hf
  exact ⟨fun k v hk => (hbook.sub k v hk).2.1, hbook.inj⟩

/-- Nothing is remarked about valid values with distinct addresses. -/
theorem remarks_keep {names : List K} {existing : List (K × V)} (hnd : (existing.map Prod.fst).Nodup)
    (hvalid : ∀ e ∈ existing, e.1 ∈ names → p.valid e.2 = true)
    (hinj : ∀ e ∈ existing, ∀ e' ∈ existing, e.1 ∈ names → e'.1 ∈ names → p.addr e.2 = p.addr e'.2 → e.1 = e'.1) :
    (p.keep names existing).2 = [] := by
  induction existing using List.reverseRecOn with
  | nil => rfl
  | append_singleton l e ih =>
    have hsub : ∀ e' ∈ l, e' ∈ l ++ [e] := fun _ he' => List.mem_append_left _ he'
    rw [List.map_append, List.nodup_append] at hnd
    have hl := ih hnd.1 (fun e' he' => hvalid e' (hsub e' he')) fun e' he' e'' he'' =>
      hinj e' (hsub e' he') e'' (hsub e'' he'')
    have hlast : e ∈ l ++ [e] := List.mem_append_right _ (List.mem_singleton_self e)
    rw [keep_concat]
    unfold keepStep
    by_cases hn : e.1 ∉ names
    · rw [if_pos hn, hl]
    simp only [not_not] at hn
    have hfree : p.addr e.2 ∉ (p.keep names l).1.used := by
      intro hu
      obtain ⟨k, v, hk, ha⟩ := ((p.kept_keep names hnd.1).used _).1 hu
      obtain ⟨hmem, hkn, -⟩ := (p.kept_keep names hnd.1).mem k v hk
      have heq := hinj _ (hsub _ hmem) e hlast hkn hn ha
      exact hnd.2.2 k (List.mem_map_of_mem hmem) e.1 (by simp) heq
    simp [hn, hvalid e hlast hn, hfree, hl]

/-- A complete assignment of valid values with distinct addresses is kept as it is, without a remark. -/
theorem assign_stable {names : List K} {existing : List (K × V)} {m : Dict K V} (hnd : (existing.map Prod.fst).Nodup)
    (hnames : ∀ k, (m.lookup k).isSome ↔ k ∈ names) (hvalid : ∀ k v, m.lookup k = some v → p.valid v = true)
    (hinj : ∀ k k' v v', m.lookup k = some v → m.lookup k' = some v' → p.addr v = p.addr v' → k = k')
    (hsame : ∀ k ∈ names, ∀ v, (k, v) ∈ existing ↔ m.lookup k = some v) :
    ∃ m', p.assign names existing = .ok (m', []) ∧ ∀ k, m'.lookup k = m.lookup k := by
  have hkeep : ∀ k v, m.lookup k = some v → (p.keep names existing).1.assigned.lookup k = some v := by
    intro k v hk
    have hn : k ∈ names := (hnames k).1 (by rw [hk]; rfl)
    obtain ⟨l, r, rfl⟩ := List.append_of_mem ((hsame k hn v).2 hk)
    refine p.lookup_keep names hnd hn (hvalid k v hk) fun e he hen _ ha => ?_
    have hek := hinj e.1 k e.2 v ((hsame e.1 hen e.2).1 (List.mem_append_left _ he)) hk ha
    rw [List.map_append, List.nodup_append] at hnd
    exact hnd.2.2 e.1 (List.mem_map_of_mem he) k (by simp) hek
  have hremarks : (p.keep names existing).2 = [] := by
    refine p.remarks_keep hnd (fun e he hn => hvalid _ _ ((hsame _ hn _).1 he)) fun e he e' he' hn hn' ha => ?_
    exact hinj _ _ _ _ ((hsame _ hn _).1 he) ((hsame _ hn' _).1 he') ha
  have hassign := p.assign_eq_ok.2 ⟨_, p.fill_eq_self (p.keep names existing).1 ?_, rfl, hremarks⟩
  · refine ⟨_, hassign, fun k => ?_⟩
    cases hk : m.lookup k with
    | some v => exact hkeep k v hk
    | none =>
      have hnot : ¬ k ∈ names := fun hn => by rw [← hnames k, hk] at hn; cases hn
      rw [← p.isSome_lookup_assign hnd hassign k] at hnot
      simpa using hnot
  · intro k hk
    obtain ⟨v, hv⟩ := Option.isSome_iff_exists.1 ((hnames k).2 hk)
    rw [hkeep k v hv]
    rfl

end Pool
