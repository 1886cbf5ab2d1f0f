import Mathlib.Data.Fintype.Basic
import Mathlib.Data.List.Nodup
import Mathlib.Logic.Function.Basic

/-!
# Chains of packet filter rules

A table has chains, and a chain is a list of rules, of which the first that matches a packet decides: it accepts the
packet, drops it, or hands it to another chain, from which it comes back if no rule of that chain decides (`walk`).

`Op` are the commands that change a table one by one, and `script` applies a list of commands as a whole or not at all.
The rules of a command are given by specifications of a type `S`, and `mean` is what a specification says; two
specifications with the same meaning are the same rule.

The rules for whole lists: a chain whose matching rules all have one fate has that fate (`walkWith_of_forall`), and in
a chain where no accepting rule stands behind another one the accepting rules decide first (`walkWith_accept`).
-/

namespace Netfilter

inductive Target (C : Type) where
  | accept
  | drop
  | jump (chain : C)
  deriving DecidableEq

structure Rule (M C : Type) where
  cond : M
  target : Target C
  deriving DecidableEq

/-- The chains of a table with their rules; `none` if there is no such chain. -/
abbrev Table (M C : Type) := C → Option (List (Rule M C))

/-- What becomes of a packet in a chain. -/
inductive Fate where
  | accept
  | drop
  | back
  deriving DecidableEq

/-! ### Packets -/

section Walk

variable {M C P : Type} (hits : M → P → Bool)

/-- The fate of a target, where `call` is the fate in another chain. -/
def Target.fate (call : C → Option Fate) : Target C → Option Fate
  | .accept => some .accept
  | .drop => some .drop
  | .jump c => call c

/-- The fate of a packet in a list of rules. -/
def walkWith (call : C → Option Fate) (p : P) : List (Rule M C) → Option Fate
  | [] => some .back
  | r :: rs =>
    if hits r.cond p then
      match r.target.fate call with
      | some .back => walkWith call p rs
      | fate => fate
    else walkWith call p rs

/-- The fate of a packet in a list of rules from which chains are called up to a depth; `none` if they are called more
deeply, or if there is no such chain. -/
def walk (T : Table M C) (p : P) : Nat → List (Rule M C) → Option Fate
  | 0 => walkWith hits (fun _ => none) p
  | depth + 1 => walkWith hits (fun c => (T c).bind (walk T p depth)) p

variable {hits} {call : C → Option Fate} {p : P} {rs : List (Rule M C)}

private theorem walkWith_eq_back (h : ∀ r ∈ rs, hits r.cond p = false) : walkWith hits call p rs = some .back := by
  induction rs with
  | nil => rfl
  | cons r rs ih =>
    rw [List.forall_mem_cons] at h
    rw [walkWith, h.1, if_neg Bool.false_ne_true]
    exact ih h.2

/-- If all rules that match have the same fate, and one does match, the packet has that fate. -/
theorem walkWith_of_forall {fate : Fate} (hfate : fate ≠ .back)
    (h : ∀ r ∈ rs, hits r.cond p = true → r.target.fate call = some fate) (hex : ∃ r ∈ rs, hits r.cond p = true) :
    walkWith hits call p rs = some fate := by
  induction rs with
  | nil => simp at hex
  | cons r rs ih =>
    rw [List.forall_mem_cons] at h
    by_cases hr : hits r.cond p = true
    · rw [walkWith, if_pos hr, h.1 hr]
      cases fate with
      | back => exact absurd rfl hfate
      | _ => rfl
    · rw [walkWith, if_neg hr]
      obtain ⟨r', hmem, hr'⟩ := hex
      rcases List.mem_cons.1 hmem with rfl | hmem
      · exact absurd hr' hr
      · exact ih h.2 ⟨r', hmem, hr'⟩

/-- No accepting rule stands behind a rule of another kind. -/
def AcceptFirst (rs : List (Rule M C)) : Prop := rs.Pairwise fun r r' => r'.target = .accept → r.target = .accept

/-- Where the accepting rules come first, one that matches decides. -/
theorem walkWith_accept (hrs : AcceptFirst rs) (hex : ∃ r ∈ rs, r.target = .accept ∧ hits r.cond p = true) :
    walkWith hits call p rs = some .accept := by
  induction rs with
  | nil => simp at hex
  | cons r rs ih =>
    obtain ⟨hr, hrest⟩ := List.pairwise_cons.1 hrs
    obtain ⟨r', hmem, hacc, hhit⟩ := hex
    rw [walkWith]
    rcases List.mem_cons.1 hmem with rfl | hmem
    · rw [if_pos hhit, hacc]
      rfl
    · have hfirst : r.target = .accept := hr r' hmem hacc
      split
      · rw [hfirst]
        rfl
      · exact ih hrest ⟨r', hmem, hacc, hhit⟩

/-- A list of accepting rules accepts a packet or hands it back. -/
theorem walkWith_of_accepting (h : ∀ r ∈ rs, r.target = .accept) :
    walkWith hits call p rs = some (if ∃ r ∈ rs, hits r.cond p = true then .accept else .back) := by
  split
  · rename_i hex
    exact walkWith_of_forall (by simp) (fun r hr _ => by rw [h r hr]; rfl) hex
  · rename_i hnone
    refine walkWith_eq_back fun r hr => ?_
    simpa using fun hhit => hnone ⟨r, hr, hhit⟩

end Walk

/-! ### Commands -/

inductive Op (S C : Type) where
  /-- Make a chain, which must not be there. -/
  | new (chain : C)
  | flush (chain : C)
  | append (chain : C) (rule : S)
  /-- Insert a rule as the first one; the number says whether its place is written out. -/
  | insert (chain : C) (rulenum : Bool) (rule : S)
  /-- Delete the first rule with the meaning of this one. -/
  | delete (chain : C) (rule : S)
  | check (chain : C) (rule : S)
  /-- Delete a chain, which must be empty and the target of no rule. -/
  | deleteChain (chain : C)
  deriving DecidableEq

/-- The commands of a script that is applied as a whole; adding a chain that is there does nothing. -/
inductive ScriptOp (S C : Type) where
  | addChain (chain : C)
  | flushChain (chain : C)
  | addRule (chain : C) (rule : S)
  | deleteChain (chain : C)
  deriving DecidableEq

section Ops

variable {S M C : Type} [DecidableEq M] [DecidableEq C] [Fintype C] (mean : S → Rule M C)

/-- The chain that a rule calls is there. -/
def Table.hasTarget (T : Table M C) : Target C → Bool
  | .jump c => (T c).isSome
  | _ => true

/-- A rule of some chain calls this one. -/
def Table.IsReferenced (T : Table M C) (chain : C) : Prop :=
  ∃ c, ∃ r ∈ (T c).getD [], r.target = .jump chain

instance (T : Table M C) (chain : C) : Decidable (T.IsReferenced chain) :=
  inferInstanceAs (Decidable (∃ c, ∃ r ∈ (T c).getD [], r.target = .jump chain))

/-- What a command makes of a table; `none` if it fails. -/
def Op.apply (T : Table M C) : Op S C → Option (Table M C)
  | .new c => if (T c).isSome then none else some (Function.update T c (some []))
  | .flush c => (T c).map fun _ => Function.update T c (some [])
  | .append c s =>
    if T.hasTarget (mean s).target then (T c).map fun rs => Function.update T c (some (rs ++ [mean s])) else none
  | .insert c _ s =>
    if T.hasTarget (mean s).target then (T c).map fun rs => Function.update T c (some (mean s :: rs)) else none
  | .delete c s =>
    (T c).bind fun rs => if mean s ∈ rs then some (Function.update T c (some (rs.erase (mean s)))) else none
  | .check c s => (T c).bind fun rs => if mean s ∈ rs then some T else none
  | .deleteChain c => if T c = some [] ∧ ¬ T.IsReferenced c then some (Function.update T c none) else none

/-- `a || true` -/
def orTrue (T : Table M C) (op : Op S C) : Table M C := (op.apply mean T).getD T

/-- `a || b` -/
def orElse (T : Table M C) (a b : Op S C) : Option (Table M C) := (a.apply mean T).orElse fun _ => b.apply mean T

/-- Put an element at the end of a list unless it is in it. -/
def ensureLast {α : Type} [DecidableEq α] (rs : List α) (r : α) : List α := if r ∈ rs then rs else rs ++ [r]

/-- What a command of a script makes of a table. -/
def ScriptOp.apply (T : Table M C) : ScriptOp S C → Option (Table M C)
  | .addChain c => some (orTrue mean T (.new c))
  | .flushChain c => Op.apply mean T (.flush c)
  | .addRule c s => Op.apply mean T (.append c s)
  | .deleteChain c => Op.apply mean T (.deleteChain c)

/-- A script changes nothing if one of its commands fails. -/
def script (T : Table M C) (ops : List (ScriptOp S C)) : Option (Table M C) := ops.foldlM (ScriptOp.apply mean) T

variable {mean} {T : Table M C} {c : C} {s : S} {rs : List (Rule M C)}

/-- The chain that a command works on. -/
def Op.chain : Op S C → C
  | .new c | .flush c | .append c _ | .insert c _ _ | .delete c _ | .check c _ | .deleteChain c => c

/-- A command changes only its own chain. -/
theorem Op.apply_of_ne {op : Op S C} {T' : Table M C} (h : op.apply mean T = some T') (hc : c ≠ op.chain) :
    T' c = T c := by
  cases op with
  | new c' =>
    obtain ⟨-, ⟨⟩⟩ := Option.ite_none_left_eq_some.1 h
    exact Function.update_of_ne hc _ _
  | flush c' =>
    obtain ⟨_, -, rfl⟩ := Option.map_eq_some_iff.1 h
    exact Function.update_of_ne hc _ _
  | append c' s =>
    obtain ⟨-, hmap⟩ := Option.ite_none_right_eq_some.1 h
    obtain ⟨_, -, rfl⟩ := Option.map_eq_some_iff.1 hmap
    exact Function.update_of_ne hc _ _
  | insert c' num s =>
    obtain ⟨-, hmap⟩ := Option.ite_none_right_eq_some.1 h
    obtain ⟨_, -, rfl⟩ := Option.map_eq_some_iff.1 hmap
    exact Function.update_of_ne hc _ _
  | delete c' s =>
    obtain ⟨_, -, hite⟩ := Option.bind_eq_some_iff.1 h
    obtain ⟨-, ⟨⟩⟩ := Option.ite_none_right_eq_some.1 hite
    exact Function.update_of_ne hc _ _
  | check c' s =>
    obtain ⟨_, -, hite⟩ := Option.bind_eq_some_iff.1 h
    obtain ⟨-, ⟨⟩⟩ := Option.ite_none_right_eq_some.1 hite
    rfl
  | deleteChain c' =>
    obtain ⟨-, ⟨⟩⟩ := Option.ite_none_right_eq_some.1 h
    exact Function.update_of_ne hc _ _

theorem orTrue_of_ne {op : Op S C} (hc : c ≠ op.chain) : orTrue mean T op c = T c := by
  rw [orTrue]
  cases h : op.apply mean T with
  | none => rfl
  | some T' => exact Op.apply_of_ne h hc

/-- A chain that is there is kept as it is. -/
theorem orTrue_new : orTrue mean T (.new c) = Function.update T c (some ((T c).getD [])) := by
  rw [orTrue, Op.apply]
  cases hc : T c with
  | none => rfl
  | some rs =>
    rw [Option.isSome_some, if_pos rfl, Option.getD_none, Option.getD_some, ← hc, Function.update_eq_self]

/-- A rule is deleted if it is there. -/
theorem orTrue_delete (h : T c = some rs) :
    orTrue mean T (.delete c s) = Function.update T c (some (rs.erase (mean s))) := by
  rw [orTrue, Op.apply, h, Option.bind_some]
  split
  · rfl
  · rename_i hnot
    rw [List.erase_of_not_mem hnot, ← h, Function.update_eq_self]
    rfl

/-- A rule is inserted unless it is there. -/
theorem orElse_insert {num : Bool} (h : T c = some rs) (ht : T.hasTarget (mean s).target = true) :
    orElse mean T (.check c s) (.insert c num s) = some (Function.update T c (some (rs.insert (mean s)))) := by
  simp only [orElse, Op.apply, h, ht, Option.bind_some, Option.map_some, if_true]
  by_cases hmem : mean s ∈ rs
  · rw [if_pos hmem, List.insert_of_mem hmem, ← h, Function.update_eq_self]
    rfl
  · rw [if_neg hmem, List.insert_of_not_mem hmem]
    rfl

/-- A rule is appended unless it is there. -/
theorem orElse_append (h : T c = some rs) (ht : T.hasTarget (mean s).target = true) :
    orElse mean T (.check c s) (.append c s) = some (Function.update T c (some (ensureLast rs (mean s)))) := by
  simp only [orElse, Op.apply, h, ht, Option.bind_some, Option.map_some, if_true, ensureLast]
  by_cases hmem : mean s ∈ rs
  · rw [if_pos hmem, if_pos hmem, ← h, Function.update_eq_self]
    rfl
  · rw [if_neg hmem, if_neg hmem]
    rfl

/-- A script of rules for one chain. -/
theorem script_addRules (h : T c = some rs) {specs : List S}
    (ht : ∀ s ∈ specs, T.hasTarget (mean s).target = true) :
    script mean T (specs.map (.addRule c)) = some (Function.update T c (some (rs ++ specs.map mean))) := by
  induction specs generalizing T rs with
  | nil =>
    rw [List.map_nil, List.map_nil, List.append_nil, ← h, Function.update_eq_self]
    rfl
  | cons s specs ih =>
    rw [List.forall_mem_cons] at ht
    have hfirst : ScriptOp.apply mean T (.addRule c s) = some (Function.update T c (some (rs ++ [mean s]))) := by
      simp only [ScriptOp.apply, Op.apply, ht.1, h, if_true, Option.map_some]
    have htarget : ∀ t : Target C, T.hasTarget t = true →
        Table.hasTarget (Function.update T c (some (rs ++ [mean s]))) t = true := by
      intro t hasT
      cases t with
      | jump c' =>
        by_cases hc : c' = c
        · subst hc
          simp [Table.hasTarget]
        · simpa [Table.hasTarget, Function.update_of_ne hc] using hasT
      | _ => rfl
    have hrest := ih (T := Function.update T c (some (rs ++ [mean s]))) (Function.update_self ..)
      fun s' hs' => htarget _ (ht.2 s' hs')
    rw [script] at hrest ⊢
    rw [List.map_cons, List.foldlM_cons, hfirst]
    refine hrest.trans ?_
    rw [Function.update_idem, List.append_assoc, List.map_cons]
    rfl

end Ops

/-! ### Rules that come and go -/

section Lists

variable {α : Type} [DecidableEq α]

private theorem mem_ensureLast {rs : List α} {r a : α} : a ∈ ensureLast rs r ↔ a ∈ rs ∨ a = r := by
  rw [ensureLast]
  split
  · rename_i hmem
    exact ⟨Or.inl, fun h => h.elim id fun heq => heq ▸ hmem⟩
  · simp

private theorem nodup_ensureLast {rs : List α} (h : rs.Nodup) (r : α) : (ensureLast rs r).Nodup := by
  rw [ensureLast]
  split
  · exact h
  · rename_i hmem
    exact List.nodup_append.2 ⟨h, by simp, by simpa using fun a ha (heq : a = r) => hmem (heq ▸ ha)⟩

theorem mem_foldl_ensureLast {new rs : List α} {a : α} : a ∈ new.foldl ensureLast rs ↔ a ∈ rs ∨ a ∈ new := by
  induction new generalizing rs with
  | nil => simp
  | cons r new ih => rw [List.foldl_cons, ih, mem_ensureLast, List.mem_cons, or_assoc]

theorem nodup_foldl_ensureLast {new rs : List α} (h : rs.Nodup) : (new.foldl ensureLast rs).Nodup := by
  induction new generalizing rs with
  | nil => exact h
  | cons r new ih => exact ih (nodup_ensureLast h r)

theorem mem_foldl_insert {new rs : List α} {a : α} :
    a ∈ new.foldl (fun rs r => rs.insert r) rs ↔ a ∈ rs ∨ a ∈ new := by
  induction new generalizing rs with
  | nil => simp
  | cons r new ih => rw [List.foldl_cons, ih, List.mem_insert_iff, List.mem_cons, or_assoc, or_left_comm]

theorem nodup_foldl_insert {new rs : List α} (h : rs.Nodup) : (new.foldl (fun rs r => rs.insert r) rs).Nodup := by
  induction new generalizing rs with
  | nil => exact h
  | cons r new ih => exact ih h.insert

/-- What is chosen of a list by a property of the new elements. -/
theorem filter_foldl_insert {q : α → Bool} {new : List α} (rs : List α) (h : ∀ r ∈ new, q r = true) :
    (new.foldl (fun rs r => rs.insert r) rs).filter q = new.foldl (fun rs r => rs.insert r) (rs.filter q) := by
  induction new generalizing rs with
  | nil => rfl
  | cons r new ih =>
    rw [List.forall_mem_cons] at h
    rw [List.foldl_cons, List.foldl_cons, ih _ h.2]
    congr 1
    by_cases hmem : r ∈ rs
    · rw [List.insert_of_mem hmem, List.insert_of_mem (List.mem_filter.2 ⟨hmem, h.1⟩)]
    · rw [List.insert_of_not_mem hmem, List.insert_of_not_mem (fun hf => hmem (List.mem_filter.1 hf).1),
        List.filter_cons_of_pos h.1]

theorem filter_foldl_ensureLast {q : α → Bool} {new : List α} (rs : List α) (h : ∀ r ∈ new, q r = true) :
    (new.foldl ensureLast rs).filter q = new.foldl ensureLast (rs.filter q) := by
  induction new generalizing rs with
  | nil => rfl
  | cons r new ih =>
    rw [List.forall_mem_cons] at h
    rw [List.foldl_cons, List.foldl_cons, ih _ h.2]
    congr 1
    by_cases hmem : r ∈ rs
    · rw [ensureLast, if_pos hmem, ensureLast, if_pos (List.mem_filter.2 ⟨hmem, h.1⟩)]
    · rw [ensureLast, if_neg hmem, ensureLast, if_neg (fun hf => hmem (List.mem_filter.1 hf).1), List.filter_append,
        List.filter_cons_of_pos h.1, List.filter_nil]

theorem filter_diff {q : α → Bool} {old rs : List α} : (rs.diff old).filter q = (rs.filter q).diff old := by
  induction old generalizing rs with
  | nil => rfl
  | cons r old ih => rw [List.diff_cons, List.diff_cons, ih, List.erase_filter]

end Lists

section AcceptFirst

variable {M C : Type} [DecidableEq M] [DecidableEq C] {new rs : List (Rule M C)}

theorem AcceptFirst.foldl_insert (h : AcceptFirst rs) (hnew : ∀ r ∈ new, r.target = .accept) :
    AcceptFirst (new.foldl (fun rs r => rs.insert r) rs) := by
  induction new generalizing rs with
  | nil => exact h
  | cons r new ih =>
    rw [List.forall_mem_cons] at hnew
    have hins : AcceptFirst (rs.insert r) := by
      by_cases hmem : r ∈ rs
      · rwa [List.insert_of_mem hmem]
      · rw [List.insert_of_not_mem hmem]
        exact List.pairwise_cons.2 ⟨fun _ _ _ => hnew.1, h⟩
    exact ih hins hnew.2

theorem AcceptFirst.foldl_ensureLast (h : AcceptFirst rs) (hnew : ∀ r ∈ new, r.target ≠ .accept) :
    AcceptFirst (new.foldl ensureLast rs) := by
  induction new generalizing rs with
  | nil => exact h
  | cons r new ih =>
    rw [List.forall_mem_cons] at hnew
    refine ih ?_ hnew.2
    rw [ensureLast]
    split
    · exact h
    · refine List.pairwise_append.2 ⟨h, List.pairwise_singleton _ _, fun a _ b hb hacc => ?_⟩
      exact absurd (List.mem_singleton.1 hb ▸ hacc) hnew.1

theorem AcceptFirst.diff (h : AcceptFirst rs) (old : List (Rule M C)) : AcceptFirst (rs.diff old) :=
  h.sublist (List.diff_sublist rs old)

end AcceptFirst

end Netfilter
