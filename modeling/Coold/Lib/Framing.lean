import Mathlib.Data.List.Basic

/-!
# Splitting a stream that arrives in parts

`List.splitOn` of a list is the pieces that a separator has ended (`ended`) and the piece after the last separator
(`unfinished`).  When the list goes on, the ended pieces stay and the unfinished one is split together with what follows
(`ended_append`, `unfinished_append`), so a reader that keeps only the unfinished piece splits the whole stream.
-/

namespace Framing

variable {α : Type*} [DecidableEq α] (sep : α)

def ended (l : List α) : List (List α) := (l.splitOn sep).dropLast

def unfinished (l : List α) : List α := (l.splitOn sep).getLastD []

private theorem splitOn_eq (l : List α) : l.splitOn sep = ended sep l ++ [unfinished sep l] := by
  have hne : l.splitOn sep ≠ [] := List.splitOn_ne_nil sep l
  rw [ended, unfinished, List.getLastD_eq_getLast?, List.getLast?_eq_some_getLast hne, Option.getD_some,
    List.dropLast_concat_getLast]

variable {sep}

/-- A list has no separator, or it is a first piece with a separator and the rest. -/
theorem line_induction (sep : α) {P : List α → Prop} (last : ∀ l, sep ∉ l → P l)
    (line : ∀ l rest, sep ∉ l → P rest → P (l ++ sep :: rest)) (l : List α) : P l := by
  induction h : l.length using Nat.strongRecOn generalizing l with
  | _ n ih =>
    by_cases hsep : sep ∈ l
    · obtain ⟨first, rest, rfl, hfirst⟩ := List.eq_append_cons_of_mem hsep
      rw [List.length_append, List.length_cons] at h
      exact line first rest hfirst (ih rest.length (by omega) rest rfl)
    · exact last l hsep

theorem ended_of_notMem {l : List α} (h : sep ∉ l) : ended sep l = [] := by
  rw [ended, List.splitOn_eq_singleton h]
  rfl

theorem unfinished_of_notMem {l : List α} (h : sep ∉ l) : unfinished sep l = l := by
  rw [unfinished, List.splitOn_eq_singleton h]
  rfl

theorem ended_line {l : List α} (h : sep ∉ l) (rest : List α) : ended sep (l ++ sep :: rest) = l :: ended sep rest := by
  rw [ended, List.splitOn_append_cons_self_of_not_mem h, ended,
    List.dropLast_cons_of_ne_nil (List.splitOn_ne_nil sep rest)]

theorem unfinished_line {l : List α} (h : sep ∉ l) (rest : List α) :
    unfinished sep (l ++ sep :: rest) = unfinished sep rest := by
  have hsplit : (l ++ sep :: rest).splitOn sep = (l :: ended sep rest) ++ [unfinished sep rest] := by
    rw [List.splitOn_append_cons_self_of_not_mem h, splitOn_eq, List.cons_append]
  rw [unfinished, hsplit, List.getLastD_concat]

/-- What follows is read together with the unfinished piece. -/
theorem ended_append (l l' : List α) : ended sep (l ++ l') = ended sep l ++ ended sep (unfinished sep l ++ l') := by
  induction l using line_induction sep with
  | last l h => rw [ended_of_notMem h, unfinished_of_notMem h, List.nil_append]
  | line l rest h ih =>
    rw [List.append_assoc, List.cons_append, ended_line h, ended_line h, unfinished_line h, ih, List.cons_append]

theorem unfinished_append (l l' : List α) : unfinished sep (l ++ l') = unfinished sep (unfinished sep l ++ l') := by
  induction l using line_induction sep with
  | last l h => rw [unfinished_of_notMem h]
  | line l rest h ih =>
    rw [List.append_assoc, List.cons_append, unfinished_line h, unfinished_line h, ih]

theorem splitOn_append (l l' : List α) :
    (l ++ l').splitOn sep = ended sep l ++ (unfinished sep l ++ l').splitOn sep := by
  rw [splitOn_eq, splitOn_eq sep (unfinished sep l ++ l'), ended_append, unfinished_append, List.append_assoc]

theorem notMem_unfinished (sep : α) (l : List α) : sep ∉ unfinished sep l := by
  induction l using line_induction sep with
  | last l h => rwa [unfinished_of_notMem h]
  | line l rest h ih => rwa [unfinished_line h]

end Framing
