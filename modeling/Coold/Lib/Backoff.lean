import Mathlib.Data.List.DropRight
import Mathlib.Tactic.Ring

/-!
# Capped exponential backoff

A loop that makes attempts waits between them.  The delay starts at `start`, and what an attempt came to, its
`Verdict`, says how long to wait after it and what the next delay is: after a failure the delay is waited and doubled,
never beyond `cap`; a reset waits something of its own and starts over; a hold waits something of its own and goes on
from there.

`after d vs` is the delay after the verdicts `vs` and `waits d vs` is what was waited.  The delay stays between `start`
and `cap` (`after_mem`), it depends only on what came since the last reset (`after_eq`), and what is waited adds up
(`mul_length_le_sum_waits`).
-/

namespace Backoff

inductive Verdict where
  | failed
  | reset (wait : Nat)
  | held (wait : Nat)
  deriving DecidableEq

def Verdict.isReset : Verdict → Bool
  | .reset _ => true
  | _ => false

/-- The least and the greatest delay. -/
structure Policy where
  start : Nat
  cap : Nat
  start_pos : 0 < start
  start_le_cap : start ≤ cap

namespace Policy

variable (p : Policy)

/-- The delay after one of `d`. -/
def next (d : Nat) : Nat := min (d * 2) p.cap

/-- What is waited, and the delay after it. -/
def step (d : Nat) : Verdict → Nat × Nat
  | .failed => (d, p.next d)
  | .reset wait => (wait, p.start)
  | .held wait => (wait, p.next wait)

def after (d : Nat) (vs : List Verdict) : Nat := vs.foldl (fun d v => (p.step d v).2) d

def waits : Nat → List Verdict → List Nat
  | _, [] => []
  | d, v :: vs => (p.step d v).1 :: waits (p.step d v).2 vs

variable {p}

@[simp] theorem after_nil (d : Nat) : p.after d [] = d := rfl

private theorem after_append (d : Nat) (vs ws : List Verdict) : p.after d (vs ++ ws) = p.after (p.after d vs) ws :=
  List.foldl_append

theorem after_concat (d : Nat) (vs : List Verdict) (v : Verdict) :
    p.after d (vs ++ [v]) = (p.step (p.after d vs) v).2 := after_append d vs [v]

/-- The wait after a verdict is decided by the delay before it. -/
theorem waits_getElem? (d : Nat) (vs : List Verdict) (v : Verdict) (rest : List Verdict) :
    (p.waits d (vs ++ v :: rest))[vs.length]? = some (p.step (p.after d vs) v).1 := by
  induction vs generalizing d with
  | nil => rfl
  | cons w vs ih => exact ih _

@[simp] theorem length_waits (d : Nat) (vs : List Verdict) : (p.waits d vs).length = vs.length := by
  induction vs generalizing d with
  | nil => rfl
  | cons v vs ih => simp only [waits, List.length_cons, ih]

/-! ### Bounds -/

private theorem next_le (d : Nat) : p.next d ≤ p.cap := min_le_right _ _

private theorem start_le_next {d : Nat} (h : p.start ≤ d) : p.start ≤ p.next d := by
  have hcap := p.start_le_cap
  rw [next, le_min_iff]
  omega

/-- A delay within its bounds. -/
def Within (p : Policy) (d : Nat) : Prop := p.start ≤ d ∧ d ≤ p.cap

theorem within_start : p.Within p.start := ⟨le_refl _, p.start_le_cap⟩

/-- Holds that wait at least `start`. -/
def HoldsFrom (lo : Nat) (vs : List Verdict) : Prop := ∀ wait, Verdict.held wait ∈ vs → lo ≤ wait

private theorem within_step {d : Nat} {v : Verdict} (hd : p.Within d) (hv : ∀ wait, v = .held wait → p.start ≤ wait) :
    p.Within (p.step d v).2 := by
  cases v with
  | failed => exact ⟨start_le_next hd.1, next_le d⟩
  | reset wait => exact within_start
  | held wait => exact ⟨start_le_next (hv wait rfl), next_le wait⟩

theorem after_mem {d : Nat} {vs : List Verdict} (hd : p.Within d) (hvs : HoldsFrom p.start vs) :
    p.Within (p.after d vs) := by
  induction vs generalizing d with
  | nil => exact hd
  | cons v vs ih =>
    refine ih (within_step hd fun wait hv => hvs wait (hv ▸ List.mem_cons_self)) fun wait hmem => ?_
    exact hvs wait (List.mem_cons_of_mem v hmem)

/-- What is waited is a delay within the bounds, or what a verdict says itself. -/
theorem mem_waits {d : Nat} {vs : List Verdict} (hd : p.Within d) (hvs : HoldsFrom p.start vs) {wait : Nat}
    (h : wait ∈ p.waits d vs) : p.Within wait ∨ .reset wait ∈ vs ∨ .held wait ∈ vs := by
  induction vs generalizing d with
  | nil => cases h
  | cons v vs ih =>
    have htail : HoldsFrom p.start vs := fun wait hmem => hvs wait (List.mem_cons_of_mem v hmem)
    rcases List.mem_cons.1 h with rfl | h
    · cases v with
      | failed => exact Or.inl hd
      | reset wait => exact Or.inr (Or.inl List.mem_cons_self)
      | held wait => exact Or.inr (Or.inr List.mem_cons_self)
    · have hstep : p.Within (p.step d v).2 := within_step hd fun wait hv => hvs wait (hv ▸ List.mem_cons_self)
      rcases ih hstep htail h with hwithin | hreset | hheld
      · exact Or.inl hwithin
      · exact Or.inr (Or.inl (List.mem_cons_of_mem v hreset))
      · exact Or.inr (Or.inr (List.mem_cons_of_mem v hheld))

/-- A loop that waits at least `lo` after every attempt makes few of them. -/
theorem mul_length_le_sum_waits {d lo : Nat} {vs : List Verdict} (h : ∀ wait ∈ p.waits d vs, lo ≤ wait) :
    lo * vs.length ≤ (p.waits d vs).sum := by
  induction vs generalizing d with
  | nil => exact Nat.le_refl 0
  | cons v vs ih =>
    have hhead : lo ≤ (p.step d v).1 := h _ List.mem_cons_self
    have htail := ih fun wait hmem => h wait (List.mem_cons_of_mem _ hmem)
    rw [waits, List.sum_cons, List.length_cons, Nat.mul_succ]
    omega

/-! ### What the delay depends on -/

private theorem next_mul {k : Nat} : p.next (min (p.start * 2 ^ k) p.cap) = min (p.start * 2 ^ (k + 1)) p.cap := by
  rw [next, pow_succ, ← Nat.mul_assoc]
  omega

private theorem next_eq_cap {d : Nat} (h : p.cap ≤ d * 2) : p.next d = p.cap := min_eq_right h

/-- The delay after the verdicts since the last reset, where every hold leads to the greatest delay. -/
theorem after_eq {vs : List Verdict} (hvs : ∀ wait, .held wait ∈ vs → p.cap ≤ wait * 2) :
    p.after p.start vs =
      if (vs.rtakeWhile fun v => !v.isReset).all (· = .failed) then
        min (p.start * 2 ^ (vs.rtakeWhile fun v => !v.isReset).length) p.cap
      else p.cap := by
  induction vs using List.reverseRecOn with
  | nil =>
    simp [p.start_le_cap]
  | append_singleton vs v ih =>
    have ih := ih fun wait hmem => hvs wait (List.mem_append_left _ hmem)
    rw [after_concat]
    cases v with
    | reset wait =>
      rw [List.rtakeWhile_concat_neg _ _ _ (by simp [Verdict.isReset])]
      simp [step, p.start_le_cap]
    | failed =>
      rw [List.rtakeWhile_concat_pos _ _ _ (by simp [Verdict.isReset]), List.all_append, List.length_append]
      show p.next (p.after p.start vs) = _
      rw [ih]
      split
      · rename_i hall
        rw [if_pos (by simpa using hall)]
        exact next_mul
      · rename_i hall
        rw [if_neg (by simpa using hall)]
        exact next_eq_cap (by omega)
    | held wait =>
      rw [List.rtakeWhile_concat_pos _ _ _ (by simp [Verdict.isReset]), List.all_append]
      rw [if_neg (by simp)]
      exact next_eq_cap (hvs wait (List.mem_append_right _ (List.mem_singleton_self _)))

end Policy

end Backoff
