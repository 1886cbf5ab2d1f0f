import Mathlib.Logic.Basic

/-!
# Labelled transition systems

A system is a partial step function `step : σ → ι → Option σ`: the label says which thread moves and how, and a
label that is not enabled gives `none`.  `run` follows a list of labels, `Along P` says that `P` holds of the
state before and the label of every step of a run, and `Always Q` that `Q` holds in every state of a run.

The rules: an invariant of the steps that meet a condition holds after every run all of whose steps meet it
(`invariant`), it may be used at every step of such a run (`along_mono`), a property that a step keeps exactly when it
meets a condition holds all along a run exactly when all its steps do (`always_iff_along_of_along`), a run with at
most one step of a kind is before that step or past the last of its kind (`AtMostOnce.before_or_after`), and a run of
a system that projects step by step onto another is a run of the other (`exists_run_of_project`).
-/

namespace Lts

section Run

variable {σ ι : Type*} (step : σ → ι → Option σ)

/-- The state after the labels of a list, if every one of them is enabled. -/
def run : σ → List ι → Option σ
  | s, [] => some s
  | s, a :: tr => (step s a).bind fun s' => run s' tr

/-- `P` holds of the state before and the label of every step of the run. -/
def Along (P : σ → ι → Prop) : σ → List ι → Prop
  | _, [] => True
  | s, a :: tr => P s a ∧ ∀ s', step s a = some s' → Along P s' tr

/-- `Q` holds in every state of the run, the first and the last one included. -/
def Always (Q : σ → Prop) : σ → List ι → Prop
  | s, [] => Q s
  | s, a :: tr => Q s ∧ ∀ s', step s a = some s' → Always Q s' tr

/-- At most one step of the run meets `P`. -/
def AtMostOnce (P : σ → ι → Prop) : σ → List ι → Prop
  | _, [] => True
  | s, a :: tr => ∀ s', step s a = some s' →
      (P s a → Along step (fun s a => ¬ P s a) s' tr) ∧ AtMostOnce P s' tr

variable {step}

instance decidableAlong {P : σ → ι → Prop} [∀ s a, Decidable (P s a)] : ∀ s tr, Decidable (Along step P s tr)
  | _, [] => isTrue trivial
  | s, a :: tr =>
    match h : step s a with
    | none => decidable_of_iff (P s a) ⟨fun hp => ⟨hp, fun s' hs' => by rw [h] at hs'; cases hs'⟩, And.left⟩
    | some s₁ =>
      have := decidableAlong (P := P) s₁ tr
      decidable_of_iff (P s a ∧ Along step P s₁ tr)
        ⟨fun hp => ⟨hp.1, fun s' hs' => Option.some.inj (h.symm.trans hs') ▸ hp.2⟩, fun hp => ⟨hp.1, hp.2 s₁ h⟩⟩

@[simp] theorem run_nil (s : σ) : run step s [] = some s := rfl

theorem run_cons_eq_some {s s' : σ} {a : ι} {tr : List ι} :
    run step s (a :: tr) = some s' ↔ ∃ s₁, step s a = some s₁ ∧ run step s₁ tr = some s' := by
  simp [run, Option.bind_eq_some_iff]

theorem run_append_eq_some {s s' : σ} {t u : List ι} :
    run step s (t ++ u) = some s' ↔ ∃ s₁, run step s t = some s₁ ∧ run step s₁ u = some s' := by
  induction t generalizing s with
  | nil => simp
  | cons a t ih =>
    simp only [List.cons_append, run_cons_eq_some, ih]
    constructor
    · rintro ⟨s₁, h₁, s₂, h₂, h₃⟩
      exact ⟨s₂, ⟨s₁, h₁, h₂⟩, h₃⟩
    · rintro ⟨s₂, ⟨s₁, h₁, h₂⟩, h₃⟩
      exact ⟨s₁, h₁, s₂, h₂, h₃⟩

/-- A property that every step meeting `P` keeps holds at the end of a run all of whose steps meet `P`. -/
theorem invariant {I : σ → Prop} {P : σ → ι → Prop}
    (hstep : ∀ s a s', I s → P s a → step s a = some s' → I s') {s s' : σ} {tr : List ι}
    (h0 : I s) (hP : Along step P s tr) (hr : run step s tr = some s') : I s' := by
  induction tr generalizing s with
  | nil =>
    simp only [run_nil, Option.some.injEq] at hr
    exact hr ▸ h0
  | cons a tr ih =>
    obtain ⟨s₁, h₁, h₂⟩ := run_cons_eq_some.1 hr
    exact ih (hstep s a s₁ h0 hP.1 h₁) (hP.2 s₁ h₁) h₂

theorem along_true (s : σ) (tr : List ι) : Along step (fun _ _ => True) s tr := by
  induction tr generalizing s with
  | nil => trivial
  | cons a tr ih => exact ⟨trivial, fun s' _ => ih s'⟩

/-- The form of `invariant` for a property that every step keeps. -/
theorem invariant_of_step {I : σ → Prop} (hstep : ∀ s a s', I s → step s a = some s' → I s')
    {s s' : σ} {tr : List ι} (h0 : I s) (hr : run step s tr = some s') : I s' :=
  invariant (P := fun _ _ => True) (fun s a s' hs _ => hstep s a s' hs) h0 (along_true s tr) hr

/-- At every step of a run the invariant of the steps before it may be used. -/
theorem along_mono {I : σ → Prop} {P P' : σ → ι → Prop}
    (hstep : ∀ s a s', I s → P s a → step s a = some s' → I s')
    (hP : ∀ s a, I s → P s a → P' s a) {s : σ} {tr : List ι} (h0 : I s) (h : Along step P s tr) :
    Along step P' s tr := by
  induction tr generalizing s with
  | nil => trivial
  | cons a tr ih =>
    refine ⟨hP s a h0 h.1, fun s' hs' => ?_⟩
    exact ih (hstep s a s' h0 h.1 hs') (h.2 s' hs')

/-- What holds in every state of a run holds at its end. -/
theorem Always.last {Q : σ → Prop} {s s' : σ} {tr : List ι} (h : Always step Q s tr)
    (hr : run step s tr = some s') : Q s' := by
  induction tr generalizing s with
  | nil =>
    simp only [run_nil, Option.some.injEq] at hr
    exact hr ▸ h
  | cons a tr ih =>
    obtain ⟨s₁, h₁, h₂⟩ := run_cons_eq_some.1 hr
    exact ih (h.2 s₁ h₁) h₂

theorem Always.head {Q : σ → Prop} {s : σ} {tr : List ι} (h : Always step Q s tr) : Q s := by
  cases tr with
  | nil => exact h
  | cons a tr => exact h.1

theorem Always.mono {Q Q' : σ → Prop} (hQ : ∀ s, Q s → Q' s) {s : σ} {tr : List ι} (h : Always step Q s tr) :
    Always step Q' s tr := by
  induction tr generalizing s with
  | nil => exact hQ s h
  | cons a tr ih => exact ⟨hQ s h.1, fun s' hs' => ih (h.2 s' hs')⟩

theorem along_cons {P : σ → ι → Prop} {s s₁ : σ} {a : ι} {tr : List ι} (h : step s a = some s₁) :
    Along step P s (a :: tr) ↔ P s a ∧ Along step P s₁ tr := by
  refine and_congr_right fun _ => ⟨fun hall => hall s₁ h, fun hrest s' hs' => ?_⟩
  exact Option.some.inj (h.symm.trans hs') ▸ hrest

/-- What follows from an invariant of the steps that meet `P` holds in every state of a run all of whose steps do. -/
theorem always_of_along {I Q : σ → Prop} {P : σ → ι → Prop}
    (hstep : ∀ s a s', I s → P s a → step s a = some s' → I s') (hQ : ∀ s, I s → Q s) {s : σ} {tr : List ι}
    (h0 : I s) (h : Along step P s tr) : Always step Q s tr := by
  induction tr generalizing s with
  | nil => exact hQ s h0
  | cons a tr ih => exact ⟨hQ s h0, fun s' hs' => ih (hstep s a s' h0 h.1 hs') (h.2 s' hs')⟩

/-- What a step keeps as long as `C` holds after it is kept by a run in all of whose states `C` holds. -/
theorem Always.of_always {A : ι → Prop} {C I : σ → Prop}
    (hstep : ∀ s a s', A a → C s' → I s → step s a = some s' → I s') {s : σ} {tr : List ι}
    (hA : ∀ a ∈ tr, A a) (hC : Always step C s tr) (h0 : I s) : Always step I s tr := by
  induction tr generalizing s with
  | nil => exact h0
  | cons a tr ih =>
    refine ⟨h0, fun s' hs' => ?_⟩
    have hrest := hC.2 s' hs'
    have hI : I s' := hstep s a s' (hA a (List.mem_cons_self ..)) hrest.head h0 hs'
    exact ih (fun b hb => hA b (List.mem_cons_of_mem _ hb)) hrest hI

private theorem Along.append_left {P : σ → ι → Prop} {s : σ} {t u : List ι} (h : Along step P s (t ++ u)) :
    Along step P s t := by
  induction t generalizing s with
  | nil => trivial
  | cons a t ih => exact ⟨h.1, fun s' hs' => ih (h.2 s' hs')⟩

private theorem Along.append_right {P : σ → ι → Prop} {s s₁ : σ} {t u : List ι}
    (h : Along step P s (t ++ u)) (hr : run step s t = some s₁) : Along step P s₁ u := by
  induction t generalizing s with
  | nil =>
    simp only [run_nil, Option.some.injEq] at hr
    exact hr ▸ h
  | cons a t ih =>
    obtain ⟨s', h₁, h₂⟩ := run_cons_eq_some.1 hr
    exact ih (h.2 s' h₁) h₂

/-- A property that a step keeps exactly when it meets `P` holds all along a run exactly when every step of the
run meets `P`.  `O` is what is known of the steps. -/
theorem always_iff_along_of_along {O : σ → ι → Prop} {I Q : σ → Prop} {P : σ → ι → Prop}
    (hI : ∀ s a s', O s a → I s → step s a = some s' → I s')
    (hQ : ∀ s a s', O s a → I s → Q s → step s a = some s' → (Q s' ↔ P s a)) {s s' : σ} {tr : List ι}
    (hO : Along step O s tr) (hs : I s) (h0 : Q s) (hr : run step s tr = some s') :
    Always step Q s tr ↔ Along step P s tr := by
  induction tr generalizing s with
  | nil => exact ⟨fun _ => trivial, fun _ => h0⟩
  | cons a tr ih =>
    obtain ⟨s₁, h₁, h₂⟩ := run_cons_eq_some.1 hr
    -- the first step decides about its own state, the rest follows by induction
    have hP := hQ s a s₁ hO.1 hs h0 h₁
    constructor
    · intro h
      have hq : Q s₁ := (h.2 s₁ h₁).head
      refine ⟨hP.1 hq, fun s' hs' => ?_⟩
      obtain rfl : s₁ = s' := Option.some.inj (h₁.symm.trans hs')
      exact (ih (hO.2 s₁ h₁) (hI s a s₁ hO.1 hs h₁) hq h₂).1 (h.2 s₁ h₁)
    · intro h
      refine ⟨h0, fun s' hs' => ?_⟩
      obtain rfl : s₁ = s' := Option.some.inj (h₁.symm.trans hs')
      exact (ih (hO.2 s₁ h₁) (hI s a s₁ hO.1 hs h₁) (hP.2 h.1) h₂).2 (h.2 s₁ h₁)

/-- A condition on labels holds along a run exactly when it holds of all its labels. -/
theorem along_iff_forall_mem {P : ι → Prop} {s s' : σ} {tr : List ι} (hr : run step s tr = some s') :
    Along step (fun _ a => P a) s tr ↔ ∀ a ∈ tr, P a := by
  induction tr generalizing s with
  | nil => exact ⟨fun _ _ h => (List.not_mem_nil h).elim, fun _ => trivial⟩
  | cons a tr ih =>
    obtain ⟨s₁, h₁, h₂⟩ := run_cons_eq_some.1 hr
    rw [List.forall_mem_cons, ← ih h₂]
    constructor
    · exact fun h => ⟨h.1, h.2 s₁ h₁⟩
    · rintro ⟨ha, h⟩
      refine ⟨ha, fun s' hs' => ?_⟩
      obtain rfl : s₁ = s' := Option.some.inj (h₁.symm.trans hs')
      exact h

/-- The form of `always_iff_along_of_along` where `A` is what is known of the labels. -/
theorem always_iff_along {A : ι → Prop} {I Q : σ → Prop} {P : σ → ι → Prop}
    (hI : ∀ s a s', A a → I s → step s a = some s' → I s')
    (hQ : ∀ s a s', A a → I s → Q s → step s a = some s' → (Q s' ↔ P s a)) {s s' : σ} {tr : List ι}
    (hA : ∀ a ∈ tr, A a) (hs : I s) (h0 : Q s) (hr : run step s tr = some s') :
    Always step Q s tr ↔ Along step P s tr :=
  always_iff_along_of_along hI hQ ((along_iff_forall_mem hr).2 hA) hs h0 hr

/-- The form of `always_iff_along_of_along` where nothing else has to be known. -/
theorem always_iff_along_of_step {Q : σ → Prop} {P : σ → ι → Prop}
    (hQ : ∀ s a s', Q s → step s a = some s' → (Q s' ↔ P s a)) {s s' : σ} {tr : List ι} (h0 : Q s)
    (hr : run step s tr = some s') : Always step Q s tr ↔ Along step P s tr :=
  always_iff_along_of_along (O := fun _ _ => True) (I := fun _ => True) (fun _ _ _ _ _ _ => trivial)
    (fun s a s' _ _ => hQ s a s') (along_true s tr) trivial h0 hr

/-- Where a run stands relative to the one step that meets `P`: before it, or after it with no such step to come. -/
theorem AtMostOnce.before_or_after {U V : σ → Prop} {P : σ → ι → Prop}
    (hU : ∀ s a s', U s → ¬ P s a → step s a = some s' → U s')
    (hP : ∀ s a s', U s → P s a → step s a = some s' → V s')
    (hV : ∀ s a s', V s → ¬ P s a → step s a = some s' → V s') {s s₁ : σ} {t u : List ι} (h0 : U s)
    (h : AtMostOnce step P s (t ++ u)) (hr : run step s t = some s₁) :
    U s₁ ∨ (V s₁ ∧ Along step (fun s a => ¬ P s a) s₁ u) := by
  induction t generalizing s with
  | nil =>
    simp only [run_nil, Option.some.injEq] at hr
    exact Or.inl (hr ▸ h0)
  | cons a t ih =>
    obtain ⟨s', h₁, h₂⟩ := run_cons_eq_some.1 hr
    by_cases ha : P s a
    · have hno := (h s' h₁).1 ha
      exact Or.inr ⟨invariant hV (hP s a s' h0 ha h₁) hno.append_left h₂, hno.append_right h₂⟩
    · exact ih (hU s a s' h0 ha h₁) (h s' h₁).2 h₂

end Run

/-- A run of a system whose steps project to steps of another system, or to no step, projects to a run of it.  The
projection may use an invariant of the first system. -/
theorem exists_run_of_project {σ ι τ κ : Type*} {step : σ → ι → Option σ} {step' : τ → κ → Option τ}
    (f : σ → τ) {I : σ → Prop} (hI : ∀ s a s', I s → step s a = some s' → I s')
    (h : ∀ s a s', I s → step s a = some s' → f s' = f s ∨ ∃ b, step' (f s) b = some (f s'))
    {s s' : σ} {tr : List ι} (h0 : I s) (hr : run step s tr = some s') :
    ∃ tr', run step' (f s) tr' = some (f s') := by
  induction tr generalizing s with
  | nil =>
    simp only [run_nil, Option.some.injEq] at hr
    exact ⟨[], by rw [hr, run_nil]⟩
  | cons a tr ih =>
    obtain ⟨s₁, h₁, h₂⟩ := run_cons_eq_some.1 hr
    obtain ⟨tr', htr'⟩ := ih (hI s a s₁ h0 h₁) h₂
    rcases h s a s₁ h0 h₁ with he | ⟨b, hb⟩
    · exact ⟨tr', he ▸ htr'⟩
    · exact ⟨b :: tr', run_cons_eq_some.2 ⟨f s₁, hb, htr'⟩⟩

end Lts
