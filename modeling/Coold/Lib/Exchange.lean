import Mathlib.Data.List.Basic

/-!
# Computations that send requests

`Exchange ρ ε α` is a computation that sends requests of type `ρ` and ends with a value or an error.  Its state is the
list of the requests sent so far, and what a peer answers may depend on all of them.

`Sends P x` says that whatever was sent before, `x` sends nothing but requests with `P`, whether it ends with a value or
an error, `AtMost n x` that it sends at most `n` requests, and `Extends Q x` that what it sends is a list with `Q`.
`Returns x sent a sent'` says that `x` ends with the value `a`, the requests sent having become `sent'`.  The rules
follow the way computations are built; a peer may answer anything.
-/

abbrev Exchange (ρ ε α : Type) := ExceptT ε (StateM (List ρ)) α

namespace Exchange

variable {ρ ε α β : Type}

/-- Send a request; what is answered depends on the requests sent before. -/
def request (answer : List ρ → ρ → Except ε α) (r : ρ) : Exchange ρ ε α :=
  ExceptT.mk fun sent => (answer sent r, sent ++ [r])

/-- The requests sent, with those before. -/
def after (x : Exchange ρ ε α) (sent : List ρ) : List ρ := (x.run sent).2

def Sends (P : ρ → Prop) (x : Exchange ρ ε α) : Prop := ∀ sent, ∀ r ∈ x.after sent, r ∈ sent ∨ P r

variable {P : ρ → Prop}

theorem sends_pure (a : α) : Sends P (pure a : Exchange ρ ε α) := fun _ _ hr => Or.inl hr

theorem sends_throw (e : ε) : Sends P (throw e : Exchange ρ ε α) := fun _ _ hr => Or.inl hr

theorem sends_ofExcept (x : Except ε α) : Sends P (ofExcept x : Exchange ρ ε α) := by
  cases x with
  | ok a => exact sends_pure a
  | error e => exact sends_throw e

theorem sends_request {answer : List ρ → ρ → Except ε α} {r : ρ} (h : P r) : Sends P (request answer r) := by
  intro sent r' hr'
  rcases List.mem_append.1 hr' with hr' | hr'
  · exact Or.inl hr'
  · rw [List.mem_singleton.1 hr']
    exact Or.inr h

/-- After an error, nothing more is sent. -/
theorem after_bind (x : Exchange ρ ε α) (f : α → Exchange ρ ε β) (sent : List ρ) :
    (x >>= f).after sent = match (x.run sent).1 with
      | .ok a => (f a).after (x.after sent)
      | .error _ => x.after sent := by
  show ((x >>= f).run sent).2 = _
  rw [ExceptT.run_bind]
  show ((match (x.run sent).1 with
    | .ok a => (f a).run
    | .error e => pure (.error e)) (x.run sent).2).2 = _
  cases (x.run sent).1 with
  | ok a => rfl
  | error e => rfl

theorem Sends.bind {x : Exchange ρ ε α} {f : α → Exchange ρ ε β} (hx : Sends P x) (hf : ∀ a, Sends P (f a)) :
    Sends P (x >>= f) := by
  intro sent r hr
  rw [after_bind] at hr
  cases hrun : (x.run sent).1 with
  | ok a =>
    rw [hrun] at hr
    rcases hf a _ r hr with hr | hr
    · exact hx sent r hr
    · exact Or.inr hr
  | error e =>
    rw [hrun] at hr
    exact hx sent r hr

/-- A check that may fail before the rest, which may rely on it. -/
theorem Sends.checked {c : Prop} [Decidable c] {e : ε} {f : PUnit → Exchange ρ ε α} (hf : ¬ c → Sends P (f ⟨⟩)) :
    Sends P (if c then throw e >>= f else f ⟨⟩) := by
  by_cases hc : c
  · rw [if_pos hc]
    intro sent r hr
    rw [after_bind] at hr
    exact Or.inl hr
  · rw [if_neg hc]
    exact hf hc

theorem Sends.check {c : Prop} [Decidable c] {e : ε} {f : PUnit → Exchange ρ ε α} (hf : Sends P (f ⟨⟩)) :
    Sends P (if c then throw e >>= f else f ⟨⟩) := Sends.checked fun _ => hf

/-! ### Values -/

def Returns (x : Exchange ρ ε α) (sent : List ρ) (a : α) (sent' : List ρ) : Prop := x.run sent = (.ok a, sent')

variable {sent sent' : List ρ}

theorem returns_pure_iff {a b : α} : Returns (pure a : Exchange ρ ε α) sent b sent' ↔ b = a ∧ sent' = sent := by
  have hrun : (pure a : Exchange ρ ε α).run sent = (.ok a, sent) := rfl
  rw [Returns, hrun, Prod.mk.injEq, Except.ok.injEq, eq_comm, @eq_comm _ sent]

theorem not_returns_throw {e : ε} {a : α} : ¬ Returns (throw e : Exchange ρ ε α) sent a sent' := by
  intro h
  cases (Prod.mk.inj h).1

theorem returns_ofExcept_iff {x : Except ε α} {a : α} :
    Returns (ofExcept x : Exchange ρ ε α) sent a sent' ↔ x = .ok a ∧ sent' = sent := by
  cases x with
  | ok b =>
    rw [Except.ok.injEq, @eq_comm _ b]
    exact returns_pure_iff
  | error e => exact iff_of_false not_returns_throw fun h => by cases h.1

theorem returns_request_iff {answer : List ρ → ρ → Except ε α} {r : ρ} {a : α} :
    Returns (request answer r) sent a sent' ↔ answer sent r = .ok a ∧ sent' = sent ++ [r] := by
  have hrun : (request answer r).run sent = (answer sent r, sent ++ [r]) := rfl
  rw [Returns, hrun, Prod.mk.injEq, @eq_comm _ (sent ++ [r])]

/-- A computation in two parts ends with a value if both of them do. -/
theorem returns_bind_iff {x : Exchange ρ ε α} {f : α → Exchange ρ ε β} {b : β} :
    Returns (x >>= f) sent b sent' ↔ ∃ a sent₁, Returns x sent a sent₁ ∧ Returns (f a) sent₁ b sent' := by
  have hbind : (x >>= f).run sent = match x.run sent with
      | (.ok a, sent₁) => (f a).run sent₁
      | (.error e, sent₁) => (.error e, sent₁) := by
    rw [ExceptT.run_bind]
    show (match (x.run sent).1 with
      | .ok a => (f a).run
      | .error e => pure (.error e)) (x.run sent).2 = _
    rcases x.run sent with ⟨a | e, sent₁⟩ <;> rfl
  rw [Returns, hbind]
  rcases hx : x.run sent with ⟨e | a, sent₁⟩
  · constructor
    · intro h
      cases (Prod.mk.inj h).1
    · rintro ⟨a, sent₂, ha, -⟩
      rw [Returns, hx] at ha
      cases (Prod.mk.inj ha).1
  · constructor
    · exact fun h => ⟨a, sent₁, hx, h⟩
    · rintro ⟨a', sent₂, ha, hf⟩
      rw [Returns, hx, Prod.mk.injEq, Except.ok.injEq] at ha
      obtain ⟨rfl, rfl⟩ := ha
      exact hf

theorem returns_check_iff {c : Prop} [Decidable c] {e : ε} {f : PUnit → Exchange ρ ε α} {a : α} :
    Returns (if c then throw e >>= f else f ⟨⟩) sent a sent' ↔ ¬ c ∧ Returns (f ⟨⟩) sent a sent' := by
  split
  · rename_i hc
    refine iff_of_false ?_ fun h => h.1 hc
    rw [returns_bind_iff]
    rintro ⟨_, _, h, -⟩
    exact not_returns_throw h
  · rename_i hc
    exact ⟨fun h => ⟨hc, h⟩, fun h => h.2⟩

/-! ### How much is sent -/

def AtMost (n : Nat) (x : Exchange ρ ε α) : Prop := ∀ sent, (x.after sent).length ≤ sent.length + n

theorem atMost_pure (n : Nat) (a : α) : AtMost n (pure a : Exchange ρ ε α) := fun _ => Nat.le_add_right _ _

theorem atMost_throw (n : Nat) (e : ε) : AtMost n (throw e : Exchange ρ ε α) := fun _ => Nat.le_add_right _ _

theorem atMost_ofExcept (n : Nat) (x : Except ε α) : AtMost n (ofExcept x : Exchange ρ ε α) := by
  cases x with
  | ok a => exact atMost_pure n a
  | error e => exact atMost_throw n e

theorem atMost_request (answer : List ρ → ρ → Except ε α) (r : ρ) : AtMost 1 (request answer r) := by
  intro sent
  show (sent ++ [r]).length ≤ _
  exact Nat.le_of_eq List.length_append

theorem AtMost.bind {m n : Nat} {x : Exchange ρ ε α} {f : α → Exchange ρ ε β} (hx : AtMost m x)
    (hf : ∀ a, AtMost n (f a)) : AtMost (m + n) (x >>= f) := by
  intro sent
  have hsent := hx sent
  rw [after_bind]
  cases (x.run sent).1 with
  | ok a =>
    have hrest := hf a (x.after sent)
    show ((f a).after (x.after sent)).length ≤ _
    omega
  | error e =>
    show (x.after sent).length ≤ _
    omega

theorem AtMost.check {n : Nat} {c : Prop} [Decidable c] {e : ε} {f : PUnit → Exchange ρ ε α}
    (hf : AtMost n (f ⟨⟩)) : AtMost n (if c then throw e >>= f else f ⟨⟩) := by
  split
  · intro sent
    rw [after_bind]
    exact Nat.le_add_right _ _
  · exact hf

/-! ### In which order -/

def Extends (Q : List ρ → Prop) (x : Exchange ρ ε α) : Prop := ∀ sent, ∃ new, x.after sent = sent ++ new ∧ Q new

variable {Q R S : List ρ → Prop}

theorem extends_pure (h : Q []) (a : α) : Extends Q (pure a : Exchange ρ ε α) :=
  fun sent => ⟨[], (List.append_nil sent).symm, h⟩

theorem extends_throw (h : Q []) (e : ε) : Extends Q (throw e : Exchange ρ ε α) :=
  fun sent => ⟨[], (List.append_nil sent).symm, h⟩

theorem extends_request {answer : List ρ → ρ → Except ε α} {r : ρ} (h : Q [r]) : Extends Q (request answer r) :=
  fun _ => ⟨[r], rfl, h⟩

/-- The second part may not be reached. -/
theorem Extends.bind {x : Exchange ρ ε α} {f : α → Exchange ρ ε β} (hx : Extends Q x) (hf : ∀ a, Extends R (f a))
    (hfirst : ∀ l, Q l → S l) (hboth : ∀ l m, Q l → R m → S (l ++ m)) : Extends S (x >>= f) := by
  intro sent
  obtain ⟨l, hl, hQ⟩ := hx sent
  rw [after_bind]
  cases (x.run sent).1 with
  | ok a =>
    obtain ⟨m, hm, hR⟩ := hf a (x.after sent)
    refine ⟨l ++ m, ?_, hboth l m hQ hR⟩
    rw [← List.append_assoc, ← hl]
    exact hm
  | error e => exact ⟨l, hl, hfirst l hQ⟩

theorem Extends.check {c : Prop} [Decidable c] {e : ε} {f : PUnit → Exchange ρ ε α} (h : Q [])
    (hf : Extends Q (f ⟨⟩)) : Extends Q (if c then throw e >>= f else f ⟨⟩) := by
  by_cases hc : c
  · rw [if_pos hc]
    intro sent
    exact ⟨[], by rw [after_bind, List.append_nil]; rfl, h⟩
  · rw [if_neg hc]
    exact hf

end Exchange
