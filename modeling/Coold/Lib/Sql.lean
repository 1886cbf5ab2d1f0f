import Mathlib.Data.List.Basic

/-!
# Tokens of SQL

A statement is read from left to right by an automaton (`step`), which emits the tokens that a character ends.  In an
identifier between quotes a quote is written twice, so that the automaton knows only at the next character whether the
identifier has ended (`Mode.quote`).

`tokensFrom_append` reads a text in two parts, and `tokensFrom_quote` says that any name, written between quotes with the
quotes in it doubled, is read as that one identifier, whatever is in it.
-/

namespace Sql

inductive Token
  | word (w : List Char)
  | quoted (name : List Char)
  | symbol (c : Char)
  deriving DecidableEq

/-- Where the automaton is, with what it has read of the token. -/
inductive Mode
  | outside
  | word (w : List Char)
  | quoted (name : List Char)
  | quote (name : List Char)
  deriving DecidableEq

def isWordChar (c : Char) : Bool := c.isAlphanum || c = '_'

def isSpace (c : Char) : Bool := c = ' ' || c = '\t' || c = '\n' || c = '\r'

/-- A character after the end of a token. -/
def start (c : Char) : Mode × List Token :=
  if isSpace c then (.outside, [])
  else if c = '"' then (.quoted [], [])
  else if isWordChar c then (.word [c], [])
  else (.outside, [.symbol c])

def step (mode : Mode) (c : Char) : Mode × List Token :=
  match mode with
  | .outside => start c
  | .word w => if isWordChar c then (.word (w ++ [c]), []) else ((start c).1, .word w :: (start c).2)
  | .quoted name => if c = '"' then (.quote name, []) else (.quoted (name ++ [c]), [])
  | .quote name => if c = '"' then (.quoted (name ++ [c]), []) else ((start c).1, .quoted name :: (start c).2)

/-- The token that the end of the text ends; an identifier that is still open is an error. -/
def finish : Mode → Option (List Token)
  | .outside => some []
  | .word w => some [.word w]
  | .quoted _ => none
  | .quote name => some [.quoted name]

def run : Mode → List Char → Mode × List Token
  | mode, [] => (mode, [])
  | mode, c :: cs => ((run (step mode c).1 cs).1, (step mode c).2 ++ (run (step mode c).1 cs).2)

def tokensFrom (mode : Mode) (text : List Char) : Option (List Token) :=
  (finish (run mode text).1).map ((run mode text).2 ++ ·)

def tokens (text : List Char) : Option (List Token) := tokensFrom .outside text

/-- A name between quotes, with the quotes in it doubled. -/
def quote (name : List Char) : List Char :=
  '"' :: (name.flatMap fun c => if c = '"' then ['"', '"'] else [c]) ++ ['"']

private theorem run_append (mode : Mode) (a b : List Char) :
    run mode (a ++ b) = ((run (run mode a).1 b).1, (run mode a).2 ++ (run (run mode a).1 b).2) := by
  induction a generalizing mode with
  | nil => rfl
  | cons c a ih =>
    rw [List.cons_append, run, run, ih]
    simp only [List.append_assoc]

/-- A text in two parts. -/
theorem tokensFrom_append (mode : Mode) (a b : List Char) :
    tokensFrom mode (a ++ b) = (tokensFrom (run mode a).1 b).map ((run mode a).2 ++ ·) := by
  rw [tokensFrom, run_append, tokensFrom, Option.map_map]
  refine congrArg (fun f => Option.map f _) (funext fun ts => ?_)
  exact List.append_assoc _ _ _

private theorem run_quoted (name w : List Char) :
    run (.quoted w) (name.flatMap fun c => if c = '"' then ['"', '"'] else [c]) = (.quoted (w ++ name), []) := by
  induction name generalizing w with
  | nil => rw [List.append_nil]; rfl
  | cons c name ih =>
    have hchar : run (.quoted w) (if c = '"' then ['"', '"'] else [c]) = (.quoted (w ++ [c]), []) := by
      by_cases hc : c = '"'
      · rw [if_pos hc, hc]
        rfl
      · rw [if_neg hc, run, step, if_neg hc]
        rfl
    rw [List.flatMap_cons, run_append, hchar, ih, List.append_assoc]
    rfl

/-- The automaton has read the whole name when it comes to its end. -/
theorem run_quote (name : List Char) : run .outside (quote name) = (.quote name, []) := by
  have hopen : run .outside ['"'] = (.quoted [], []) := by decide
  have hclose : run (.quoted name) ['"'] = (.quote name, []) := by
    rw [run, step, if_pos rfl]
    rfl
  rw [quote, ← List.singleton_append, List.append_assoc, run_append, hopen, run_append, run_quoted, List.nil_append,
    hclose]
  rfl

/-- A quoted name at the end of a text. -/
theorem tokensFrom_quote (name : List Char) : tokensFrom .outside (quote name) = some [.quoted name] := by
  rw [tokensFrom, run_quote]
  rfl

/-- A quoted name before anything but another quote. -/
theorem tokensFrom_quote_cons (name : List Char) {c : Char} (hc : c ≠ '"') (rest : List Char) :
    tokensFrom .outside (quote name ++ c :: rest) = (tokensFrom .outside (c :: rest)).map (.quoted name :: ·) := by
  rw [tokensFrom_append, run_quote]
  have hstep : step (.quote name) c = ((start c).1, .quoted name :: (start c).2) := if_neg hc
  have hrun : run (.quote name) (c :: rest) =
      ((run .outside (c :: rest)).1, .quoted name :: (run .outside (c :: rest)).2) := by
    rw [run, run, hstep]
    rfl
  rw [tokensFrom, tokensFrom, hrun, Option.map_map, Option.map_map]
  rfl

private theorem run_word {w : List Char} (h : ∀ c ∈ w, isWordChar c = true) (v : List Char) :
    run (.word v) w = (.word (v ++ w), []) := by
  induction w generalizing v with
  | nil =>
    rw [List.append_nil]
    rfl
  | cons c w ih =>
    have hstep : step (.word v) c = (.word (v ++ [c]), []) := if_pos (h c List.mem_cons_self)
    rw [run, hstep, ih (fun d hd => h d (List.mem_cons_of_mem c hd)), List.append_assoc]
    rfl

/-- A word at the end of a text. -/
theorem tokensFrom_word {c : Char} {w : List Char} (hc : c.isAlphanum = true)
    (h : ∀ d ∈ w, isWordChar d = true) : tokensFrom .outside (c :: w) = some [.word (c :: w)] := by
  have hspace : isSpace c = false := by
    by_contra hne
    simp only [isSpace, Bool.not_eq_false, Bool.or_eq_true, decide_eq_true_eq] at hne
    rcases hne with ((rfl | rfl) | rfl) | rfl <;> cases hc
  have hquote : c ≠ '"' := by
    rintro rfl
    cases hc
  have hword : isWordChar c = true := by rw [isWordChar, hc, Bool.true_or]
  have hstart : start c = (.word [c], []) := by
    rw [start, if_neg (Bool.not_eq_true _ ▸ hspace), if_neg hquote, if_pos hword]
  have hstep : step .outside c = (.word [c], []) := hstart
  rw [tokensFrom, run, hstep, run_word h]
  rfl

end Sql
