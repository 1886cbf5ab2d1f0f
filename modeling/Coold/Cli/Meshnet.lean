import Coold.Cli.Subnet

/-!
# What the command line checks of names

Interfaces, versions and namespaces become parts of commands, units and configurations, so they are restricted to words
without white space.  What the later modules use of it is that such a word is one line.
-/

namespace Coold.Cli

/-- `[a-zA-Z0-9][a-zA-Z0-9._-]{0,n}` -/
def isWord (n : Nat) (s : String) : Bool :=
  match s.toList with
  | [] => false
  | c :: cs => c.isAlphanum && cs.length ≤ n && cs.all fun c => c.isAlphanum || c == '.' || c == '_' || c == '-'

/-- `[a-z0-9]` -/
def isLabelChar (c : Char) : Bool := c.isLower || c.isDigit

/-- `[a-z0-9]([a-z0-9-]{0,61}[a-z0-9])?` -/
def isDnsLabel (s : String) : Bool :=
  match s.toList with
  | [] => false
  | c :: cs =>
    isLabelChar c && (cs.isEmpty ||
      (cs.length ≤ 62 && (cs.all fun c => isLabelChar c || c == '-') && cs.getLast?.any isLabelChar))

def validateInterface (iface : String) : Except CliError Unit :=
  if isWord 14 iface then .ok ()
  else
    .error (.bail ("invalid --wg-interface " ++ String.quote iface ++
      " (must be 1-15 chars: alphanumerics, '-', '_', '.', leading alphanumeric)"))

def validateVersion (label version : String) : Except CliError Unit :=
  if isWord 63 version then .ok ()
  else
    .error (.bail ("invalid " ++ label ++ " " ++ String.quote version ++
      " (must be 1-64 chars: alphanumerics, '.', '_', '-', leading alphanumeric)"))

/-- Every namespace is a label, and none is given twice. -/
def validateNamespaces (namespaces : List String) : Except CliError Unit :=
  if namespaces = [] then .error (.bail "--namespaces must list at least one namespace") else go [] namespaces
where
  go (seen : List String) : List String → Except CliError Unit
    | [] => .ok ()
    | ns :: rest =>
      if !isDnsLabel ns then
        .error (.bail ("invalid namespace " ++ String.quote ns ++
          " (must be a DNS label: lowercase alphanumerics + '-', 1-63 chars)"))
      else if ns ∈ seen then .error (.bail ("duplicate namespace " ++ String.quote ns ++ " in --namespaces"))
      else go (ns :: seen) rest

example : (validateNamespaces ["default", "alpha-1"], validateInterface "eth0.1") = (.ok (), .ok ()) := by
  decide

theorem isWord_of_validateInterface {iface : String} (h : validateInterface iface = .ok ()) : isWord 14 iface = true := by
  unfold validateInterface at h
  split at h
  next hword => exact hword
  next => cases h

theorem isWord_of_validateVersion {label version : String} (h : validateVersion label version = .ok ()) :
    isWord 63 version = true := by
  unfold validateVersion at h
  split at h
  next hword => exact hword
  next => cases h

theorem isDnsLabel_of_validateNamespaces {namespaces : List String} (h : validateNamespaces namespaces = .ok ()) :
    ∀ ns ∈ namespaces, isDnsLabel ns = true := by
  suffices hgo : ∀ seen, validateNamespaces.go seen namespaces = .ok () → ∀ ns ∈ namespaces, isDnsLabel ns = true by
    unfold validateNamespaces at h
    split at h
    · cases h
    · exact hgo [] h
  clear h
  induction namespaces with
  | nil => simp
  | cons ns rest ih =>
    intro seen h
    unfold validateNamespaces.go at h
    split at h
    · cases h
    next hlabel =>
      split at h
      · cases h
      · exact List.forall_mem_cons.2 ⟨by simpa using hlabel, ih _ h⟩

/-- A word is not empty, and its characters are visible ones. -/
theorem chars_of_isWord {n : Nat} {s : String} (h : isWord n s = true) :
    s ≠ "" ∧ ∀ c ∈ s.toList, (c.isAlphanum || c == '.' || c == '_' || c == '-') = true := by
  unfold isWord at h
  split at h
  · cases h
  next c cs hs =>
    simp only [Bool.and_eq_true, List.all_eq_true] at h
    have hne : s ≠ "" := by
      rintro rfl
      cases hs
    refine ⟨hne, ?_⟩
    rw [hs]
    exact List.forall_mem_cons.2 ⟨by rw [h.1.1]; rfl, h.2⟩

theorem newline_notMem_of_isWord {n : Nat} {s : String} (h : isWord n s = true) : '\n' ∉ s.toList :=
  fun hc => absurd ((chars_of_isWord h).2 '\n' hc) (by decide)

/-- A label is not empty, and its characters are lowercase letters, digits and hyphens. -/
theorem chars_of_isDnsLabel {s : String} (h : isDnsLabel s = true) :
    s ≠ "" ∧ ∀ c ∈ s.toList, (isLabelChar c || c == '-') = true := by
  unfold isDnsLabel at h
  split at h
  · cases h
  next c cs hs =>
    simp only [Bool.and_eq_true, Bool.or_eq_true, List.isEmpty_iff, List.all_eq_true] at h
    obtain ⟨hc, hcs⟩ := h
    have hne : s ≠ "" := by
      rintro rfl
      cases hs
    refine ⟨hne, ?_⟩
    rw [hs]
    refine List.forall_mem_cons.2 ⟨by rw [hc]; rfl, ?_⟩
    rcases hcs with rfl | ⟨⟨-, hall⟩, -⟩
    · simp
    · exact fun a ha => by simpa using hall a ha

theorem newline_notMem_of_isDnsLabel {s : String} (h : isDnsLabel s = true) : '\n' ∉ s.toList :=
  fun hc => absurd ((chars_of_isDnsLabel h).2 '\n' hc) (by decide)

end Coold.Cli
