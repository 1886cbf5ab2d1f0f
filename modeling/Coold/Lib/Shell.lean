import Mathlib.Logic.Function.Basic
import Coold.Lib.Str

/-!
# Shell scripts that write files and drive services

A script is a list of lines, and a line a list of commands joined by `&&`.  A here-document is the text up to the first
line that is its marker; it is the whole body when the body is made of lines none of which is the marker
(`hereDocument_unlines`).

`Host` is what the commands work on: the files with the time of their last write and the running services with the time
their process was started.  `run` is a script all of whose commands succeed.  What a `cat` leaves in its file is
`doc marker body`: the here-document as the shell reads it, or the body as it is meant.
-/

namespace Shell

/-- The text that has these lines. -/
def unlines (ls : List String) : String := String.ofList (ls.flatMap fun l => l.toList ++ ['\n'])

/-- What the shell reads of a here-document that is written as its body followed by its marker. -/
def hereDocument (marker body : String) : String :=
  unlines ((Str.split '\n' (body ++ marker ++ "\n")).takeWhile fun l => l ≠ marker)

/-- The body of a here-document. -/
def asGiven (_marker body : String) : String := body

inductive Command where
  | mkdir (paths : List String)
  | cat (path marker body : String)
  | chmod (mode path : String)
  | mv (source target : String)
  | rm (path : String)
  | daemonReload
  | enable (unit : String)
  | enableNow (units : List String)
  | restart (unit : String)
  deriving DecidableEq

abbrev Script := List (List Command)

def Command.text : Command → String
  | .mkdir paths => "mkdir -p " ++ " ".intercalate paths
  | .cat path marker _ => "cat > " ++ path ++ " <<'" ++ marker ++ "'"
  | .chmod mode path => "chmod " ++ mode ++ " " ++ path
  | .mv source target => "mv " ++ source ++ " " ++ target
  | .rm path => "rm -f " ++ path
  | .daemonReload => "systemctl daemon-reload"
  | .enable unit => "systemctl enable " ++ unit
  | .enableNow units => "systemctl enable --now " ++ " ".intercalate units
  | .restart unit => "systemctl restart " ++ unit

/-- The bodies of the here-documents of a line follow the line. -/
def lineText (line : List Command) : String :=
  line.foldl (fun text c =>
    match c with
    | .cat _ marker body => text ++ "\n" ++ body ++ marker
    | _ => text) (" && ".intercalate (line.map Command.text))

/-- The text that is handed to the shell. -/
def text (s : Script) : String := "\n".intercalate (s.map lineText)

/-- `a && b`: the last line of the first script goes on with the first line of the second. -/
def andThen : Script → Script → Script
  | [], t => t
  | [line], [] => [line]
  | [line], line' :: t => (line ++ line') :: t
  | line :: line' :: s, t => line :: andThen (line' :: s) t

structure File where
  content : String
  written : Nat
  deriving DecidableEq

structure Host where
  clock : Nat
  files : String → Option File
  started : String → Option Nat

/-- Start the units that are not running. -/
def startMissing (h : Host) (units : List String) : Host :=
  { h with started := fun u => if u ∈ units ∧ h.started u = none then some h.clock else h.started u }

section Run

variable (doc : String → String → String)

/-- What a command does to files and services. -/
def effect (h : Host) : Command → Host
  | .mkdir _ => h
  | .cat path marker body => { h with files := Function.update h.files path (some ⟨doc marker body, h.clock⟩) }
  | .chmod _ _ => h
  | .mv source target =>
    { h with
      files := Function.update (Function.update h.files source none) target
        ((h.files source).map fun f => ⟨f.content, h.clock⟩) }
  | .rm path => { h with files := Function.update h.files path none }
  | .daemonReload => h
  | .enable _ => h
  | .enableNow units => startMissing h units
  | .restart unit => { h with started := Function.update h.started unit (some h.clock) }

/-- A command takes a tick of the clock. -/
def exec (h : Host) (c : Command) : Host := { effect doc h c with clock := h.clock + 1 }

def run (h : Host) (s : Script) : Host := s.flatten.foldl (exec doc) h

end Run

/-! ### Here-documents -/

theorem toList_unlines (ls : List String) : (unlines ls).toList = ls.flatMap fun l => l.toList ++ ['\n'] := by
  rw [unlines, String.toList_ofList]

theorem unlines_append (ls ls' : List String) : unlines (ls ++ ls') = unlines ls ++ unlines ls' := by
  rw [← String.toList_inj, String.toList_append]
  simp [toList_unlines]

private theorem intercalate_concat_nil (ls : List (List Char)) (m : List Char) :
    ['\n'].intercalate (ls ++ [m, []]) = ls.flatMap (fun l => l ++ ['\n']) ++ (m ++ ['\n']) := by
  induction ls with
  | nil => simp
  | cons l ls ih =>
    cases ls with
    | nil => simp
    | cons l' ls =>
      rw [List.cons_append, List.cons_append, List.intercalate_cons_cons, ← List.cons_append, ih]
      simp

theorem unlines_eq_join (ls : List String) : unlines ls = Str.join '\n' (ls ++ [""]) := by
  rw [← String.toList_inj, toList_unlines, Str.join, String.toList_ofList]
  rcases List.eq_nil_or_concat ls with rfl | ⟨init, last, rfl⟩
  · simp
  · simp only [List.concat_eq_append, List.append_assoc, List.map_append, List.map_cons, List.map_nil,
      List.singleton_append, String.toList_empty]
    rw [intercalate_concat_nil]
    simp [List.flatMap_map]

/-- A text that has these lines is split into them, with nothing after the last one. -/
theorem split_unlines {ls : List String} (h : ∀ l ∈ ls, '\n' ∉ l.toList) : Str.split '\n' (unlines ls) = ls ++ [""] := by
  rw [unlines_eq_join]
  refine Str.split_join '\n' (by simp) fun p hp => ?_
  rcases List.mem_append.1 hp with hp | hp
  · exact h p hp
  · rw [List.mem_singleton.1 hp]
    simp

/-- A body of lines that are not the marker is read as it is written. -/
theorem hereDocument_unlines {marker : String} {ls : List String} (hm : '\n' ∉ marker.toList)
    (h : ∀ l ∈ ls, '\n' ∉ l.toList ∧ l ≠ marker) : hereDocument marker (unlines ls) = unlines ls := by
  have htext : unlines ls ++ marker ++ "\n" = Str.join '\n' (ls ++ [marker, ""]) := by
    rw [← String.toList_inj, Str.join, String.toList_ofList, List.map_append, List.map_cons, List.map_singleton]
    rw [show ("" : String).toList = [] from rfl, intercalate_concat_nil]
    simp [toList_unlines, String.toList_append, List.flatMap_map]
  have hsplit : Str.split '\n' (unlines ls ++ marker ++ "\n") = ls ++ [marker, ""] := by
    rw [htext]
    refine Str.split_join '\n' (by simp) fun p hp => ?_
    rcases List.mem_append.1 hp with hp | hp
    · exact (h p hp).1
    · simp only [List.mem_cons, List.not_mem_nil, or_false] at hp
      rcases hp with rfl | rfl
      · exact hm
      · simp
  unfold hereDocument
  rw [hsplit, List.takeWhile_append_of_pos (fun l hl => by simpa using (h l hl).2)]
  simp

/-! ### Running a script -/

theorem flatten_andThen (s t : Script) : (andThen s t).flatten = s.flatten ++ t.flatten := by
  induction s with
  | nil => simp [andThen]
  | cons line s ih =>
    cases s with
    | nil =>
      cases t with
      | nil => simp [andThen]
      | cons line' t => simp [andThen]
    | cons line' s =>
      rw [andThen, List.flatten_cons, ih]
      simp

theorem run_andThen (doc : String → String → String) (h : Host) (s t : Script) :
    run doc h (andThen s t) = run doc (run doc h s) t := by
  rw [run, flatten_andThen, List.foldl_append, run, run]

/-- A here-document that is read as it is written, so that the lines after it are the script's own. -/
def Command.Delimited : Command → Prop
  | .cat _ marker body => hereDocument marker body = body
  | _ => True

/-- Every here-document of the script is read as it is written. -/
def WellDelimited (s : Script) : Prop := ∀ c ∈ s.flatten, c.Delimited

theorem wellDelimited_andThen {s t : Script} : WellDelimited (andThen s t) ↔ WellDelimited s ∧ WellDelimited t := by
  unfold WellDelimited
  rw [flatten_andThen, List.forall_mem_append]

/-- Such a script does what is meant. -/
theorem run_wellDelimited {s : Script} (hs : WellDelimited s) (h : Host) : run hereDocument h s = run asGiven h s := by
  unfold run
  unfold WellDelimited at hs
  generalize s.flatten = l at hs
  induction l generalizing h with
  | nil => rw [List.foldl_nil, List.foldl_nil]
  | cons c l ih =>
    have hc : exec hereDocument h c = exec asGiven h c := by
      cases c <;> simp only [exec, effect]
      case cat path marker body => rw [show hereDocument marker body = body from hs _ List.mem_cons_self, asGiven]
    rw [List.foldl_cons, List.foldl_cons, hc]
    exact ih _ fun c' hc' => hs c' (List.mem_cons_of_mem _ hc')

/-! ### What a script leaves alone -/

/-- The files a command may change. -/
def Command.writes : Command → List String
  | .cat path _ _ => [path]
  | .mv source target => [source, target]
  | .rm path => [path]
  | _ => []

/-- The units a command may start. -/
def Command.starts : Command → List String
  | .enableNow units => units
  | .restart unit => [unit]
  | _ => []

section Frame

variable {doc : String → String → String} {h : Host} {c : Command} {s : Script} {p u : String}

theorem files_exec_of_notMem (hp : p ∉ c.writes) : (exec doc h c).files p = h.files p := by
  cases c with
  | mv source target =>
    simp only [Command.writes, List.mem_cons, List.not_mem_nil, or_false, not_or] at hp
    simp [exec, effect, hp.1, hp.2]
  | cat path marker body => simp_all [exec, effect, Command.writes]
  | rm path => simp_all [exec, effect, Command.writes]
  | _ => rfl

theorem started_exec_of_notMem (hu : u ∉ c.starts) : (exec doc h c).started u = h.started u := by
  cases c with
  | enableNow units => simp_all [exec, effect, startMissing, Command.starts]
  | restart unit => simp_all [exec, effect, Command.starts]
  | _ => rfl

/-- A script changes the files it writes only. -/
theorem files_run_of_notMem (hp : ∀ c ∈ s.flatten, p ∉ c.writes) : (run doc h s).files p = h.files p := by
  unfold run
  generalize s.flatten = l at hp
  induction l generalizing h with
  | nil => rfl
  | cons c l ih =>
    rw [List.foldl_cons, ih fun c' hc' => hp c' (List.mem_cons_of_mem _ hc')]
    exact files_exec_of_notMem (hp c List.mem_cons_self)

/-- A script starts the units it names only. -/
theorem started_run_of_notMem (hu : ∀ c ∈ s.flatten, u ∉ c.starts) : (run doc h s).started u = h.started u := by
  unfold run
  generalize s.flatten = l at hu
  induction l generalizing h with
  | nil => rfl
  | cons c l ih =>
    rw [List.foldl_cons, ih fun c' hc' => hu c' (List.mem_cons_of_mem _ hc')]
    exact started_exec_of_notMem (hu c List.mem_cons_self)

theorem clock_run : (run doc h s).clock = h.clock + s.flatten.length := by
  unfold run
  generalize s.flatten = l
  induction l generalizing h with
  | nil => rfl
  | cons c l ih =>
    rw [List.foldl_cons, ih, List.length_cons]
    simp only [exec]
    omega

end Frame

/-! ### Times -/

/-- Nothing on the host is from later than its clock. -/
structure Stamped (h : Host) : Prop where
  written : ∀ p f, h.files p = some f → f.written < h.clock
  started : ∀ u t, h.started u = some t → t < h.clock

section Times

variable {doc : String → String → String} {h : Host} {s : Script}

theorem Stamped.exec (hs : Stamped h) (c : Command) : Stamped (exec doc h c) := by
  have hfiles : ∀ p f, h.files p = some f → f.written < h.clock + 1 := fun p f hf => Nat.lt_succ_of_lt (hs.written p f hf)
  have hstarted : ∀ u t, h.started u = some t → t < h.clock + 1 := fun u t ht => Nat.lt_succ_of_lt (hs.started u t ht)
  cases c with
  | cat path marker body =>
    refine ⟨fun p f hf => ?_, hstarted⟩
    by_cases hp : p = path
    · subst hp
      simp only [Shell.exec, effect, Function.update_self, Option.some.injEq] at hf ⊢
      subst hf
      exact Nat.lt_succ_self _
    · exact hfiles p f (by simpa [Shell.exec, effect, hp] using hf)
  | mv source target =>
    refine ⟨fun p f hf => ?_, hstarted⟩
    by_cases ht : p = target
    · subst ht
      simp only [Shell.exec, effect, Function.update_self, Option.map_eq_some_iff] at hf ⊢
      obtain ⟨g, -, rfl⟩ := hf
      exact Nat.lt_succ_self _
    · by_cases hp : p = source
      · subst hp
        simp [Shell.exec, effect, ht] at hf
      · exact hfiles p f (by simpa [Shell.exec, effect, ht, hp] using hf)
  | rm path =>
    refine ⟨fun p f hf => ?_, hstarted⟩
    by_cases hp : p = path
    · subst hp
      simp [Shell.exec, effect] at hf
    · exact hfiles p f (by simpa [Shell.exec, effect, hp] using hf)
  | enableNow units =>
    refine ⟨hfiles, fun u t ht => ?_⟩
    simp only [Shell.exec, effect, startMissing] at ht ⊢
    split at ht
    · cases ht
      exact Nat.lt_succ_self _
    · exact hstarted u t ht
  | restart unit =>
    refine ⟨hfiles, fun u t ht => ?_⟩
    by_cases hu : u = unit
    · subst hu
      simp only [Shell.exec, effect, Function.update_self, Option.some.injEq] at ht ⊢
      subst ht
      exact Nat.lt_succ_self _
    · exact hstarted u t (by simpa [Shell.exec, effect, hu] using ht)
  | mkdir | chmod | daemonReload | enable => exact ⟨hfiles, hstarted⟩

theorem Stamped.run (hs : Stamped h) (s : Script) : Stamped (run doc h s) := by
  unfold Shell.run
  generalize s.flatten = l
  induction l generalizing h with
  | nil => exact hs
  | cons c l ih => exact ih (hs.exec c)

/-- A service that is started anew at the end of a script is newer than all files. -/
theorem written_lt_started (hs : Stamped h) {front : List Command} {c : Command} {u : String}
    (hscript : s.flatten = front ++ [c])
    (hc : c = .restart u ∨ ∃ units, c = .enableNow units ∧ u ∈ units ∧ h.started u = none ∧ ∀ k ∈ front, u ∉ k.starts)
    {p : String} {f : File} (hf : (Shell.run doc h s).files p = some f) {t : Nat}
    (ht : (Shell.run doc h s).started u = some t) : f.written < t := by
  have hrun : Shell.run doc h s = Shell.exec doc (Shell.run doc h [front]) c := by
    simp [Shell.run, hscript]
  have hstamped : Stamped (Shell.run doc h [front]) := hs.run _
  rw [hrun] at hf ht
  rcases hc with rfl | ⟨units, rfl, hu, hnone, hfront⟩
  · simp only [Shell.exec, effect, Function.update_self, Option.some.injEq] at hf ht
    rw [← ht]
    exact hstamped.written p f hf
  · have hstill : (Shell.run doc h [front]).started u = none := by
      rw [started_run_of_notMem (by simpa using hfront), hnone]
    simp only [Shell.exec, effect, startMissing] at hf ht
    rw [if_pos ⟨hu, hstill⟩, Option.some.injEq] at ht
    rw [← ht]
    exact hstamped.written p f hf

/-- A service that runs is not started again by `enable --now`. -/
theorem started_run_of_running {u : String} {t : Nat} (ht : h.started u = some t)
    (hs : ∀ c ∈ s.flatten, c ≠ .restart u) : (Shell.run doc h s).started u = some t := by
  unfold Shell.run
  generalize s.flatten = l at hs
  induction l generalizing h with
  | nil => exact ht
  | cons c l ih =>
    refine ih ?_ fun c' hc' => hs c' (List.mem_cons_of_mem _ hc')
    have hc := hs c List.mem_cons_self
    cases c with
    | enableNow units => simp [Shell.exec, effect, startMissing, ht]
    | restart unit =>
      have hne : u ≠ unit := fun h => hc (by rw [h])
      simp [Shell.exec, effect, hne, ht]
    | _ => exact ht

end Times

end Shell
