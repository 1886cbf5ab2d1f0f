import Mathlib.Data.List.Nodup
import Coold.Lib.Shell

/-!
# Scripts one of whose commands fails

A line stops at its first command that fails, the lines after it are run all the same, and the status of the script is
that of its last line.  One command of the script fails, and besides it those that work on a missing file; a
here-document that fails may leave a part of it.

A `chain` writes files one after the other, each beside its place before it is moved there.  The here-document ends a
line, so after a failure the next line moves whatever lies beside the place of its file.  A chain therefore fails closed
exactly if nothing lies beside the places of the files that were not written before the failure
(`failsClosed_chain_iff`).
-/

namespace Shell

/-- The command at this position fails; a here-document leaves this content, if its file has been opened at all. -/
structure Fault where
  position : Nat
  left : Option String

/-- What the failing command leaves behind. -/
def Fault.effect (f : Fault) (h : Host) : Command → Host
  | .cat path _ _ =>
    match f.left with
    | some content => { h with files := Function.update h.files path (some ⟨content, h.clock⟩) }
    | none => h
  | _ => h

/-- A missing file has no mode and cannot be moved. -/
def possible (h : Host) : Command → Bool
  | .chmod _ path => (h.files path).isSome
  | .mv source _ => (h.files source).isSome
  | _ => true

section Run

variable (doc : String → String → String) (f : Fault)

/-- A line whose first command has the position `n`. -/
def runLine (h : Host) : (n : Nat) → List Command → Host × Bool
  | _, [] => (h, true)
  | n, c :: rest =>
    if n = f.position then (f.effect h c, false)
    else if possible h c then runLine (exec doc h c) (n + 1) rest
    else (h, false)

def runLines (h : Host) : (n : Nat) → Script → Host × Bool
  | _, [] => (h, true)
  | n, [line] => runLine doc f h n line
  | n, line :: line' :: s => runLines (runLine doc f h n line).1 (n + line.length) (line' :: s)

/-- The host and the status after a script one of whose commands fails. -/
def runFaulty (h : Host) (s : Script) : Host × Bool := runLines doc f h 0 s

end Run

def contentOf (h : Host) (path : String) : Option String := (h.files path).map File.content

/-- The failure is reported, and a file that the script moves to its place is there as before or complete. -/
structure FailsClosed (doc : String → String → String) (s : Script) (h : Host) (f : Fault) : Prop where
  reported : (runFaulty doc f h s).2 = false
  complete : ∀ source target marker body, .cat source marker body ∈ s.flatten → .mv source target ∈ s.flatten →
    contentOf (runFaulty doc f h s).1 target = contentOf h target ∨
      contentOf (runFaulty doc f h s).1 target = some (doc marker body)

/-- Nothing lies in the files of the here-documents from the failing command on. -/
def NothingLeft (s : Script) (h : Host) (f : Fault) : Prop :=
  ∀ n source marker body, s.flatten[n]? = some (.cat source marker body) → f.position ≤ n →
    h.files source = none ∧ (n = f.position → f.left = none)

/-! ### Lines -/

section Lines

variable {doc : String → String → String} {f : Fault} {h : Host} {n : Nat}

private theorem runLine_append (h : Host) (n : Nat) (l l' : List Command) :
    runLine doc f h n (l ++ l') =
      if (runLine doc f h n l).2 then runLine doc f (runLine doc f h n l).1 (n + l.length) l'
      else ((runLine doc f h n l).1, false) := by
  induction l generalizing h n with
  | nil => simp [runLine]
  | cons c l ih =>
    rw [List.cons_append, runLine, runLine]
    by_cases hn : n = f.position
    · simp [hn]
    by_cases hp : possible h c = true
    · simp only [if_neg hn, if_pos hp, ih, List.length_cons]
      rw [Nat.add_assoc, Nat.add_comm 1]
    · simp [if_neg hn, if_neg hp]

private theorem runLines_cons {s : Script} (hs : s ≠ []) (h : Host) (n : Nat) (line : List Command) :
    runLines doc f h n (line :: s) = runLines doc f (runLine doc f h n line).1 (n + line.length) s := by
  cases s with
  | nil => exact absurd rfl hs
  | cons line' s => rfl

/-- A command that is always possible and leaves these files alone. -/
def Command.Plain (paths : List String) (c : Command) : Prop :=
  (∀ h, possible h c = true) ∧ (∀ p ∈ paths, p ∉ c.writes) ∧ ∀ path marker body, c ≠ .cat path marker body

/-- The command fails that has the position of the fault, and no other of a plain line. -/
theorem runLine_plain (doc : String → String → String) (f : Fault) {paths : List String} {l : List Command}
    (hl : ∀ c ∈ l, c.Plain paths) (h : Host) (n : Nat) :
    ((runLine doc f h n l).2 = true ↔ ¬(n ≤ f.position ∧ f.position < n + l.length)) ∧
      ∀ p ∈ paths, (runLine doc f h n l).1.files p = h.files p := by
  induction l generalizing h n with
  | nil => simp [runLine]
  | cons c l ih =>
    obtain ⟨⟨hpossible, hwrites, hcat⟩, hrest⟩ := List.forall_mem_cons.1 hl
    rw [runLine]
    by_cases hn : n = f.position
    · rw [if_pos hn]
      refine ⟨by simp [hn], fun p hp => ?_⟩
      cases c with
      | cat path marker body => exact absurd rfl (hcat path marker body)
      | _ => rfl
    · rw [if_neg hn, if_pos (hpossible h)]
      obtain ⟨hstatus, hfiles⟩ := ih hrest (exec doc h c) (n + 1)
      refine ⟨?_, fun p hp => ?_⟩
      · rw [hstatus, List.length_cons]
        omega
      · rw [hfiles p hp, files_exec_of_notMem (hwrites p hp)]

end Lines

/-! ### Chains of files -/

/-- A file that is written beside its place and then moved there. -/
structure Doc where
  target : String
  marker : String
  body : String
  mode : Option String

namespace Doc

variable (d : Doc)

def tmp : String := d.target ++ ".tmp"

def cat : Command := .cat d.tmp d.marker d.body

/-- The line after the here-document. -/
def install : List Command := (d.mode.map fun mode => Command.chmod mode d.tmp).toList ++ [.mv d.tmp d.target]

end Doc

/-- Files that are written one after the other, with the commands before the first and after each of them. -/
def chain (before : List Command) : List (Doc × List Command) → Script
  | [] => [before]
  | (d, after) :: rest => (before ++ [d.cat]) :: chain (d.install ++ after) rest

/-- The places of the files, and what lies beside them. -/
def pathsOf (docs : List (Doc × List Command)) : List String := docs.flatMap fun e => [e.1.tmp, e.1.target]

/-- The files have different places, none beside another one, and the commands between them leave them alone. -/
structure Separate (before : List Command) (docs : List (Doc × List Command)) : Prop where
  nodup : (docs.map fun e => e.1.target).Nodup
  beside : ∀ e ∈ docs, ∀ e' ∈ docs, e.1.tmp ≠ e'.1.target
  before : ∀ c ∈ before, c.Plain (pathsOf docs)
  after : ∀ e ∈ docs, ∀ c ∈ e.2, c.Plain (pathsOf docs)

/-- The files are in their places as before or complete. -/
def Kept (doc : String → String → String) (docs : List (Doc × List Command)) (h h' : Host) : Prop :=
  ∀ e ∈ docs, contentOf h' e.1.target = contentOf h e.1.target ∨
    contentOf h' e.1.target = some (doc e.1.marker e.1.body)

section Chains

variable {doc : String → String → String} {f : Fault} {h h₀ : Host} {n : Nat} {d : Doc} {after : List Command}
  {rest all : List (Doc × List Command)}

private theorem Doc.tmp_inj {d d' : Doc} (h : d.tmp = d'.tmp) : d.target = d'.target := (String.append_left_inj _).1 h

private theorem mem_pathsOf {p : String} {docs : List (Doc × List Command)} :
    p ∈ pathsOf docs ↔ ∃ e ∈ docs, p = e.1.tmp ∨ p = e.1.target := by
  simp [pathsOf]

private theorem chain_ne_nil (before : List Command) (docs : List (Doc × List Command)) : chain before docs ≠ [] := by
  cases docs <;> simp [chain]

private theorem flatten_chain_cons (before : List Command) :
    (chain before ((d, after) :: rest)).flatten = before ++ d.cat :: (chain (d.install ++ after) rest).flatten := by
  simp [chain]

private theorem Kept.of_files (hk : Kept doc all h₀ h) {h' : Host}
    (hfiles : ∀ e ∈ all, h'.files e.1.target = h.files e.1.target) :
    Kept doc all h₀ h' := by
  intro e he
  have hsame : contentOf h' e.1.target = contentOf h e.1.target := congrArg _ (hfiles e he)
  rw [hsame]
  exact hk e he

private theorem runLine_cat (hn : n ≠ f.position) : runLine doc f h n [d.cat] = (exec doc h d.cat, true) := by
  simp [runLine, hn, Doc.cat, possible]

private theorem files_cat_self : (exec doc h d.cat).files d.tmp = some ⟨doc d.marker d.body, h.clock⟩ :=
  Function.update_self _ _ _

private theorem files_cat_of_ne {p : String} (hp : p ≠ d.tmp) : (exec doc h d.cat).files p = h.files p :=
  Function.update_of_ne hp _ _

/-- A file that lies beside its place is moved there, unless the failing command is one of those that do it; then nothing
has changed. -/
theorem runLine_install (doc : String → String → String) (f : Fault) (h : Host) (n : Nat)
    (hd : (h.files d.tmp).isSome) :
    ∃ h', h'.files = h.files ∧ runLine doc f h n d.install =
      if n ≤ f.position ∧ f.position < n + d.install.length then (h', false)
      else (exec doc h' (.mv d.tmp d.target), true) := by
  have hmv : ∀ (h : Host) (n : Nat), (h.files d.tmp).isSome → runLine doc f h n [.mv d.tmp d.target] =
      if n = f.position then (h, false) else (exec doc h (.mv d.tmp d.target), true) := by
    intro h n hd
    simp [runLine, Fault.effect, possible, hd]
  cases hmode : d.mode with
  | none =>
    have hinstall : d.install = [.mv d.tmp d.target] := by simp [Doc.install, hmode]
    refine ⟨h, rfl, ?_⟩
    rw [hinstall, hmv h n hd]
    exact if_congr (by rw [List.length_singleton]; omega) rfl rfl
  | some mode =>
    have hinstall : d.install = [.chmod mode d.tmp, .mv d.tmp d.target] := by simp [Doc.install, hmode]
    rw [hinstall, runLine]
    by_cases hn : n = f.position
    · exact ⟨h, rfl, by rw [if_pos hn, if_pos (by simp [hn])]; rfl⟩
    · have hfiles : ((exec doc h (.chmod mode d.tmp)).files d.tmp).isSome := hd
      refine ⟨exec doc h (.chmod mode d.tmp), rfl, ?_⟩
      rw [if_neg hn, if_pos (show possible h (.chmod mode d.tmp) = true from hd), hmv _ (n + 1) hfiles]
      refine if_congr ?_ rfl rfl
      simp only [List.length_cons, List.length_nil]
      omega

/-- A line that should move a file that is not there fails at once. -/
private theorem runLine_missing (hpassed : f.position < n) (hnone : h.files d.tmp = none) (l : List Command) :
    runLine doc f h n (d.install ++ l) = (h, false) := by
  unfold Doc.install
  cases d.mode with
  | none => simp [runLine, possible, hnone, Nat.ne_of_gt hpassed]
  | some mode => simp [runLine, possible, hnone, Nat.ne_of_gt hpassed]

private theorem status_install (hpassed : f.position < n) (hd : (h.files d.tmp).isSome) :
    (runLine doc f h n d.install).2 = true := by
  obtain ⟨h', -, hrun⟩ := runLine_install doc f h n hd
  rw [hrun, if_neg (by omega)]

/-- Once the failing command has passed, the first line with a file beside its place moves it there, and from then on
nothing fails. -/
theorem status_of_left (hpassed : f.position < n) (hplain : ∀ c ∈ after, c.Plain (pathsOf all))
    (hrest : ∀ e ∈ rest, ∀ c ∈ e.2, c.Plain (pathsOf all))
    (hleft : (h.files d.tmp).isSome ∨ ∃ e ∈ rest, (h.files e.1.tmp).isSome) :
    (runLines doc f h n (chain (d.install ++ after) rest)).2 = true := by
  induction rest generalizing d after h n with
  | nil =>
    have hd : (h.files d.tmp).isSome := by simpa using hleft
    rw [chain, runLines, runLine_append, if_pos (status_install hpassed hd)]
    exact (runLine_plain doc f hplain _ _).1.2 (by omega)
  | cons e rest ih =>
    obtain ⟨d', after'⟩ := e
    obtain ⟨hplain', hrest⟩ := List.forall_mem_cons.1 hrest
    rw [chain, runLines_cons (chain_ne_nil _ _)]
    refine ih (by omega) hplain' hrest ?_
    by_cases hd : (h.files d.tmp).isSome
    · -- the line is run to its end, so the next file is written
      have hstatus : (runLine doc f h n (d.install ++ after)).2 = true := by
        rw [runLine_append, if_pos (status_install hpassed hd)]
        exact (runLine_plain doc f hplain _ _).1.2 (by omega)
      refine .inl ?_
      rw [runLine_append, if_pos hstatus, runLine_cat (by omega), files_cat_self]
      rfl
    · -- the line fails at once
      have hnone : h.files d.tmp = none := by simpa using hd
      rw [List.append_assoc, runLine_missing hpassed hnone]
      rcases hleft with hleft | ⟨e, he, hleft⟩
      · exact absurd hleft hd
      · rcases List.mem_cons.1 he with rfl | he
        · exact .inl hleft
        · exact .inr ⟨e, he, hleft⟩

/-- Once the failing command has passed and nothing lies beside the places, every line fails at once. -/
theorem runLines_of_nothing (hpassed : f.position < n) (hnone : h.files d.tmp = none)
    (hrest : ∀ e ∈ rest, h.files e.1.tmp = none) :
    runLines doc f h n (chain (d.install ++ after) rest) = (h, false) := by
  induction rest generalizing d after n with
  | nil => exact runLine_missing hpassed hnone after
  | cons e rest ih =>
    obtain ⟨d', after'⟩ := e
    obtain ⟨hd', hrest⟩ := List.forall_mem_cons.1 hrest
    rw [chain, runLines_cons (chain_ne_nil _ _), List.append_assoc, runLine_missing hpassed hnone]
    exact ih (by omega) hd' hrest

/-- Nothing lies beside the files that are written from the failing command on.  `n` is the position of the first
command. -/
def Clear (f : Fault) (h : Host) : (n : Nat) → (before : List Command) → List (Doc × List Command) → Prop
  | _, _, [] => True
  | n, before, (d, after) :: rest =>
    (f.position ≤ n + before.length → h.files d.tmp = none ∧ (n + before.length = f.position → f.left = none)) ∧
      Clear f h (n + before.length + 1) (d.install ++ after) rest

private theorem clear_of_passed (hpassed : f.position < n) (before : List Command) :
    Clear f h n before rest ↔ ∀ e ∈ rest, h.files e.1.tmp = none := by
  induction rest generalizing n before with
  | nil => simp [Clear]
  | cons e rest ih =>
    obtain ⟨d, after⟩ := e
    rw [Clear, ih (by omega), List.forall_mem_cons]
    refine and_congr_left fun _ => ⟨fun h => (h (by omega)).1, fun h _ => ⟨h, fun heq => by omega⟩⟩

/-- What is known after the first commands of a line: only the failing one has failed, the files are in their places as
before or complete, and nothing has changed beside the files that are still to be written. -/
structure Segment (doc : String → String → String) (f : Fault) (all rest : List (Doc × List Command)) (h₀ h : Host)
    (n : Nat) (before : List Command) : Prop where
  status : (runLine doc f h n before).2 = true ↔ ¬(n ≤ f.position ∧ f.position < n + before.length)
  kept : Kept doc all h₀ (runLine doc f h n before).1
  beside : ∀ e ∈ rest, (runLine doc f h n before).1.files e.1.tmp = h₀.files e.1.tmp

private theorem files_effect_cat_of_ne {p : String} (hp : p ≠ d.tmp) : (f.effect h d.cat).files p = h.files p := by
  unfold Fault.effect Doc.cat
  cases f.left with
  | none => rfl
  | some content => exact Function.update_of_ne hp _ _

private theorem files_effect_cat_eq_none :
    (f.effect h d.cat).files d.tmp = none ↔ h.files d.tmp = none ∧ f.left = none := by
  unfold Fault.effect Doc.cat
  cases f.left with
  | none => simp
  | some content => simp

/-- A file that has been written is moved to its place. -/
theorem segment_install {before : List Command} (hall : Separate before all) (hd : (d, after) ∈ all)
    (hkept : Kept doc all h₀ h) (hcat : contentOf h d.tmp = some (doc d.marker d.body))
    (hrest : ∀ e ∈ rest, e ∈ all ∧ e.1.target ≠ d.target) (hbeside : ∀ e ∈ rest, h.files e.1.tmp = h₀.files e.1.tmp) :
    Segment doc f all rest h₀ h n (d.install ++ after) := by
  have hsome : (h.files d.tmp).isSome := by
    unfold contentOf at hcat
    cases hf : h.files d.tmp with
    | none => simp [hf] at hcat
    | some file => rfl
  obtain ⟨h', hfiles, hrun⟩ := runLine_install doc f h n hsome
  have hkept' : Kept doc all h₀ h' := hkept.of_files fun e _ => by rw [hfiles]
  by_cases hin : n ≤ f.position ∧ f.position < n + d.install.length
  · rw [if_pos hin] at hrun
    have hline : runLine doc f h n (d.install ++ after) = (h', false) := by
      rw [runLine_append, hrun]
      rfl
    refine ⟨?_, ?_, fun e he => ?_⟩
    · rw [hline, List.length_append]
      simp only [Bool.false_eq_true, false_iff, not_not]
      omega
    · rw [hline]
      exact hkept'
    · rw [hline]
      exact (congrFun hfiles _).trans (hbeside e he)
  · rw [if_neg hin] at hrun
    have hline : runLine doc f h n (d.install ++ after) =
        runLine doc f (exec doc h' (.mv d.tmp d.target)) (n + d.install.length) after := by
      rw [runLine_append, hrun]
      rfl
    have hafter : ∀ c ∈ after, c.Plain (pathsOf all) := hall.after _ hd
    obtain ⟨hstatus, hplain⟩ := runLine_plain doc f hafter (exec doc h' (.mv d.tmp d.target))
      (n + d.install.length)
    have hmoved : ∀ p, p ≠ d.tmp → p ≠ d.target → (exec doc h' (.mv d.tmp d.target)).files p = h.files p := by
      intro p hp hp'
      rw [files_exec_of_notMem (by simp [Command.writes, hp, hp']), hfiles]
    have hplace : contentOf (exec doc h' (.mv d.tmp d.target)) d.target = some (doc d.marker d.body) := by
      rw [← hcat]
      unfold contentOf
      rw [← hfiles]
      simp [exec, effect, Option.map_map, Function.comp_def]
    refine ⟨?_, fun e he => ?_, fun e he => ?_⟩
    · rw [hline, hstatus, List.length_append]
      omega
    · have hsame : contentOf (runLine doc f h n (d.install ++ after)).1 e.1.target =
          contentOf (exec doc h' (.mv d.tmp d.target)) e.1.target := by
        rw [hline]
        exact congrArg _ (hplain _ (mem_pathsOf.2 ⟨e, he, .inr rfl⟩))
      rw [hsame]
      by_cases heq : e.1.target = d.target
      · obtain rfl := List.inj_on_of_nodup_map hall.nodup he hd heq
        exact .inr hplace
      · unfold contentOf
        rw [hmoved _ (fun h => hall.beside _ hd _ he h.symm) heq]
        exact hkept e he
    · obtain ⟨hmem, hne⟩ := hrest e he
      rw [hline, hplain _ (mem_pathsOf.2 ⟨e, hmem, .inl rfl⟩), hmoved _ (fun heq => hne (Doc.tmp_inj heq))
        (hall.beside e hmem _ hd)]
      exact hbeside e he

/-- After the failing command has passed, the rest of a chain fails closed exactly if nothing lies beside its files. -/
theorem passed_iff {before : List Command} (hall : Separate before all) (hd : (d, after) ∈ all)
    (hrest : ∀ e ∈ rest, e ∈ all) (hpassed : f.position < n) (hkept : Kept doc all h₀ h) :
    ((runLines doc f h n (chain (d.install ++ after) rest)).2 = false ∧
        Kept doc all h₀ (runLines doc f h n (chain (d.install ++ after) rest)).1) ↔
      h.files d.tmp = none ∧ ∀ e ∈ rest, h.files e.1.tmp = none := by
  constructor
  · rintro ⟨hstatus, -⟩
    by_contra hleft
    have hleft' : (h.files d.tmp).isSome ∨ ∃ e ∈ rest, (h.files e.1.tmp).isSome := by
      by_contra hno
      simp only [not_or, not_exists, not_and, Bool.not_eq_true, Option.isSome_eq_false_iff,
        Option.isNone_iff_eq_none] at hno
      exact hleft hno
    rw [status_of_left hpassed (hall.after _ hd) (fun e he => hall.after e (hrest e he)) hleft'] at hstatus
    cases hstatus
  · rintro ⟨hnone, hnorest⟩
    rw [runLines_of_nothing hpassed hnone hnorest]
    exact ⟨rfl, hkept⟩

/-- A chain from one of its lines on, by induction on the files that are still to be written. -/
theorem chain_iff {first : List Command} (hall : Separate first all) (docs : List (Doc × List Command))
    (before : List Command) (hmem : ∀ e ∈ docs, e ∈ all) (hnd : (docs.map fun e => e.1.target).Nodup)
    (hseg : Segment doc f all docs h₀ h n before) (hstart : n ≤ f.position)
    (hend : f.position < n + (chain before docs).flatten.length) :
    ((runLines doc f h n (chain before docs)).2 = false ∧ Kept doc all h₀ (runLines doc f h n (chain before docs)).1) ↔
      Clear f h₀ n before docs := by
  induction docs generalizing before h n with
  | nil =>
    have hin : n ≤ f.position ∧ f.position < n + before.length := ⟨hstart, by simpa [chain] using hend⟩
    have hstatus : (runLine doc f h n before).2 = false := by
      rw [← Bool.not_eq_true, hseg.status, not_not]
      exact hin
    simp [chain, runLines, Clear, hstatus, hseg.kept]
  | cons e rest ih =>
    obtain ⟨d, after⟩ := e
    obtain ⟨hd, hrest⟩ := List.forall_mem_cons.1 hmem
    obtain ⟨hdbeside, hrestbeside⟩ := List.forall_mem_cons.1 hseg.beside
    rw [List.map_cons, List.nodup_cons] at hnd
    have hne : ∀ e ∈ rest, e.1.target ≠ d.target := fun e he heq => hnd.1 (heq ▸ List.mem_map_of_mem he)
    have htmp : ∀ e ∈ rest, e.1.tmp ≠ d.tmp := fun e he heq => hne e he (Doc.tmp_inj heq)
    have hplace : ∀ e ∈ all, e.1.target ≠ d.tmp := fun e he heq => hall.beside _ hd e he heq.symm
    have hlen : (before ++ [d.cat]).length = before.length + 1 := by simp
    rw [chain, runLines_cons (chain_ne_nil _ _), runLine_append, hlen, ← Nat.add_assoc, Clear]
    rcases Nat.lt_trichotomy f.position (n + before.length) with hlt | heq | hgt
    · -- a command before the here-document fails, which is then not written
      have hstatus : (runLine doc f h n before).2 = false := by
        rw [← Bool.not_eq_true, hseg.status, not_not]
        exact ⟨hstart, hlt⟩
      rw [hstatus, if_neg Bool.false_ne_true, passed_iff hall hd hrest (by omega) hseg.kept,
        clear_of_passed (by omega), hdbeside]
      refine and_congr ⟨fun hnone _ => ⟨hnone, fun hpos => by omega⟩, fun hnone => (hnone (by omega)).1⟩ ?_
      exact forall₂_congr fun e he => by rw [hrestbeside e he]
    · -- the here-document fails
      have hstatus : (runLine doc f h n before).2 = true := hseg.status.2 (by omega)
      have hkept : Kept doc all h₀ (f.effect (runLine doc f h n before).1 d.cat) :=
        hseg.kept.of_files fun e he => files_effect_cat_of_ne (hplace e he)
      have hcat : runLine doc f (runLine doc f h n before).1 (n + before.length) [d.cat] =
          (f.effect (runLine doc f h n before).1 d.cat, false) := by
        rw [runLine, if_pos heq.symm]
      rw [hstatus, if_pos rfl, hcat, passed_iff hall hd hrest (by omega) hkept, clear_of_passed (by omega),
        files_effect_cat_eq_none, hdbeside]
      refine and_congr ⟨fun hnone _ => ⟨hnone.1, fun _ => hnone.2⟩, fun hnone => ?_⟩ ?_
      · exact ⟨(hnone heq.le).1, (hnone heq.le).2 heq.symm⟩
      · exact forall₂_congr fun e he => by rw [files_effect_cat_of_ne (htmp e he), hrestbeside e he]
    · -- the file is written, and the failing command comes later
      have hstatus : (runLine doc f h n before).2 = true := hseg.status.2 (by omega)
      have hseg' : Segment doc f all rest h₀ (exec doc (runLine doc f h n before).1 d.cat) (n + before.length + 1)
          (d.install ++ after) := by
        refine segment_install hall hd (hseg.kept.of_files fun e he => files_cat_of_ne (hplace e he)) ?_
          (fun e he => ⟨hrest e he, hne e he⟩) fun e he => ?_
        · rw [contentOf, files_cat_self]
          rfl
        · rw [files_cat_of_ne (htmp e he), hrestbeside e he]
      have hlast : f.position < n + before.length + 1 + (chain (d.install ++ after) rest).flatten.length := by
        rw [flatten_chain_cons, List.length_append, List.length_cons] at hend
        omega
      rw [hstatus, if_pos rfl, runLine_cat (by omega), ih _ hrest hnd.2 hseg' (by omega) hlast]
      exact ⟨fun h => ⟨fun hpos => by omega, h⟩, fun h => h.2⟩

/-- Which files lie beside their places can be told from the positions of the here-documents. -/
theorem clear_iff (hplain : ∀ e ∈ rest, ∀ c ∈ e.2, ∀ path marker body, c ≠ .cat path marker body)
    (before : List Command) (hbefore : ∀ c ∈ before, ∀ path marker body, c ≠ .cat path marker body) :
    Clear f h n before rest ↔
      ∀ i source marker body, (chain before rest).flatten[i]? = some (.cat source marker body) → f.position ≤ n + i →
        h.files source = none ∧ (n + i = f.position → f.left = none) := by
  induction rest generalizing n before with
  | nil =>
    simp only [Clear, chain, List.flatten_singleton, true_iff]
    intro i source marker body hi
    exact absurd rfl (hbefore _ (List.mem_of_getElem? hi) source marker body)
  | cons e rest ih =>
    obtain ⟨d, after⟩ := e
    obtain ⟨hafter, hrest⟩ := List.forall_mem_cons.1 hplain
    have hinstall : ∀ c ∈ d.install ++ after, ∀ path marker body, c ≠ .cat path marker body := by
      intro c hc
      rcases List.mem_append.1 hc with hc | hc
      · unfold Doc.install at hc
        cases hmode : d.mode <;> simp [hmode] at hc
        · simp [hc]
        · rcases hc with rfl | rfl <;> simp
      · exact hafter c hc
    rw [Clear, ih hrest _ hinstall, flatten_chain_cons]
    constructor
    · rintro ⟨hfirst, hlater⟩ i source marker body hi hpos
      rcases Nat.lt_trichotomy i before.length with hlt | rfl | hgt
      · rw [List.getElem?_append_left hlt] at hi
        exact absurd rfl (hbefore _ (List.mem_of_getElem? hi) source marker body)
      · rw [List.getElem?_append_right le_rfl, Nat.sub_self, List.getElem?_cons_zero, Option.some.injEq] at hi
        cases hi
        exact hfirst hpos
      · rw [List.getElem?_append_right hgt.le, show i - before.length = i - before.length - 1 + 1 by omega,
          List.getElem?_cons_succ] at hi
        have h' := hlater _ source marker body hi (by omega)
        exact ⟨h'.1, fun heq => h'.2 (by omega)⟩
    · intro hall
      refine ⟨fun hpos => ?_, fun i source marker body hi hpos => ?_⟩
      · exact hall before.length d.tmp d.marker d.body (by simp [Doc.cat]) hpos
      · have hi' : (before ++ d.cat :: (chain (d.install ++ after) rest).flatten)[before.length + 1 + i]? =
            some (.cat source marker body) := by
          rw [List.getElem?_append_right (by omega), show before.length + 1 + i - before.length = i + 1 by omega,
            List.getElem?_cons_succ, hi]
        have h' := hall _ source marker body hi' (by omega)
        exact ⟨h'.1, fun heq => h'.2 (by omega)⟩

/-- The commands of a chain. -/
theorem mem_flatten_chain {docs : List (Doc × List Command)} {before : List Command} {c : Command} :
    c ∈ (chain before docs).flatten ↔
      c ∈ before ∨ ∃ e ∈ docs, c = e.1.cat ∨ c ∈ e.1.install ∨ c ∈ e.2 := by
  induction docs generalizing before with
  | nil => simp [chain]
  | cons e rest ih =>
    obtain ⟨d, after⟩ := e
    rw [flatten_chain_cons, List.mem_append, List.mem_cons, ih, List.mem_append]
    simp only [List.mem_cons, exists_eq_or_imp, or_assoc]

private theorem mem_install {c : Command} (hc : c ∈ d.install) :
    (∃ mode, c = .chmod mode d.tmp) ∨ c = .mv d.tmp d.target := by
  unfold Doc.install at hc
  cases hmode : d.mode <;> simp [hmode] at hc
  · exact .inr hc
  · exact hc.imp_left fun h => ⟨_, h⟩

/-- A chain fails closed exactly if nothing lies beside the files that are written from the failing command on. -/
theorem failsClosed_chain_iff {docs : List (Doc × List Command)} {before : List Command} (hsep : Separate before docs)
    (hf : f.position < (chain before docs).flatten.length) :
    FailsClosed doc (chain before docs) h f ↔ NothingLeft (chain before docs) h f := by
  obtain ⟨hstatus, hfiles⟩ := runLine_plain doc f hsep.before h 0
  have hkept : Kept doc docs h h := fun e _ => .inl rfl
  have hseg : Segment doc f docs docs h h 0 before :=
    ⟨hstatus, hkept.of_files fun e he => hfiles _ (mem_pathsOf.2 ⟨e, he, .inr rfl⟩),
      fun e he => hfiles _ (mem_pathsOf.2 ⟨e, he, .inl rfl⟩)⟩
  have hplain : ∀ e ∈ docs, ∀ c ∈ e.2, ∀ path marker body, c ≠ .cat path marker body :=
    fun e he c hc => (hsep.after e he c hc).2.2
  have hbefore : ∀ c ∈ before, ∀ path marker body, c ≠ .cat path marker body := fun c hc => (hsep.before c hc).2.2
  have hiff := chain_iff hsep docs before (fun e he => he) hsep.nodup hseg (Nat.zero_le _) (by omega)
  rw [clear_iff hplain before hbefore] at hiff
  simp only [Nat.zero_add] at hiff
  have hclear : NothingLeft (chain before docs) h f ↔ ∀ i source marker body,
      (chain before docs).flatten[i]? = some (.cat source marker body) → f.position ≤ i →
        h.files source = none ∧ (i = f.position → f.left = none) := Iff.rfl
  rw [hclear, ← hiff]
  constructor
  · rintro ⟨hreported, hcomplete⟩
    refine ⟨hreported, fun e he => ?_⟩
    refine hcomplete e.1.tmp e.1.target e.1.marker e.1.body ?_ ?_
    · exact mem_flatten_chain.2 (.inr ⟨e, he, .inl rfl⟩)
    · exact mem_flatten_chain.2 (.inr ⟨e, he, .inr (.inl (by simp [Doc.install]))⟩)
  · rintro ⟨hreported, hkept⟩
    refine ⟨hreported, fun source target marker body hcat hmv => ?_⟩
    obtain ⟨e, he, rfl, rfl, rfl⟩ : ∃ e ∈ docs, source = e.1.tmp ∧ marker = e.1.marker ∧ body = e.1.body := by
      rcases mem_flatten_chain.1 hcat with hcat | ⟨e, he, hcat | hcat | hcat⟩
      · exact absurd rfl (hbefore _ hcat source marker body)
      · cases hcat
        exact ⟨e, he, rfl, rfl, rfl⟩
      · rcases mem_install hcat with ⟨_, h⟩ | h <;> cases h
      · exact absurd rfl (hplain e he _ hcat source marker body)
    obtain ⟨e', he', htmp, rfl⟩ : ∃ e' ∈ docs, e.1.tmp = e'.1.tmp ∧ target = e'.1.target := by
      -- a plain command is possible also where there is no file
      have hmissing : ∀ source target, ¬ ∀ h, possible h (.mv source target) = true := fun source target hp =>
        absurd (hp ⟨0, fun _ => none, fun _ => none⟩) (by simp [possible])
      rcases mem_flatten_chain.1 hmv with hmv | ⟨e', he', hmv | hmv | hmv⟩
      · exact absurd (hsep.before _ hmv).1 (hmissing _ _)
      · cases hmv
      · rcases mem_install hmv with ⟨_, h⟩ | h
        · cases h
        · obtain ⟨htmp, htarget⟩ := Command.mv.inj h
          exact ⟨e', he', htmp, htarget⟩
      · exact absurd (hsep.after e' he' _ hmv).1 (hmissing _ _)
    obtain rfl := List.inj_on_of_nodup_map hsep.nodup he he' (Doc.tmp_inj htmp)
    exact hkept e he

end Chains

/-- A command that needs no file and writes no here-document. -/
def Command.still : Command → Bool
  | .cat _ _ _ | .chmod _ _ | .mv _ _ => false
  | _ => true

private theorem Command.plain_of_still {c : Command} {paths : List String} (hc : c.still = true)
    (hpaths : ∀ p ∈ paths, p ∉ c.writes) : c.Plain paths := by
  cases c with
  | cat path marker body => cases hc
  | chmod mode path => cases hc
  | mv source target => cases hc
  | _ => exact ⟨fun _ => rfl, hpaths, by simp⟩

/-- The files of a chain are told apart by their places. -/
theorem separate_of_lists {before : List Command} {docs : List (Doc × List Command)} (targets : List String)
    (commands : List Command) (htargets : docs.map (fun e => e.1.target) = targets)
    (hcommands : before ++ docs.flatMap Prod.snd = commands) (hnd : targets.Nodup)
    (hbeside : ∀ t ∈ targets, ∀ t' ∈ targets, t ++ ".tmp" ≠ t')
    (hstill : ∀ c ∈ commands, c.still = true ∧ ∀ t ∈ targets, t ++ ".tmp" ∉ c.writes ∧ t ∉ c.writes) :
    Separate before docs := by
  subst htargets hcommands
  have hmem : ∀ e ∈ docs, e.1.target ∈ docs.map fun e => e.1.target := fun e he => List.mem_map_of_mem he
  have hplain : ∀ c ∈ before ++ docs.flatMap Prod.snd, c.Plain (pathsOf docs) := by
    intro c hc
    refine Command.plain_of_still (hstill c hc).1 fun p hp => ?_
    obtain ⟨e, he, rfl | rfl⟩ := mem_pathsOf.1 hp
    · exact ((hstill c hc).2 _ (hmem e he)).1
    · exact ((hstill c hc).2 _ (hmem e he)).2
  exact ⟨hnd, fun e he e' he' => hbeside _ (hmem e he) _ (hmem e' he'),
    fun c hc => hplain c (List.mem_append_left _ hc),
    fun e he c hc => hplain c (List.mem_append_right _ (List.mem_flatMap.2 ⟨e, he, hc⟩))⟩

end Shell
