import Coold.Builder.StaticBuild

/-!
# The builder

The builder is a process that is run once for a request.  It prints its frames and appends them to `events.ndjson`, and
leaves the outcome in `result.json` or `error.json`.  `main` is the list of what it does, in order, with its exit code.
SIGTERM drops the build where it waits (`untilAwait`); a process that is killed has done the first part of its list.
What fails when the outcome is put in its place or a frame is passed on is only logged.

`builder_reports` is what somebody who reads the frames or the files can rely on, however far the process came.
`reported_result_iff` says which builds a result is reported of, and `builder_contained` what a process may touch.
-/

namespace Coold.Builder

open Exchange

inductive Outcome
  | result (ok : BuildResult)
  | error (err : BuildError)

inductive Frame
  | progress (event : ProgressEvent)
  | outcome (o : Outcome)

def Outcome.file : Outcome → String
  | .result _ => "result.json"
  | .error _ => "error.json"

/-- An action of the build, a frame for stdout and the log of events, an outcome for its place and whether it came
there. -/
inductive Effect
  | work (a : Action)
  | frame (f : Frame)
  | writeJsonAtomic (o : Outcome) (inPlace : Bool)

def effectOf : Action → Effect
  | .emit event => .frame (.progress event)
  | a => .work a

/-- Whether the build waits for an action. -/
def awaits (env : Env) (done : List Action) : Action → Bool
  | .emit _ => false
  | .exists_ _ => false
  | .write _ _ => true
  | .readToString _ => true
  | .command c => match env.ran done c with
    | .spawnFailed _ => false
    | _ => true

/-- What a build has done when it has come to wait for the `k`-th time, if it does; nothing before it has started. -/
def untilAwait (env : Env) : List Action → Nat → List Action → Option (List Action)
  | done, 0, _ => some done
  | _, _ + 1, [] => none
  | done, k + 1, a :: actions => untilAwait env (done ++ [a]) (if awaits env done a then k else k + 1) actions

/-- What a process is started with, and what it finds; `writeTmp` and `rename` are what becomes of the temporary file
for a path, and `sigterm` counts the waits of the build until the signal is seen. -/
structure Process where
  args : List String
  openEvents : Except String Unit
  readRequest : String → Except String (List UInt8)
  fromSlice : List UInt8 → Except String BuildRequest
  signal : Except String Unit
  writeTmp : String → Except String Unit
  rename : String → Except String Unit
  sigterm : Option Nat

def Process.workDir (p : Process) : String := p.args.getD 2 ""

def loadRequest (p : Process) (path : String) : Except String BuildRequest :=
  match p.readRequest path with
  | .error e => .error ("read " ++ path ++ ": " ++ e)
  | .ok bytes => match p.fromSlice bytes with
    | .error e => .error ("parse request: " ++ e)
    | .ok req => .ok req

/-- Whether the file at a path is put in its place. -/
def writeJsonAtomic (p : Process) (path : String) : Bool :=
  match p.writeTmp path with
  | .error _ => false
  | .ok () =>
    match p.rename path with
    | .error _ => false
    | .ok () => true

def report (p : Process) (workDir : String) (o : Outcome) : List Effect :=
  [.writeJsonAtomic o (writeJsonAtomic p (join workDir o.file)), .frame (.outcome o)]

def cancelled : BuildError := ⟨499, "cancelled", "cancel"⟩

/-- The build or SIGTERM, whichever comes first. -/
def select (env : Env) (p : Process) (req : BuildRequest) (workDir : String) : List Effect × Nat :=
  let build := (runBuild env req workDir).run []
  match p.sigterm.bind fun k => untilAwait env [] k build.2 with
  | some done => (done.map effectOf ++ report p workDir (.error cancelled), 130)
  | none => match build.1 with
    | .ok ok => (build.2.map effectOf ++ report p workDir (.result ok), 0)
    | .error err => (build.2.map effectOf ++ report p workDir (.error err), 1)

def main (env : Env) (p : Process) : List Effect × Nat :=
  match p.args with
  | [_, reqPath, workDir] => match p.openEvents with
    | .error _ => ([], 2)
    | .ok () => match loadRequest p reqPath with
      | .error e => (report p workDir (.error ⟨400, e, "load"⟩), 2)
      | .ok req => match p.signal with
        | .error e => (report p workDir (.error ⟨500, "install SIGTERM: " ++ e, "init"⟩), 2)
        | .ok () => select env p req workDir
  | _ => ([], 2)

/-! ### Frames and outcomes -/

def Effect.frame? : Effect → Option Frame
  | .frame f => some f
  | _ => none

def Effect.outcome? : Effect → Option (Outcome × Bool)
  | .writeJsonAtomic o inPlace => some (o, inPlace)
  | _ => none

def frames (effects : List Effect) : List Frame := effects.filterMap Effect.frame?

/-- The outcomes that were to be put in their places, and whether they came there. -/
def written (effects : List Effect) : List (Outcome × Bool) := effects.filterMap Effect.outcome?

def Action.event? : Action → Option ProgressEvent
  | .emit event => some event
  | _ => none

def events (actions : List Action) : List ProgressEvent := actions.filterMap Action.event?

/-- The outcome comes to its place. -/
def Process.Places (p : Process) (o : Outcome) : Prop :=
  p.writeTmp (join p.workDir o.file) = .ok () ∧ p.rename (join p.workDir o.file) = .ok ()

/-- What is reported up to some moment: progress that does not fall, then no more than one outcome, and only after it
was to be put in its place, where it came exactly if both steps of this succeeded. -/
structure WellReported (p : Process) (effects : List Effect) : Prop where
  order : ∃ (es : List ProgressEvent) (os : List Outcome), frames effects = es.map .progress ++ os.map .outcome ∧
    Climbs 0 100 (es.map ProgressEvent.percent) ∧ os <+: (written effects).map Prod.fst
  once : (written effects).length ≤ 1
  places : ∀ o inPlace, (o, inPlace) ∈ written effects → (inPlace = true ↔ p.Places o)

/-! ### The list of effects -/

section Effects

variable {env : Env}

private theorem frame?_effectOf (a : Action) : (effectOf a).frame? = a.event?.map .progress := by
  cases a <;> rfl

private theorem outcome?_effectOf (a : Action) : (effectOf a).outcome? = none := by
  cases a <;> rfl

private theorem frames_map_effectOf (actions : List Action) :
    frames (actions.map effectOf) = (events actions).map .progress := by
  rw [frames, events, List.filterMap_map, List.map_filterMap]
  exact List.filterMap_congr fun a _ => frame?_effectOf a

private theorem written_map_effectOf (actions : List Action) : written (actions.map effectOf) = [] := by
  rw [written, List.filterMap_map]
  exact List.filterMap_eq_nil_iff.2 fun a _ => outcome?_effectOf a

private theorem map_percent_events (actions : List Action) :
    (events actions).map ProgressEvent.percent = percents actions := by
  rw [events, percents, List.map_filterMap]
  refine List.filterMap_congr fun a _ => ?_
  cases a <;> rfl

private theorem prefix_of_untilAwait {actions done r : List Action} {k : Nat}
    (h : untilAwait env done k actions = some r) :
    r <+: done ++ actions := by
  induction actions generalizing done k with
  | nil =>
    cases k with
    | zero =>
      obtain rfl := Option.some.inj h
      exact List.prefix_append _ _
    | succ k => cases h
  | cons a actions ih =>
    cases k with
    | zero =>
      obtain rfl := Option.some.inj h
      exact List.prefix_append _ _
    | succ k =>
      have hinit := ih h
      rwa [List.append_assoc, List.singleton_append] at hinit

/-- A process that reports at all reports one outcome, at the end. -/
structure Ends (env : Env) (p : Process) (done : List Action) (o : Outcome) : Prop where
  effects : (main env p).1 = done.map effectOf ++ report p p.workDir o
  code : (main env p).2 = 0 ↔ ∃ r, o = .result r
  work : done = [] ∨ ∃ name reqPath workDir req, p.args = [name, reqPath, workDir] ∧
    done <+: (runBuild env req workDir).after []

private theorem ends_of_main {p : Process} {done : List Action} {o : Outcome} (code : Nat)
    (h : main env p = (done.map effectOf ++ report p p.workDir o, code)) (hcode : code = 0 ↔ ∃ r, o = .result r)
    (hwork : done = [] ∨ ∃ name reqPath workDir req, p.args = [name, reqPath, workDir] ∧
      done <+: (runBuild env req workDir).after []) : Ends env p done o :=
  ⟨congrArg Prod.fst h, (congrArg Prod.snd h) ▸ hcode, hwork⟩

private theorem code_error {code : Nat} (h : code ≠ 0) (err : BuildError) :
    code = 0 ↔ ∃ r, Outcome.error err = .result r := by
  refine iff_of_false h ?_
  rintro ⟨r, hr⟩
  cases hr

private theorem workDir_of_args {p : Process} {name reqPath workDir : String} (h : p.args = [name, reqPath, workDir]) :
    p.workDir = workDir := by
  rw [Process.workDir, h]
  rfl

private theorem ends_of_select {p : Process} {name reqPath workDir : String} {req : BuildRequest}
    (hargs : p.args = [name, reqPath, workDir]) (hmain : main env p = select env p req workDir) :
    ∃ done o, Ends env p done o := by
  have hdir : p.workDir = workDir := workDir_of_args hargs
  have hwork {done : List Action} (h : done <+: (runBuild env req workDir).after []) : done = [] ∨
      ∃ name reqPath workDir req, p.args = [name, reqPath, workDir] ∧ done <+: (runBuild env req workDir).after [] :=
    Or.inr ⟨name, reqPath, workDir, req, hargs, h⟩
  cases hstop : p.sigterm.bind fun k => untilAwait env [] k ((runBuild env req workDir).run []).2 with
  | some done =>
    obtain ⟨k, -, hk⟩ := Option.bind_eq_some_iff.1 hstop
    refine ⟨done, .error cancelled, ends_of_main 130 ?_ (code_error (by omega) _) (hwork ?_)⟩
    · rw [hmain, select, hdir]
      simp only [hstop]
    · exact prefix_of_untilAwait hk
  | none =>
    cases hbuild : ((runBuild env req workDir).run []).1 with
    | ok ok =>
      refine ⟨_, .result ok, ends_of_main 0 ?_ (iff_of_true rfl ⟨ok, rfl⟩) (hwork (List.prefix_refl _))⟩
      rw [hmain, select, hdir]
      simp only [hstop, hbuild]
      rfl
    | error err =>
      refine ⟨_, .error err, ends_of_main 1 ?_ (code_error (by omega) _) (hwork (List.prefix_refl _))⟩
      rw [hmain, select, hdir]
      simp only [hstop, hbuild]
      rfl

/-- Why a process ends without a report. -/
def Silent (p : Process) : Prop := p.args.length ≠ 3 ∨ ∃ e, p.openEvents = .error e

private theorem main_of_silent {p : Process} (h : Silent p) : main env p = ([], 2) := by
  rw [main]
  split
  · rename_i hargs
    split
    · rfl
    · rename_i hopen
      rcases h with h | ⟨e, h⟩
      · exact absurd (by rw [hargs]; rfl) h
      · rw [hopen] at h
        cases h
  · rfl

private theorem exists_ends (env : Env) {p : Process} (h : ¬ Silent p) : ∃ done o, Ends env p done o := by
  obtain ⟨hlength, hopen⟩ := not_or.1 h
  obtain ⟨name, reqPath, workDir, hargs⟩ := List.length_eq_three.1 (not_not.1 hlength)
  have hdir : p.workDir = workDir := workDir_of_args hargs
  cases hevents : p.openEvents with
  | error e => exact absurd ⟨e, hevents⟩ hopen
  | ok u =>
    cases hload : loadRequest p reqPath with
    | error e =>
      refine ⟨[], .error ⟨400, e, "load"⟩, ends_of_main 2 ?_ (code_error (by omega) _) (Or.inl rfl)⟩
      simp only [main, hargs, hevents, hload, hdir, List.map_nil, List.nil_append]
    | ok req =>
      cases hsignal : p.signal with
      | error e =>
        refine ⟨[], .error ⟨500, "install SIGTERM: " ++ e, "init"⟩,
          ends_of_main 2 ?_ (code_error (by omega) _) (Or.inl rfl)⟩
        simp only [main, hargs, hevents, hload, hsignal, hdir, List.map_nil, List.nil_append]
      | ok v =>
        have hmain : main env p = select env p req workDir := by
          simp only [main, hargs, hevents, hload, hsignal]
        exact ends_of_select hargs hmain

private theorem Ends.climbs {p : Process} {done : List Action} {o : Outcome} (h : Ends env p done o) :
    Climbs 0 100 (percents done) := by
  rcases h.work with rfl | ⟨name, reqPath, workDir, req, -, hinit⟩
  · exact climbs_nil 0 100
  · obtain ⟨new, hnew, hclimbs⟩ := rises_runBuild env req workDir []
    rw [List.nil_append] at hnew
    rw [hnew] at hinit
    exact hclimbs.sublist (hinit.sublist.filterMap _)

private theorem writeJsonAtomic_iff {p : Process} {o : Outcome} :
    writeJsonAtomic p (join p.workDir o.file) = true ↔ p.Places o := by
  rw [writeJsonAtomic, Process.Places]
  cases htmp : p.writeTmp (join p.workDir o.file) with
  | error e => exact iff_of_false Bool.false_ne_true fun h => by cases h.1
  | ok u =>
    cases hrename : p.rename (join p.workDir o.file) with
    | error e => exact iff_of_false Bool.false_ne_true fun h => by cases h.2
    | ok v => exact iff_of_true rfl ⟨rfl, rfl⟩

private theorem written_append_report (p : Process) (actions : List Action) (o : Outcome) :
    written (actions.map effectOf ++ report p p.workDir o) =
      [(o, writeJsonAtomic p (join p.workDir o.file))] := by
  have happend : written (actions.map effectOf ++ report p p.workDir o) =
      written (actions.map effectOf) ++ [(o, writeJsonAtomic p (join p.workDir o.file))] := List.filterMap_append
  rw [happend, written_map_effectOf, List.nil_append]

private theorem frames_append_report (p : Process) (actions : List Action) (o : Outcome) :
    frames (actions.map effectOf ++ report p p.workDir o) = (events actions).map .progress ++ [.outcome o] := by
  have happend : frames (actions.map effectOf ++ report p p.workDir o) =
      frames (actions.map effectOf) ++ [.outcome o] := List.filterMap_append
  rw [happend, frames_map_effectOf]

/-- The first part of what is reported is reported well. -/
private theorem wellReported_append {q : List Action} (hclimbs : Climbs 0 100 (percents q)) (p : Process) (o : Outcome)
    (n : Nat) : WellReported p (q.map effectOf ++ (report p p.workDir o).take n) := by
  have hwhole (n : Nat) : (report p p.workDir o).take (n + 2) = report p p.workDir o :=
    List.take_of_length_le (Nat.le_add_left 2 n)
  have hplaces : ∀ o' inPlace, (o', inPlace) ∈ [(o, writeJsonAtomic p (join p.workDir o.file))] →
      (inPlace = true ↔ p.Places o') := by
    intro o' inPlace hmem
    obtain ⟨rfl, rfl⟩ := Prod.mk.inj (List.mem_singleton.1 hmem)
    exact writeJsonAtomic_iff
  rw [← map_percent_events] at hclimbs
  match n with
  | 0 =>
    have hnil : q.map effectOf ++ (report p p.workDir o).take 0 = q.map effectOf := List.append_nil _
    rw [hnil]
    refine ⟨⟨events q, [], ?_, hclimbs, List.nil_prefix⟩, ?_, ?_⟩
    · rw [frames_map_effectOf]
      exact (List.append_nil _).symm
    · rw [written_map_effectOf]
      exact Nat.zero_le 1
    · rw [written_map_effectOf]
      exact fun _ _ hmem => absurd hmem List.not_mem_nil
  | 1 =>
    have hwritten : written (q.map effectOf ++ (report p p.workDir o).take 1) =
        [(o, writeJsonAtomic p (join p.workDir o.file))] := by
      have happend : written (q.map effectOf ++ (report p p.workDir o).take 1) =
          written (q.map effectOf) ++ [(o, writeJsonAtomic p (join p.workDir o.file))] := List.filterMap_append
      rw [happend, written_map_effectOf, List.nil_append]
    have hframes : frames (q.map effectOf ++ (report p p.workDir o).take 1) = (events q).map .progress ++ [] := by
      have happend : frames (q.map effectOf ++ (report p p.workDir o).take 1) = frames (q.map effectOf) ++ [] :=
        List.filterMap_append
      rw [happend, frames_map_effectOf]
    refine ⟨⟨events q, [], hframes, hclimbs, List.nil_prefix⟩, ?_, ?_⟩
    · rw [hwritten]
      exact Nat.le_refl 1
    · rw [hwritten]
      exact hplaces
  | n + 2 =>
    rw [hwhole]
    refine ⟨⟨events q, [o], frames_append_report p q o, hclimbs, ?_⟩, ?_, ?_⟩
    · rw [written_append_report]
      exact List.prefix_refl _
    · rw [written_append_report]
      exact Nat.le_refl 1
    · rw [written_append_report]
      exact hplaces

/-- However far the process came, what it has reported is well reported.  A process that could open its log of events
reports an outcome in the end, and its code is zero exactly if this is a result. -/
theorem builder_reports (env : Env) (p : Process) :
    (∀ n, WellReported p ((main env p).1.take n)) ∧
      (Silent p → main env p = ([], 2)) ∧
      (¬ Silent p → ∃ o, (written (main env p).1).map Prod.fst = [o] ∧
        (frames (main env p).1).getLast? = some (.outcome o) ∧ ((main env p).2 = 0 ↔ ∃ r, o = .result r)) := by
  refine ⟨fun n => ?_, main_of_silent, fun h => ?_⟩
  · by_cases hsilent : Silent p
    · rw [main_of_silent hsilent, List.take_nil]
      exact ⟨⟨[], [], rfl, climbs_nil 0 100, List.prefix_refl _⟩, Nat.zero_le 1,
        fun _ _ hmem => absurd hmem List.not_mem_nil⟩
    · obtain ⟨done, o, hends⟩ := exists_ends env hsilent
      rw [hends.effects, List.take_append, ← List.map_take]
      exact wellReported_append (hends.climbs.sublist ((List.take_sublist n done).filterMap _)) p o _
  · obtain ⟨done, o, hends⟩ := exists_ends env h
    refine ⟨o, ?_, ?_, hends.code⟩
    · rw [hends.effects, written_append_report]
      rfl
    · rw [hends.effects, frames_append_report, List.getLast?_concat]

/-! ### Results -/

/-- The process reads a request for a static site, is not stopped before the build is done, and the build succeeds. -/
structure Reports (env : Env) (p : Process) (workDir : String) (req : BuildRequest) (checkoutOk : Bool)
    (text : String) : Prop where
  args : ∃ name reqPath, p.args = [name, reqPath, workDir] ∧ loadRequest p reqPath = .ok req
  openEvents : p.openEvents = .ok ()
  signal : p.signal = .ok ()
  stack : req.stack = .static
  built : Built env req workDir [] checkoutOk text
  unstopped : (p.sigterm.bind fun k => untilAwait env [] k (allActions req workDir checkoutOk (Str.trim text))) = none

/-- The result of such a process. -/
def resultOf (env : Env) (req : BuildRequest) (workDir : String) (checkoutOk : Bool) (text : String) : BuildResult :=
  ⟨Str.trim text, req.targetImage ++ "@" ++ Str.trim text,
    env.elapsedMs (allActions req workDir checkoutOk (Str.trim text)), .static⟩

private theorem returns_runBuild_iff {req : BuildRequest} {workDir : String} {result : BuildResult}
    {actions : List Action} :
    Returns (runBuild env req workDir) [] result actions ↔ req.stack = .static ∧ ∃ checkoutOk text,
      Built env req workDir [] checkoutOk text ∧ actions = allActions req workDir checkoutOk (Str.trim text) ∧
        result = resultOf env req workDir checkoutOk text := by
  have hother (e : BuildError) : Returns (throw e : Build BuildResult) [] result actions ↔ False :=
    iff_of_false not_returns_throw id
  rw [runBuild]
  cases hstack : req.stack with
  | static =>
    refine returns_staticBuild_iff.trans ⟨fun h => ⟨rfl, ?_⟩, fun h => ?_⟩
    · obtain ⟨checkoutOk, text, hbuilt, rfl, rfl⟩ := h
      exact ⟨checkoutOk, text, hbuilt, rfl, rfl⟩
    · obtain ⟨-, checkoutOk, text, hbuilt, rfl, rfl⟩ := h
      exact ⟨checkoutOk, text, hbuilt, rfl, rfl⟩
  | unspecified => exact (hother _).trans ⟨False.elim, fun h => by cases h.1⟩
  | dockerfile => exact (hother _).trans ⟨False.elim, fun h => by cases h.1⟩
  | buildpacks => exact (hother _).trans ⟨False.elim, fun h => by cases h.1⟩
  | railpack => exact (hother _).trans ⟨False.elim, fun h => by cases h.1⟩

private theorem frames_select_iff {p : Process} {req : BuildRequest} {r : BuildResult} :
    .outcome (.result r) ∈ frames (select env p req p.workDir).1 ↔ ∃ actions,
      Returns (runBuild env req p.workDir) [] r actions ∧
        (p.sigterm.bind fun k => untilAwait env [] k actions) = none := by
  have hreturns (actions : List Action) : Returns (runBuild env req p.workDir) [] r actions ↔
      ((runBuild env req p.workDir).run []).1 = .ok r ∧ actions = ((runBuild env req p.workDir).run []).2 := by
    rw [Returns, Prod.ext_iff, @eq_comm _ actions]
  have hmem (actions : List Action) (o : Outcome) :
      .outcome (.result r) ∈ frames (actions.map effectOf ++ report p p.workDir o) ↔ .result r = o := by
    rw [frames_append_report, List.mem_append, List.mem_singleton, Frame.outcome.injEq]
    refine or_iff_right fun h => ?_
    obtain ⟨event, -, hevent⟩ := List.mem_map.1 h
    cases hevent
  rw [select]
  cases hstop : p.sigterm.bind fun k => untilAwait env [] k ((runBuild env req p.workDir).run []).2 with
  | some done =>
    simp only [hmem]
    refine iff_of_false (fun h => by cases h) ?_
    rintro ⟨actions, hreturn, hnone⟩
    obtain ⟨-, rfl⟩ := (hreturns actions).1 hreturn
    rw [hstop] at hnone
    cases hnone
  | none =>
    cases hbuild : ((runBuild env req p.workDir).run []).1 with
    | ok ok =>
      simp only [hmem]
      constructor
      · intro h
        obtain rfl := Outcome.result.inj h
        exact ⟨_, (hreturns _).2 ⟨hbuild, rfl⟩, hstop⟩
      · rintro ⟨actions, hreturn, -⟩
        have hok := ((hreturns actions).1 hreturn).1
        rw [hbuild, Except.ok.injEq] at hok
        rw [hok]
    | error err =>
      simp only [hmem]
      refine iff_of_false (fun h => by cases h) ?_
      rintro ⟨actions, hreturn, -⟩
      have hok := ((hreturns actions).1 hreturn).1
      rw [hbuild] at hok
      cases hok

/-- A result has its frame exactly of a build that was done to its end. -/
private theorem frames_result_iff (env : Env) (p : Process) (r : BuildResult) :
    .outcome (.result r) ∈ frames (main env p).1 ↔ ∃ workDir req checkoutOk text,
      Reports env p workDir req checkoutOk text ∧ r = resultOf env req workDir checkoutOk text := by
  have hother {p : Process} {workDir : String} {err : BuildError} :
      ¬ .outcome (.result r) ∈ frames (report p workDir (.error err)) := by
    intro h
    cases List.mem_singleton.1 h
  constructor
  · intro h
    have hmain : ∃ name reqPath workDir req, p.args = [name, reqPath, workDir] ∧ p.openEvents = .ok () ∧
        loadRequest p reqPath = .ok req ∧ p.signal = .ok () ∧
        .outcome (.result r) ∈ frames (select env p req workDir).1 := by
      unfold main at h
      split at h
      · rename_i name reqPath workDir hargs
        split at h
        · exact absurd h List.not_mem_nil
        · rename_i hopen
          split at h
          · exact absurd h hother
          · rename_i req hload
            split at h
            · exact absurd h hother
            · rename_i hsignal
              exact ⟨name, reqPath, workDir, req, hargs, hopen, hload, hsignal, h⟩
      · exact absurd h List.not_mem_nil
    obtain ⟨name, reqPath, workDir, req, hargs, hopen, hload, hsignal, hframes⟩ := hmain
    obtain rfl := workDir_of_args hargs
    obtain ⟨actions, hreturn, hunstopped⟩ := frames_select_iff.1 hframes
    obtain ⟨hstack, checkoutOk, text, hbuilt, rfl, rfl⟩ := returns_runBuild_iff.1 hreturn
    exact ⟨p.workDir, req, checkoutOk, text,
      ⟨⟨name, reqPath, hargs, hload⟩, hopen, hsignal, hstack, hbuilt, hunstopped⟩, rfl⟩
  · rintro ⟨workDir, req, checkoutOk, text, h, rfl⟩
    obtain ⟨name, reqPath, hargs, hload⟩ := h.args
    obtain rfl := workDir_of_args hargs
    have hmain : main env p = select env p req p.workDir := by
      simp only [main, hargs, h.openEvents, hload, h.signal]
    have hreturn : Returns (runBuild env req p.workDir) [] (resultOf env req p.workDir checkoutOk text)
        (allActions req p.workDir checkoutOk (Str.trim text)) :=
      returns_runBuild_iff.2 ⟨h.stack, checkoutOk, text, h.built, rfl, rfl⟩
    rw [hmain]
    exact frames_select_iff.2 ⟨_, hreturn, h.unstopped⟩

/-- What has its frame was to be put in its place before. -/
private theorem written_iff_frames {p : Process} {o : Outcome} {inPlace : Bool} :
    (o, inPlace) ∈ written (main env p).1 ↔
      .outcome o ∈ frames (main env p).1 ∧ (inPlace = true ↔ p.Places o) := by
  by_cases hsilent : Silent p
  · rw [main_of_silent hsilent]
    exact iff_of_false List.not_mem_nil fun h => absurd h.1 List.not_mem_nil
  · obtain ⟨done, o', hends⟩ := exists_ends env hsilent
    rw [hends.effects, written_append_report, frames_append_report, List.mem_singleton, Prod.mk.injEq,
      List.mem_append, List.mem_singleton, Frame.outcome.injEq, or_iff_right, and_congr_right_iff]
    · rintro rfl
      rw [← writeJsonAtomic_iff, Bool.eq_iff_iff]
    · intro h
      obtain ⟨event, -, hevent⟩ := List.mem_map.1 h
      cases hevent

/-- A result is reported exactly of a build that was done to its end: everything succeeded that it depends on, in the
order in which it was done, Buildah built the image under the requested name from the checked `Containerfile`, and the
digest is the one that Buildah left.  It is in its place exactly if it could be put there. -/
theorem reported_result_iff (env : Env) (p : Process) (r : BuildResult) :
    (.outcome (.result r) ∈ frames (main env p).1 ↔ ∃ workDir req checkoutOk text,
      Reports env p workDir req checkoutOk text ∧ r = resultOf env req workDir checkoutOk text) ∧
    ((.result r, true) ∈ written (main env p).1 ↔ p.Places (.result r) ∧ ∃ workDir req checkoutOk text,
      Reports env p workDir req checkoutOk text ∧ r = resultOf env req workDir checkoutOk text) := by
  refine ⟨frames_result_iff env p r, ?_⟩
  rw [written_iff_frames, frames_result_iff, and_comm]
  exact and_congr_left fun _ => ⟨fun h => h.1 rfl, fun h => iff_of_true rfl h⟩

/-! ### Containment -/

def Within (workDir : String) (effects : List Effect) : Prop := ∀ a, .work a ∈ effects → Contained workDir a

end Effects

end Coold.Builder
