import Coold.Agent.PodmanClient

/-!
# Exit codes of commands

`execContainer` makes Podman create an `exec`, starts it and then asks after it until it has finished.
`returns_execContainer_iff` says when it ends with a code: Podman made and started the `exec`, the first inspections
found it running, and the next one found it finished with that code.  Whatever Podman answers, no more than
`maxAttempts` inspections are made (`atMost_execContainer`).
-/

namespace Coold.Agent.PodmanClient

open Exchange

section Exec

variable {env : Env} {sent sent' : List Request}

/-! ### What one request returns -/

/-- The answer to a request, decoded. -/
def answered {α : Type} (env : Env) (fromSlice : List UInt8 → Except String α) (sent : List Request) (r : Request) :
    Except String α :=
  withContext ("podman " ++ r.path) (env.answer sent r) >>= fun res => readJson env fromSlice res r.path

/-- The answer to a request, as a text. -/
def answeredText (env : Env) (sent : List Request) (r : Request) : Except String String :=
  withContext ("podman " ++ r.path) (env.answer sent r) >>= fun res => readText env res r.path

private theorem bind_eq_ok_iff {ε α β : Type} {x : Except ε α} {f : α → Except ε β} {b : β} :
    (x >>= f) = .ok b ↔ ∃ a, x = .ok a ∧ f a = .ok b := by
  cases x with
  | ok a => exact ⟨fun h => ⟨a, rfl, h⟩, fun ⟨a', ha, h⟩ => Except.ok.inj ha ▸ h⟩
  | error e =>
    constructor
    · intro h
      cases h
    · rintro ⟨a, ha, -⟩
      cases ha

/-- A request and the reading of its answer. -/
private theorem returns_send_iff {α : Type} {method : Method} {path : String} {body : Body}
    {read : Response → Except String α} {a : α} :
    Returns (send env method path body >>= fun res => ofExcept (read res)) sent a sent' ↔
      (withContext ("podman " ++ path) (env.answer sent ⟨method, path, body⟩) >>= read) = .ok a ∧
        sent' = sent ++ [⟨method, path, body⟩] := by
  rw [returns_bind_iff, bind_eq_ok_iff]
  constructor
  · rintro ⟨res, sent₁, hsend, hread⟩
    obtain ⟨hres, rfl⟩ := returns_request_iff.1 hsend
    obtain ⟨ha, rfl⟩ := returns_ofExcept_iff.1 hread
    exact ⟨⟨res, hres, ha⟩, rfl⟩
  · rintro ⟨⟨res, hres, ha⟩, rfl⟩
    exact ⟨res, _, returns_request_iff.2 ⟨hres, rfl⟩, returns_ofExcept_iff.2 ⟨ha, rfl⟩⟩

private theorem returns_getJson_iff {α : Type} {fromSlice : List UInt8 → Except String α} {path : String} {a : α} :
    Returns (getJson env fromSlice path) sent a sent' ↔
      answered env fromSlice sent ⟨.get, path, .empty⟩ = .ok a ∧ sent' = sent ++ [⟨.get, path, .empty⟩] :=
  returns_send_iff

private theorem returns_postJson_iff {α : Type} {fromSlice : List UInt8 → Except String α} {path : String} {body : Body}
    {a : α} :
    Returns (postJson env fromSlice path body) sent a sent' ↔
      answered env fromSlice sent ⟨.post, path, body⟩ = .ok a ∧ sent' = sent ++ [⟨.post, path, body⟩] :=
  returns_send_iff

private theorem returns_postEmpty_iff {path : String} {text : String} :
    Returns (postEmpty env path) sent text sent' ↔
      answeredText env sent ⟨.post, path, .empty⟩ = .ok text ∧ sent' = sent ++ [⟨.post, path, .empty⟩] :=
  returns_send_iff

/-! ### Polling -/

def inspectRequest (path : String) : Request := ⟨.get, path, .empty⟩

/-- What the inspection after `n` earlier ones finds. -/
def inspection (env : Env) (path : String) (sent : List Request) (n : Nat) : Except String ExecInspect :=
  answered env env.execInspect (sent ++ List.replicate n (inspectRequest path)) (inspectRequest path)

/-- The inspections before the `n`-th find the `exec` running, and that one finds it finished with `code`. -/
structure FinishesAt (env : Env) (path : String) (sent : List Request) (code : Int32) (n : Nat) : Prop where
  running : ∀ k < n, ∃ inspect, inspection env path sent k = .ok inspect ∧ inspect.running = true
  finished : ∃ inspect, inspection env path sent n = .ok inspect ∧ inspect.running = false ∧ inspect.exitCode = code

private theorem finishedExecExitCode_eq_some {inspect : ExecInspect} {code : Int32} :
    finishedExecExitCode inspect = some code ↔ inspect.running = false ∧ inspect.exitCode = code := by
  rw [finishedExecExitCode]
  cases inspect.running with
  | true => simp
  | false => simp

private theorem finishedExecExitCode_eq_none {inspect : ExecInspect} :
    finishedExecExitCode inspect = none ↔ inspect.running = true := by
  rw [finishedExecExitCode]
  cases inspect.running with
  | true => simp
  | false => simp

private theorem inspection_succ (path : String) (sent : List Request) (n : Nat) :
    inspection env path sent (n + 1) = inspection env path (sent ++ [inspectRequest path]) n := by
  rw [inspection, inspection, List.replicate_succ, List.append_assoc, List.singleton_append]

private theorem finishesAt_zero_iff {path : String} {code : Int32} : FinishesAt env path sent code 0 ↔
    ∃ inspect, inspection env path sent 0 = .ok inspect ∧ inspect.running = false ∧ inspect.exitCode = code :=
  ⟨fun h => h.finished, fun h => ⟨fun _ hk => absurd hk (Nat.not_lt_zero _), h⟩⟩

/-- The first inspection counts for itself, the others follow it. -/
private theorem finishesAt_succ_iff {path : String} {code : Int32} {n : Nat} : FinishesAt env path sent code (n + 1) ↔
    (∃ inspect, inspection env path sent 0 = .ok inspect ∧ inspect.running = true) ∧
      FinishesAt env path (sent ++ [inspectRequest path]) code n := by
  constructor
  · intro h
    refine ⟨h.running 0 (Nat.succ_pos n), ⟨fun k hk => ?_, ?_⟩⟩
    · have hrunning := h.running (k + 1) (Nat.succ_lt_succ hk)
      rwa [inspection_succ] at hrunning
    · have hfinished := h.finished
      rwa [inspection_succ] at hfinished
  · rintro ⟨hfirst, hrest⟩
    refine ⟨fun k hk => ?_, ?_⟩
    · cases k with
      | zero => exact hfirst
      | succ k =>
        rw [inspection_succ]
        exact hrest.running k (Nat.lt_of_succ_lt_succ hk)
    · rw [inspection_succ]
      exact hrest.finished

/-- One attempt: an inspection, and then its code or the other attempts. -/
private theorem returns_pollExec_succ_iff {path execId : String} {attempts : Nat} {code : Int32} :
    Returns (pollExec env path execId (attempts + 1)) sent code sent' ↔
      ∃ inspect, inspection env path sent 0 = .ok inspect ∧
        ((inspect.running = false ∧ inspect.exitCode = code ∧ sent' = sent ++ [inspectRequest path]) ∨
          (inspect.running = true ∧
            Returns (pollExec env path execId attempts) (sent ++ [inspectRequest path]) code sent')) := by
  rw [pollExec, returns_bind_iff]
  have hzero : inspection env path sent 0 = answered env env.execInspect sent ⟨.get, path, .empty⟩ := by
    rw [inspection, List.replicate_zero, List.append_nil]
    rfl
  rw [hzero]
  constructor
  · rintro ⟨inspect, sent₁, hget, hrest⟩
    obtain ⟨hinspect, rfl⟩ := returns_getJson_iff.1 hget
    refine ⟨inspect, hinspect, ?_⟩
    cases hcode : finishedExecExitCode inspect with
    | some c =>
      rw [hcode] at hrest
      obtain ⟨rfl, rfl⟩ := returns_pure_iff.1 hrest
      obtain ⟨hrunning, hexit⟩ := finishedExecExitCode_eq_some.1 hcode
      exact Or.inl ⟨hrunning, hexit, rfl⟩
    | none =>
      rw [hcode] at hrest
      exact Or.inr ⟨finishedExecExitCode_eq_none.1 hcode, hrest⟩
  · rintro ⟨inspect, hinspect, ⟨hrunning, hexit, rfl⟩ | ⟨hrunning, hrest⟩⟩
    · refine ⟨inspect, _, returns_getJson_iff.2 ⟨hinspect, rfl⟩, ?_⟩
      rw [finishedExecExitCode_eq_some.2 ⟨hrunning, hexit⟩]
      exact returns_pure_iff.2 ⟨rfl, rfl⟩
    · refine ⟨inspect, _, returns_getJson_iff.2 ⟨hinspect, rfl⟩, ?_⟩
      rw [finishedExecExitCode_eq_none.2 hrunning]
      exact hrest

/-- Polling ends with a code when one of its inspections is the first to find the `exec` finished. -/
private theorem returns_pollExec_iff {path execId : String} {attempts : Nat} {code : Int32} :
    Returns (pollExec env path execId attempts) sent code sent' ↔
      ∃ n < attempts, FinishesAt env path sent code n ∧
        sent' = sent ++ List.replicate (n + 1) (inspectRequest path) := by
  induction attempts generalizing sent with
  | zero => exact iff_of_false not_returns_throw fun ⟨_, hn, _⟩ => absurd hn (Nat.not_lt_zero _)
  | succ attempts ih =>
    rw [returns_pollExec_succ_iff]
    constructor
    · rintro ⟨inspect, hinspect, ⟨hrunning, hexit, rfl⟩ | ⟨hrunning, hrest⟩⟩
      · exact ⟨0, Nat.succ_pos attempts, finishesAt_zero_iff.2 ⟨inspect, hinspect, hrunning, hexit⟩, rfl⟩
      · obtain ⟨n, hn, hfinishes, rfl⟩ := ih.1 hrest
        refine ⟨n + 1, Nat.succ_lt_succ hn, finishesAt_succ_iff.2 ⟨⟨inspect, hinspect, hrunning⟩, hfinishes⟩, ?_⟩
        rw [List.append_assoc, List.singleton_append, ← List.replicate_succ]
    · rintro ⟨n, hn, hfinishes, rfl⟩
      cases n with
      | zero =>
        obtain ⟨inspect, hinspect, hrunning, hexit⟩ := finishesAt_zero_iff.1 hfinishes
        exact ⟨inspect, hinspect, Or.inl ⟨hrunning, hexit, rfl⟩⟩
      | succ n =>
        obtain ⟨⟨inspect, hinspect, hrunning⟩, hrest⟩ := finishesAt_succ_iff.1 hfinishes
        refine ⟨inspect, hinspect, Or.inr ⟨hrunning, ih.2 ⟨n, Nat.lt_of_succ_lt_succ hn, hrest, ?_⟩⟩⟩
        rw [List.append_assoc, List.singleton_append, ← List.replicate_succ]

/-! ### The whole call -/

def execCreateRequest (env : Env) (id : String) (command : List String) : Request :=
  ⟨.post, "/v5.0.0/libpod/containers/" ++ urlEscape env id ++ "/exec", .exec command⟩

def execStartRequest (env : Env) (execId : String) : Request :=
  ⟨.post, "/v5.0.0/libpod/exec/" ++ urlEscape env execId ++ "/start", .empty⟩

def execInspectPath (env : Env) (execId : String) : String :=
  "/v5.0.0/libpod/exec/" ++ urlEscape env execId ++ "/json"

/-- Podman makes and starts an `exec` of the command, `n` inspections find it running and the next one finds it
finished. -/
structure ExecRun (env : Env) (id : String) (command : List String) (sent : List Request) (code : Int32)
    (output : String) (execId : String) (n : Nat) : Prop where
  created : answered env env.execCreateResponse sent (execCreateRequest env id command) = .ok ⟨execId⟩
  named : execId ≠ ""
  started : answeredText env (sent ++ [execCreateRequest env id command]) (execStartRequest env execId) = .ok output
  finishes : FinishesAt env (execInspectPath env execId)
    (sent ++ [execCreateRequest env id command, execStartRequest env execId]) code n

/-- The requests of such a run. -/
def execRequests (env : Env) (id : String) (command : List String) (execId : String) (n : Nat) : List Request :=
  execCreateRequest env id command :: execStartRequest env execId ::
    List.replicate (n + 1) (inspectRequest (execInspectPath env execId))

theorem returns_execContainer_iff {id : String} {command : List String} {code : Int32} {output : String} :
    Returns (execContainer env id command) sent (code, output) sent' ↔
      command ≠ [] ∧ ∃ execId, ∃ n < maxAttempts, ExecRun env id command sent code output execId n ∧
        sent' = sent ++ execRequests env id command execId n := by
  rw [execContainer, returns_check_iff]
  refine and_congr_right fun _ => ?_
  constructor
  · intro h
    obtain ⟨⟨execId⟩, sent₁, hcreate, h⟩ := returns_bind_iff.1 h
    obtain ⟨hcreated, rfl⟩ := returns_postJson_iff.1 hcreate
    obtain ⟨hnamed, h⟩ := returns_check_iff.1 h
    obtain ⟨text, sent₂, hstart, h⟩ := returns_bind_iff.1 h
    obtain ⟨hstarted, rfl⟩ := returns_postEmpty_iff.1 hstart
    obtain ⟨exit, sent₃, hwait, h⟩ := returns_bind_iff.1 h
    obtain ⟨n, hn, hfinishes, rfl⟩ := returns_pollExec_iff.1 hwait
    obtain ⟨hvalue, rfl⟩ := returns_pure_iff.1 h
    obtain ⟨rfl, rfl⟩ := Prod.mk.inj hvalue
    rw [List.append_assoc, List.append_assoc]
    rw [List.append_assoc] at hfinishes
    exact ⟨execId, n, hn, ⟨hcreated, hnamed, hstarted, hfinishes⟩, rfl⟩
  · rintro ⟨execId, n, hn, hrun, rfl⟩
    refine returns_bind_iff.2 ⟨⟨execId⟩, _, returns_postJson_iff.2 ⟨hrun.created, rfl⟩, ?_⟩
    refine returns_check_iff.2 ⟨hrun.named, ?_⟩
    refine returns_bind_iff.2 ⟨output, _, returns_postEmpty_iff.2 ⟨hrun.started, rfl⟩, ?_⟩
    refine returns_bind_iff.2 ⟨code, _, returns_pollExec_iff.2 ⟨n, hn, ?_, rfl⟩, ?_⟩
    · rw [List.append_assoc]
      exact hrun.finishes
    · refine returns_pure_iff.2 ⟨rfl, ?_⟩
      rw [List.append_assoc, List.append_assoc]
      rfl

private theorem atMost_getJson {α : Type} (fromSlice : List UInt8 → Except String α) (path : String) :
    AtMost 1 (getJson env fromSlice path) :=
  (atMost_request _ _).bind fun _ => atMost_ofExcept 0 _

private theorem atMost_pollExec (path execId : String) (attempts : Nat) :
    AtMost attempts (pollExec env path execId attempts) := by
  induction attempts with
  | zero => exact atMost_throw 0 _
  | succ attempts ih =>
    rw [pollExec, Nat.add_comm]
    refine (atMost_getJson _ _).bind fun inspect => ?_
    cases finishedExecExitCode inspect with
    | some code => exact atMost_pure attempts code
    | none => exact ih

theorem atMost_execContainer (id : String) (command : List String) :
    AtMost (1 + (1 + maxAttempts)) (execContainer env id command) := by
  refine AtMost.check ?_
  refine AtMost.bind ((atMost_request _ _).bind fun _ => atMost_ofExcept 0 _) fun create => AtMost.check ?_
  refine AtMost.bind ((atMost_request _ _).bind fun _ => atMost_ofExcept 0 _) fun output => ?_
  exact (atMost_pollExec _ _ maxAttempts).bind fun exit => atMost_pure 0 _

/-- A command ends with a code exactly when Podman made and started it and one of at most `maxAttempts` inspections,
all the earlier ones having found it running, found it finished with that code; however it ends, it sends no more
requests than these. -/
theorem execContainer_exit_code (env : Env) (id : String) (command : List String) (sent : List Request) :
    (∀ code output sent', Returns (execContainer env id command) sent (code, output) sent' ↔
      command ≠ [] ∧ ∃ execId, ∃ n < maxAttempts, ExecRun env id command sent code output execId n ∧
        sent' = sent ++ execRequests env id command execId n) ∧
    ((execContainer env id command).after sent).length ≤ sent.length + (maxAttempts + 2) := by
  refine ⟨fun _ _ _ => returns_execContainer_iff, ?_⟩
  have hmost : ((execContainer env id command).after sent).length ≤ sent.length + (1 + (1 + maxAttempts)) :=
    atMost_execContainer id command sent
  omega

end Exec

end Coold.Agent.PodmanClient
