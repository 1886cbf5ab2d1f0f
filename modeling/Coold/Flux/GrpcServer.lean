import Coold.Flux.Pending
import Coold.Flux.Routing
import Coold.Lib.Str

/-!
# The gRPC server of flux

One task serves each open stream: it takes the messages of coold one by one, and when the stream ends or its token
expires it removes the host from the stream map and reports it unreachable.  Status updates are published to
Laravel by tasks of their own, those that a message causes only while one of `statusPublishConcurrency` permits is
free.  The heartbeat marks hosts stale and pings every stream, waiting for room in its command channel.

`GrpcSys.step` is one step of one of these tasks, or of the client of a stream.  A stream is numbered by its place
in the list of all streams that were ever accepted, and a handle's `tx` is that number.
-/

namespace Coold.Flux

/-! ### Publishing a status -/

structure ResourceStatusPublisher where
  endpointUrl : Option String
  token : Option String
  deriving DecidableEq

structure ResourceStatusPayload where
  resourceType : String
  hostId : String
  containerId : String
  containerName : String
  status : String
  statusMessage : String
  deriving DecidableEq

def resourceStatusPayload (update : ResourceStatusUpdate) : ResourceStatusPayload :=
  { resourceType := update.resourceType
    hostId := update.hostId
    containerId := update.containerId
    containerName := update.containerName
    status := update.status
    statusMessage := update.statusMessage }

namespace ResourceStatusPublisher

def new (laravelApiUrl token : Option String) : ResourceStatusPublisher where
  endpointUrl :=
    ((laravelApiUrl.map fun url => Str.trimEndMatches '/' (Str.trim url)).filter fun url => url ≠ "").map
      fun url => url ++ "/api/v1/internal/flux/resource-status"
  token := (token.map Str.trim).filter fun token => token ≠ ""

/-- The body that is posted for an update; nothing is posted without an endpoint and a token. -/
def publish (p : ResourceStatusPublisher) (update : ResourceStatusUpdate) : Option ResourceStatusPayload :=
  match p.endpointUrl, p.token with
  | some _, some _ => some (resourceStatusPayload update)
  | _, _ => none

theorem hostId_of_publish {p : ResourceStatusPublisher} {update : ResourceStatusUpdate}
    {payload : ResourceStatusPayload} (h : p.publish update = some payload) : payload.hostId = update.hostId := by
  unfold publish at h
  split at h
  · obtain rfl := Option.some.inj h
    rfl
  · cases h

end ResourceStatusPublisher

/-- The status of a host itself. -/
def cooldStatusUpdate (hostId status statusMessage : String) : ResourceStatusUpdate :=
  { resourceType := "server"
    hostId := hostId
    containerId := ""
    containerName := ""
    status := status
    statusMessage := statusMessage }

def statusPublishConcurrency : Nat := 256

/-- Why an update is published: a stream was accepted, a message was received on it, it ended, or the heartbeat
found its host stale. -/
inductive Origin where
  | connected (stream : Nat)
  | message (stream : Nat)
  | disconnected (stream : Nat)
  | stale
  deriving DecidableEq

/-- A spawned publish task; a bounded one holds a permit. -/
structure PublishTask where
  update : ResourceStatusUpdate
  origin : Origin
  permit : Bool
  deriving DecidableEq

/-! ### Streams -/

/-- What a handshake that was accepted establishes. -/
structure Admission where
  hostId : String
  caps : List String
  advertisedCaps : List String
  tokenExp : Nat
  deriving DecidableEq

/-- `delivering` is the task between its lookup of the pending entry and the delivery; `gen` is a ghost, the
insertion that the response answers. -/
inductive StreamPhase where
  | running
  | delivering (resp : Response) (gen : Nat)
  | leaving
  | removed
  | finished
  deriving DecidableEq

/-- The command channel of a stream is its queue and whether its receiver is still there.  `accepted` is a ghost:
every message that was put on the channel. -/
structure StreamTask where
  hostId : String
  caps : List String
  advertisedCaps : List String
  tokenExp : Nat
  phase : StreamPhase
  queue : List ServerMsg
  rxOpen : Bool
  accepted : List ServerMsg
  deriving DecidableEq

namespace StreamTask

def new (a : Admission) : StreamTask :=
  { hostId := a.hostId
    caps := a.caps
    advertisedCaps := a.advertisedCaps
    tokenExp := a.tokenExp
    phase := .running
    queue := []
    rxOpen := true
    accepted := [] }

/-- The task has removed its host from the stream map. -/
def exited (t : StreamTask) : Bool :=
  match t.phase with
  | .removed | .finished => true
  | _ => false

/-- The response that the task is about to deliver, with the insertion that it answers. -/
def held (t : StreamTask) : Option (Response × Nat) :=
  match t.phase with
  | .delivering resp gen => some (resp, gen)
  | _ => none

def push (t : StreamTask) (msg : ServerMsg) : StreamTask :=
  { t with queue := t.queue ++ [msg], accepted := t.accepted ++ [msg] }

end StreamTask

def commandChannelCapacity : Nat := 64

inductive SendResult where
  | sent
  | full
  | closed
  deriving DecidableEq

/-- The outcome of `try_send` on the command channel; a message that is sent is pushed to its queue. -/
def StreamTask.trySend (t : StreamTask) : SendResult :=
  if !t.rxOpen then .closed
  else if commandChannelCapacity ≤ t.queue.length then .full
  else .sent

/-- Where the heartbeat task is in its round. -/
inductive Heartbeat where
  | waiting
  | reporting (hostIds : List String)
  | pinging (targets : List (String × Nat))
  deriving DecidableEq

structure GrpcConfig where
  publisher : ResourceStatusPublisher
  pongTimeoutSecs : Nat
  deriving DecidableEq

structure GrpcSys where
  streams : Streams
  tasks : List StreamTask
  permits : Nat
  publishing : List PublishTask
  posted : List (ResourceStatusPayload × Origin)
  heartbeat : Heartbeat

inductive GrpcOp where
  | connect (admission : Admission) (now : Nat)
  | hold (i : Nat) (resp : Response) (gen : Nat)
  | release (i : Nat)
  | statusUpdate (i : Nat) (update : ResourceStatusUpdate)
  | pong (i : Nat) (now : Nat)
  | ignore (i : Nat)
  | leave (i : Nat)
  | remove (i : Nat)
  | reportExit (i : Nat)
  | publish (k : Nat)
  | enqueue (i : Nat) (msg : ServerMsg)
  | take (i : Nat)
  | closeRx (i : Nat)
  | tick (now : Nat)
  | reportStale
  | pingTargets
  | ping (requestId : String)
  | sleep
  deriving DecidableEq

namespace GrpcSys

def init : GrpcSys :=
  { streams := .new
    tasks := []
    permits := statusPublishConcurrency
    publishing := []
    posted := []
    heartbeat := .waiting }

/-- The task of a stream, if it is at the given phase. -/
def taskAt (s : GrpcSys) (i : Nat) (phase : StreamPhase) : Option StreamTask :=
  s.tasks[i]?.filter fun t => t.phase = phase

def modifyTask (s : GrpcSys) (i : Nat) (f : StreamTask → StreamTask) : GrpcSys :=
  { s with tasks := s.tasks.modify i f }

def setPhase (s : GrpcSys) (i : Nat) (phase : StreamPhase) : GrpcSys :=
  s.modifyTask i fun t => { t with phase := phase }

def trySend (s : GrpcSys) (i : Nat) : Option SendResult := s.tasks[i]?.map StreamTask.trySend

/-- Spawn a publish task if a permit is free, else drop the update. -/
def spawnBoundedPublish (s : GrpcSys) (update : ResourceStatusUpdate) (origin : Origin) : GrpcSys :=
  if 0 < s.permits then
    { s with permits := s.permits - 1, publishing := s.publishing ++ [⟨update, origin, true⟩] }
  else s

/-- Publish an update. -/
def post (s : GrpcSys) (publisher : ResourceStatusPublisher) (update : ResourceStatusUpdate) (origin : Origin) :
    GrpcSys :=
  { s with posted := s.posted ++ ((publisher.publish update).map fun payload => (payload, origin)).toList }

def connect (s : GrpcSys) (a : Admission) (now : Nat) : GrpcSys :=
  { s with
    streams := s.streams.insert a.hostId ⟨s.tasks.length, a.caps, a.advertisedCaps⟩ now
    tasks := s.tasks ++ [.new a]
    publishing := s.publishing ++
      [⟨cooldStatusUpdate a.hostId "installed" "coold stream connected.", .connected s.tasks.length, false⟩] }

/-- A pong of a host that had been reported stale is reported. -/
def pong (s : GrpcSys) (i : Nat) (hostId : String) (now : Nat) : GrpcSys :=
  let restored := (s.streams.touch hostId now).1
  let s := { s with streams := (s.streams.touch hostId now).2 }
  if restored then
    s.spawnBoundedPublish (cooldStatusUpdate hostId "installed" "coold heartbeat restored.") (.message i)
  else s

def finishPublish (s : GrpcSys) (publisher : ResourceStatusPublisher) (k : Nat) (p : PublishTask) : GrpcSys :=
  { s with
    publishing := s.publishing.eraseIdx k
    permits := if p.permit then s.permits + 1 else s.permits }.post publisher p.update p.origin

def step (cfg : GrpcConfig) (s : GrpcSys) : GrpcOp → Option GrpcSys
  | .connect a now => some (s.connect a now)
  | .hold i resp gen => (s.taskAt i .running).map fun _ => s.setPhase i (.delivering resp gen)
  | .release i =>
    match s.tasks[i]?.map StreamTask.phase with
    | some (.delivering _ _) => some (s.setPhase i .running)
    | _ => none
  | .statusUpdate i update => (s.taskAt i .running).map fun _ => s.spawnBoundedPublish update (.message i)
  | .pong i now => (s.taskAt i .running).map fun t => s.pong i t.hostId now
  -- a second Hello, or a message without a payload
  | .ignore i => (s.taskAt i .running).map fun _ => s
  -- the token expired, the stream ended, or it could not be read
  | .leave i => (s.taskAt i .running).map fun _ => s.setPhase i .leaving
  | .remove i =>
    (s.taskAt i .leaving).map fun t => { s with streams := s.streams.remove t.hostId }.setPhase i .removed
  | .reportExit i =>
    (s.taskAt i .removed).map fun t =>
      (s.setPhase i .finished).post cfg.publisher
        (cooldStatusUpdate t.hostId "unreachable" "coold stream disconnected.") (.disconnected i)
  | .publish k => s.publishing[k]?.map fun p => s.finishPublish cfg.publisher k p
  | .enqueue i msg =>
    match s.trySend i with
    | some .sent => some (s.modifyTask i fun t => t.push msg)
    | _ => none
  | .take i => s.tasks[i]?.map fun _ => s.modifyTask i fun t => { t with queue := t.queue.drop 1 }
  | .closeRx i => s.tasks[i]?.map fun _ => s.modifyTask i fun t => { t with rxOpen := false }
  | .tick now =>
    match s.heartbeat with
    | .waiting =>
      let stale := s.streams.markStale now (fromSecs (max cfg.pongTimeoutSecs 1))
      some { s with streams := stale.2, heartbeat := .reporting stale.1 }
    | _ => none
  | .reportStale =>
    match s.heartbeat with
    | .reporting (hostId :: hostIds) =>
      some ({ s with heartbeat := .reporting hostIds }.post cfg.publisher
        (cooldStatusUpdate hostId "unreachable" "coold heartbeat timed out.") .stale)
    | _ => none
  | .pingTargets =>
    match s.heartbeat with
    | .reporting [] => some { s with heartbeat := .pinging s.streams.pingTargets }
    | _ => none
  -- `send` waits for room in the channel, and fails if the receiver is gone
  | .ping requestId =>
    match s.heartbeat with
    | .pinging ((_, tx) :: targets) =>
      match s.trySend tx with
      | some .sent =>
        some ({ s with heartbeat := .pinging targets }.modifyTask tx fun t => t.push ⟨requestId, some .ping⟩)
      | some .closed => some { s with heartbeat := .pinging targets }
      | _ => none
    | _ => none
  | .sleep =>
    match s.heartbeat with
    | .pinging [] => some { s with heartbeat := .waiting }
    | _ => none

/-! ### What a step does to the streams -/

theorem taskAt_eq_some {s : GrpcSys} {i : Nat} {phase : StreamPhase} {t : StreamTask} :
    s.taskAt i phase = some t ↔ s.tasks[i]? = some t ∧ t.phase = phase := by
  rw [taskAt, Option.filter_eq_some_iff]
  simp

@[simp] theorem streams_modifyTask (s : GrpcSys) (i : Nat) (f : StreamTask → StreamTask) :
    (s.modifyTask i f).streams = s.streams :=
  rfl

@[simp] theorem streams_setPhase (s : GrpcSys) (i : Nat) (phase : StreamPhase) :
    (s.setPhase i phase).streams = s.streams :=
  rfl

@[simp] theorem streams_post (s : GrpcSys) (p : ResourceStatusPublisher) (u : ResourceStatusUpdate) (o : Origin) :
    (s.post p u o).streams = s.streams :=
  rfl

@[simp] theorem tasks_post (s : GrpcSys) (p : ResourceStatusPublisher) (u : ResourceStatusUpdate) (o : Origin) :
    (s.post p u o).tasks = s.tasks :=
  rfl

@[simp] theorem streams_spawnBoundedPublish (s : GrpcSys) (u : ResourceStatusUpdate) (o : Origin) :
    (s.spawnBoundedPublish u o).streams = s.streams := by
  unfold spawnBoundedPublish
  split <;> rfl

@[simp] theorem tasks_spawnBoundedPublish (s : GrpcSys) (u : ResourceStatusUpdate) (o : Origin) :
    (s.spawnBoundedPublish u o).tasks = s.tasks := by
  unfold spawnBoundedPublish
  split <;> rfl

@[simp] theorem tasks_pong (s : GrpcSys) (i : Nat) (hostId : String) (now : Nat) :
    (s.pong i hostId now).tasks = s.tasks := by
  simp only [pong]
  split <;> simp

@[simp] theorem get_streams_pong (s : GrpcSys) (i : Nat) (hostId : String) (now : Nat) (h : String) :
    (s.pong i hostId now).streams.get h = s.streams.get h := by
  simp only [pong]
  split <;> simp

@[simp] theorem streams_finishPublish (s : GrpcSys) (p : ResourceStatusPublisher) (k : Nat) (t : PublishTask) :
    (s.finishPublish p k t).streams = s.streams :=
  rfl

@[simp] theorem tasks_finishPublish (s : GrpcSys) (p : ResourceStatusPublisher) (k : Nat) (t : PublishTask) :
    (s.finishPublish p k t).tasks = s.tasks :=
  rfl

theorem getElem?_tasks_modifyTask (s : GrpcSys) (i j : Nat) (f : StreamTask → StreamTask) :
    (s.modifyTask i f).tasks[j]? = s.tasks[j]?.map fun t => if i = j then f t else t := by
  rw [modifyTask, List.getElem?_modify]
  rfl

/-- How a step that neither accepts nor removes a stream changes a task: in its phase, by a message put on its
channel, or at the receiving end of the channel. -/
inductive TaskStep (a : GrpcOp) (i : Nat) (t : StreamTask) : StreamTask → Prop where
  | phase (phase : StreamPhase) : StreamTask.exited { t with phase := phase } = t.exited →
      (∀ resp gen, phase = .delivering resp gen → a = .hold i resp gen) → TaskStep a i t { t with phase := phase }
  | push (msg : ServerMsg) : a = .enqueue i msg ∨ msg.command = some .ping → TaskStep a i t (t.push msg)
  | receiver (queue : List ServerMsg) (rxOpen : Bool) : TaskStep a i t { t with queue := queue, rxOpen := rxOpen }

theorem TaskStep.same {a : GrpcOp} {i : Nat} {t : StreamTask} : TaskStep a i t t := .receiver t.queue t.rxOpen

theorem TaskStep.identity {a : GrpcOp} {i : Nat} {t t' : StreamTask} (h : TaskStep a i t t') :
    t'.hostId = t.hostId ∧ t'.caps = t.caps ∧ t'.advertisedCaps = t.advertisedCaps ∧ t'.exited = t.exited := by
  cases h with
  | phase phase hp _ => exact ⟨rfl, rfl, rfl, hp⟩
  | push msg _ => exact ⟨rfl, rfl, rfl, rfl⟩
  | receiver queue rxOpen => exact ⟨rfl, rfl, rfl, rfl⟩

/-- What all steps but two have in common: `get` sees the same streams, and each task makes a small step. -/
structure Quiet (a : GrpcOp) (s s' : GrpcSys) : Prop where
  get : ∀ h, s'.streams.get h = s.streams.get h
  task : ∀ i t, s.tasks[i]? = some t → ∃ t', s'.tasks[i]? = some t' ∧ TaskStep a i t t'
  task' : ∀ i t', s'.tasks[i]? = some t' → ∃ t, s.tasks[i]? = some t ∧ TaskStep a i t t'

private theorem Quiet.of_tasks_eq {a : GrpcOp} {s s' : GrpcSys} (hget : ∀ h, s'.streams.get h = s.streams.get h)
    (htasks : s'.tasks = s.tasks) : Quiet a s s' := by
  refine ⟨hget, fun i t ht => ⟨t, ?_, .same⟩, fun i t ht => ⟨t, ?_, .same⟩⟩
  · rw [htasks, ht]
  · rw [← htasks, ht]

private theorem Quiet.of_modifyTask {a : GrpcOp} {s s' : GrpcSys} {i : Nat} {f : StreamTask → StreamTask}
    (hget : ∀ h, s'.streams.get h = s.streams.get h) (htasks : s'.tasks = s.tasks.modify i f)
    (hf : ∀ t, s.tasks[i]? = some t → TaskStep a i t (f t)) : Quiet a s s' := by
  have hstep : ∀ j t, s.tasks[j]? = some t → TaskStep a j t (if i = j then f t else t) := by
    intro j t ht
    by_cases hij : i = j
    · subst hij
      rw [if_pos rfl]
      exact hf t ht
    · rw [if_neg hij]
      exact .same
  refine ⟨hget, fun j t ht => ⟨_, ?_, hstep j t ht⟩, fun j t' ht' => ?_⟩
  · rw [htasks, List.getElem?_modify, ht]
    rfl
  · rw [htasks, List.getElem?_modify] at ht'
    obtain ⟨t, ht, rfl⟩ := Option.map_eq_some_iff.1 ht'
    exact ⟨t, ht, hstep j t ht⟩

/-- A step accepts a stream, removes the host of one, or is quiet. -/
theorem step_cases {cfg : GrpcConfig} {s s' : GrpcSys} {a : GrpcOp} (h : s.step cfg a = some s') :
    (∃ ad now, a = .connect ad now ∧ s' = s.connect ad now) ∨
    (∃ i t, a = .remove i ∧ s.tasks[i]? = some t ∧ t.phase = .leaving ∧
      s' = { s with streams := s.streams.remove t.hostId }.setPhase i .removed) ∨
    ((∀ i, a ≠ .remove i) ∧ Quiet a s s') := by
  have hphase : ∀ {i : Nat} {t : StreamTask} {p q : StreamPhase}, t.phase = p →
      (∀ t : StreamTask, t.phase = p → StreamTask.exited { t with phase := q } = t.exited) →
      (∀ resp gen, q = .delivering resp gen → a = .hold i resp gen) → s.tasks[i]? = some t →
      ∀ t, s.tasks[i]? = some t → TaskStep a i t { t with phase := q } := by
    intro i t p q hp hq hd ht t' ht'
    obtain rfl := Option.some.inj (ht.symm.trans ht')
    exact .phase q (hq t hp) hd
  cases a with
  | connect ad now => exact Or.inl ⟨ad, now, rfl, (Option.some.inj h).symm⟩
  | hold i resp gen =>
    obtain ⟨t, ht, rfl⟩ := Option.map_eq_some_iff.1 h
    obtain ⟨ht, hp⟩ := taskAt_eq_some.1 ht
    refine Or.inr (Or.inr ⟨nofun, .of_modifyTask (fun _ => rfl) rfl (hphase hp ?_ (by simp) ht)⟩)
    intro t hp
    simp [StreamTask.exited, hp]
  | release i =>
    simp only [step] at h
    split at h
    · rename_i resp gen hd
      obtain rfl := Option.some.inj h
      obtain ⟨t, ht, hp⟩ := Option.map_eq_some_iff.1 hd
      refine Or.inr (Or.inr ⟨nofun, .of_modifyTask (fun _ => rfl) rfl (hphase hp ?_ (by simp) ht)⟩)
      intro t hp
      simp [StreamTask.exited, hp]
    · cases h
  | statusUpdate i update =>
    obtain ⟨t, -, rfl⟩ := Option.map_eq_some_iff.1 h
    exact Or.inr (Or.inr ⟨nofun, .of_tasks_eq (fun _ => by rw [streams_spawnBoundedPublish]) (by simp)⟩)
  | pong i now =>
    obtain ⟨t, -, rfl⟩ := Option.map_eq_some_iff.1 h
    exact Or.inr (Or.inr ⟨nofun, .of_tasks_eq (by simp) (by simp)⟩)
  | ignore i =>
    obtain ⟨t, -, rfl⟩ := Option.map_eq_some_iff.1 h
    exact Or.inr (Or.inr ⟨nofun, .of_tasks_eq (fun _ => rfl) rfl⟩)
  | leave i =>
    obtain ⟨t, ht, rfl⟩ := Option.map_eq_some_iff.1 h
    obtain ⟨ht, hp⟩ := taskAt_eq_some.1 ht
    refine Or.inr (Or.inr ⟨nofun, .of_modifyTask (fun _ => rfl) rfl (hphase hp ?_ (by simp) ht)⟩)
    intro t hp
    simp [StreamTask.exited, hp]
  | remove i =>
    obtain ⟨t, ht, rfl⟩ := Option.map_eq_some_iff.1 h
    obtain ⟨ht, hp⟩ := taskAt_eq_some.1 ht
    exact Or.inr (Or.inl ⟨i, t, rfl, ht, hp, rfl⟩)
  | reportExit i =>
    obtain ⟨t, ht, rfl⟩ := Option.map_eq_some_iff.1 h
    obtain ⟨ht, hp⟩ := taskAt_eq_some.1 ht
    refine Or.inr (Or.inr ⟨nofun, .of_modifyTask (fun _ => rfl) rfl (hphase hp ?_ (by simp) ht)⟩)
    intro t hp
    simp [StreamTask.exited, hp]
  | publish k =>
    obtain ⟨p, -, rfl⟩ := Option.map_eq_some_iff.1 h
    exact Or.inr (Or.inr ⟨nofun, .of_tasks_eq (fun _ => rfl) rfl⟩)
  | enqueue i msg =>
    simp only [step] at h
    split at h
    · obtain rfl := Option.some.inj h
      exact Or.inr (Or.inr ⟨nofun, .of_modifyTask (fun _ => rfl) rfl fun t _ => .push msg (Or.inl rfl)⟩)
    · cases h
  | take i =>
    obtain ⟨t, -, rfl⟩ := Option.map_eq_some_iff.1 h
    exact Or.inr (Or.inr ⟨nofun, .of_modifyTask (fun _ => rfl) rfl fun t _ => .receiver _ t.rxOpen⟩)
  | closeRx i =>
    obtain ⟨t, -, rfl⟩ := Option.map_eq_some_iff.1 h
    exact Or.inr (Or.inr ⟨nofun, .of_modifyTask (fun _ => rfl) rfl fun t _ => .receiver t.queue _⟩)
  | tick now =>
    simp only [step] at h
    split at h
    · obtain rfl := Option.some.inj h
      exact Or.inr (Or.inr ⟨nofun, .of_tasks_eq (by simp) rfl⟩)
    · cases h
  | reportStale =>
    simp only [step] at h
    split at h
    · obtain rfl := Option.some.inj h
      exact Or.inr (Or.inr ⟨nofun, .of_tasks_eq (fun _ => rfl) rfl⟩)
    · cases h
  | pingTargets =>
    simp only [step] at h
    split at h
    · obtain rfl := Option.some.inj h
      exact Or.inr (Or.inr ⟨nofun, .of_tasks_eq (fun _ => rfl) rfl⟩)
    · cases h
  | ping requestId =>
    simp only [step] at h
    split at h
    · split at h
      · obtain rfl := Option.some.inj h
        exact Or.inr (Or.inr ⟨nofun, .of_modifyTask (fun _ => rfl) rfl fun t _ => .push _ (Or.inr rfl)⟩)
      · obtain rfl := Option.some.inj h
        exact Or.inr (Or.inr ⟨nofun, .of_tasks_eq (fun _ => rfl) rfl⟩)
      · cases h
    · cases h
  | sleep =>
    simp only [step] at h
    split at h
    · obtain rfl := Option.some.inj h
      exact Or.inr (Or.inr ⟨nofun, .of_tasks_eq (fun _ => rfl) rfl⟩)
    · cases h

/-- A response that a task holds was held before, or this step has received it. -/
theorem held_step {cfg : GrpcConfig} {s s' : GrpcSys} {a : GrpcOp} (h : s.step cfg a = some s') {t' : StreamTask}
    (ht' : t' ∈ s'.tasks) {x : Response × Nat} (hx : t'.held = some x) :
    (∃ i, a = .hold i x.1 x.2) ∨ ∃ t ∈ s.tasks, t.held = some x := by
  rcases step_cases h with ⟨ad, now, rfl, rfl⟩ | ⟨i, t, rfl, ht, hp, rfl⟩ | ⟨-, hq⟩
  · rcases List.mem_append.1 ht' with ht' | ht'
    · exact Or.inr ⟨t', ht', hx⟩
    · obtain rfl := List.mem_singleton.1 ht'
      cases hx
  · obtain ⟨j, hj⟩ := List.getElem?_of_mem ht'
    rw [setPhase, getElem?_tasks_modifyTask, Option.map_eq_some_iff] at hj
    obtain ⟨t₀, ht₀, rfl⟩ := hj
    split at hx
    · cases hx
    · exact Or.inr ⟨t₀, List.mem_of_getElem? ht₀, hx⟩
  · obtain ⟨j, hj⟩ := List.getElem?_of_mem ht'
    obtain ⟨t, ht, hstep⟩ := hq.task' j t' hj
    cases hstep with
    | phase phase _ hd =>
      cases phase with
      | delivering resp gen =>
        obtain rfl := Option.some.inj hx
        exact Or.inl ⟨j, hd resp gen rfl⟩
      | _ => cases hx
    | push msg _ => exact Or.inr ⟨t, List.mem_of_getElem? ht, hx⟩
    | receiver queue rxOpen => exact Or.inr ⟨t, List.mem_of_getElem? ht, hx⟩

/-- A stream task stays in its place, with its host and its capabilities. -/
theorem task_step {cfg : GrpcConfig} {s s' : GrpcSys} {a : GrpcOp} (h : s.step cfg a = some s') {i : Nat}
    {t : StreamTask} (ht : s.tasks[i]? = some t) :
    ∃ t', s'.tasks[i]? = some t' ∧ t'.hostId = t.hostId ∧ t'.caps = t.caps ∧
      t'.advertisedCaps = t.advertisedCaps := by
  rcases step_cases h with ⟨ad, now, rfl, rfl⟩ | ⟨j, u, rfl, -, -, rfl⟩ | ⟨-, hq⟩
  · exact ⟨t, by rw [connect, List.getElem?_append_left (List.getElem?_eq_some_iff.1 ht).1, ht], rfl, rfl, rfl⟩
  · refine ⟨if j = i then { t with phase := .removed } else t, ?_, ?_⟩
    · rw [setPhase, getElem?_tasks_modifyTask]
      exact congrArg (Option.map _) ht
    · split <;> exact ⟨rfl, rfl, rfl⟩
  · obtain ⟨t', ht', hstep⟩ := hq.task i t ht
    obtain ⟨hhost, hcaps, hadv, -⟩ := hstep.identity
    exact ⟨t', ht', hhost, hcaps, hadv⟩

/-- A message that was put on a command channel was there before, or this step has sent it, as a ping or by
`enqueue`. -/
theorem accepted_step {cfg : GrpcConfig} {s s' : GrpcSys} {a : GrpcOp} (h : s.step cfg a = some s') {i : Nat}
    {t' : StreamTask} (ht' : s'.tasks[i]? = some t') {msg : ServerMsg} (hm : msg ∈ t'.accepted) :
    ∃ t, s.tasks[i]? = some t ∧ t'.caps = t.caps ∧
      (msg ∈ t.accepted ∨ a = .enqueue i msg ∨ msg.command = some .ping) := by
  rcases step_cases h with ⟨ad, now, rfl, rfl⟩ | ⟨j, u, rfl, -, -, rfl⟩ | ⟨-, hq⟩
  · rw [connect, List.getElem?_append] at ht'
    split at ht'
    · exact ⟨t', ht', rfl, Or.inl hm⟩
    · -- nothing has been put on the channel of the new stream
      obtain rfl := List.mem_singleton.1 (List.mem_of_getElem? ht')
      cases hm
  · rw [setPhase, getElem?_tasks_modifyTask, Option.map_eq_some_iff] at ht'
    obtain ⟨t, ht, rfl⟩ := ht'
    refine ⟨t, ht, by split <;> rfl, Or.inl ?_⟩
    split at hm <;> exact hm
  · obtain ⟨t, ht, hstep⟩ := hq.task' i t' ht'
    refine ⟨t, ht, hstep.identity.2.1, ?_⟩
    cases hstep with
    | phase phase _ _ => exact Or.inl hm
    | push msg' hmsg =>
      rcases List.mem_append.1 hm with hm | hm
      · exact Or.inl hm
      · obtain rfl := List.mem_singleton.1 hm
        exact Or.inr hmsg
    | receiver queue rxOpen => exact Or.inl hm

/-- A handle in the stream map was there before, or this step has accepted its stream. -/
theorem get_step {cfg : GrpcConfig} {s s' : GrpcSys} {a : GrpcOp} (h : s.step cfg a = some s') {hostId : String}
    {handle : StreamHandle} (hget : s'.streams.get hostId = some handle) :
    s.streams.get hostId = some handle ∨
      ∃ ad now, a = .connect ad now ∧ s' = s.connect ad now ∧ ad.hostId = hostId ∧
        handle = ⟨s.tasks.length, ad.caps, ad.advertisedCaps⟩ := by
  rcases step_cases h with ⟨ad, now, rfl, rfl⟩ | ⟨j, u, rfl, -, -, rfl⟩ | ⟨-, hq⟩
  · simp only [connect, Streams.get_insert] at hget
    split at hget
    · rename_i hhost
      exact Or.inr ⟨ad, now, rfl, rfl, hhost.symm, (Option.some.inj hget).symm⟩
    · exact Or.inl hget
  · rw [streams_setPhase, Streams.get_remove] at hget
    split at hget
    · cases hget
    · exact Or.inl hget
  · rw [hq.get] at hget
    exact Or.inl hget

/-- A handle in the stream map is the one of a stream of its host. -/
def HandlesMatch (s : GrpcSys) : Prop :=
  ∀ hostId handle, s.streams.get hostId = some handle →
    ∃ t, s.tasks[handle.tx]? = some t ∧ t.hostId = hostId ∧ t.caps = handle.caps ∧
      t.advertisedCaps = handle.advertisedCaps

theorem handlesMatch_init : init.HandlesMatch := by
  simp [HandlesMatch, init]

theorem handlesMatch_step {cfg : GrpcConfig} {s s' : GrpcSys} {a : GrpcOp} (h : s.HandlesMatch)
    (hs : s.step cfg a = some s') : s'.HandlesMatch := by
  intro hostId handle hget
  rcases get_step hs hget with hget | ⟨ad, now, rfl, rfl, hhost, rfl⟩
  · obtain ⟨t, ht, hhost, hcaps, hadv⟩ := h hostId handle hget
    obtain ⟨t', ht', hhost', hcaps', hadv'⟩ := task_step hs ht
    exact ⟨t', ht', hhost'.trans hhost, hcaps'.trans hcaps, hadv'.trans hadv⟩
  · exact ⟨.new ad, by simp [connect], hhost, rfl, rfl⟩

end GrpcSys

end Coold.Flux
