import Coold.Flux.GrpcServer
import Coold.Flux.PendingRuns
import Mathlib.Data.List.Perm.Basic

/-!
# The UDS bridge and the dispatches in flight

`coold_dispatch` checks the capability of the stream of a host, inserts a pending entry, parks on it, looks the
sender of the host up again, sends the command, and waits for the response.  The stream task of a host that
receives a response looks the pending entry up and delivers the response to it.  `BridgeSys` puts the gRPC server,
the pending map and the dispatches together; `BridgeSys.step` is one atomic step of any of them.

The body that is delivered carries ghosts, among them the host of the stream that the response came on and the
insertion that it answers, so that what a dispatch returns can be traced back.  Every run of the bridge is a run of
the gRPC server (`exists_grpc_run`) and of the pending map (`exists_pending_run`).
-/

namespace Coold.Flux

/-- What `deliver_response` hands to the pending map.  All but the body are ghosts: the response it was made from,
the host of the stream that the response came on, and the insertion that it answers. -/
structure Answer where
  body : ResponseBody
  resp : Response
  hostId : String
  gen : Nat

inductive DispatchOutcome where
  | answer (a : Answer)
  | error (code : Nat) (message : String)
  | abandoned

/-- The step that `coold_dispatch` does next. -/
inductive DispatchPc where
  | received
  | routed (msg : ServerMsg)
  | sampled (msg : ServerMsg)
  | inserted (msg : ServerMsg)
  | parked (msg : ServerMsg) (rx : Nat)
  | found (msg : ServerMsg) (rx tx : Nat)
  | failing (code : Nat) (message : String)
  | awaiting (rx : Nat)
  | returned (outcome : DispatchOutcome)

/-- One call of `coold_dispatch`.  `gen` is a ghost: the number of the insertion it made. -/
structure Dispatch where
  env : DispatchEnvelope
  gen : Nat
  pc : DispatchPc

namespace Dispatch

def goto (x : Dispatch) (pc : DispatchPc) : Dispatch := { x with pc := pc }

/-- Return an error response. -/
def fail (x : Dispatch) (code : Nat) (message : String) : Dispatch := x.goto (.returned (.error code message))

/-- The channel that the dispatch is parked on. -/
def rx (x : Dispatch) : Option Nat :=
  match x.pc with
  | .parked _ rx | .found _ rx _ | .awaiting rx => some rx
  | _ => none

/-- The answer that the dispatch has returned. -/
def answer (x : Dispatch) : Option Answer :=
  match x.pc with
  | .returned (.answer a) => some a
  | _ => none

/-- The next step is the locked part of `insert_waiting`. -/
def inserts (x : Dispatch) : Bool :=
  match x.pc with
  | .sampled _ => true
  | _ => false

/-- The next step is `park`. -/
def parks (x : Dispatch) : Bool :=
  match x.pc with
  | .inserted _ => true
  | _ => false

end Dispatch

structure BridgeConfig where
  grpc : GrpcConfig
  pendingMax : Nat
  dispatchTimeoutSecs : Nat
  /-- `serde_json::from_str`. -/
  fromStr : String → Option Json.Value

structure BridgeSys where
  grpc : GrpcSys
  pend : PendingSys Answer
  dispatches : List Dispatch

inductive BridgeOp where
  | grpc (op : GrpcOp)
  | response (i : Nat) (resp : Response) (gen : Nat)
  | deliver (i : Nat) (now : Nat)
  | dispatch (env : DispatchEnvelope)
  | advance (d : Nat) (now : Nat)
  | timeout (d : Nat)
  | abandon (d : Nat)
  | drainSample (now : Nat)
  | finish (removal : Removal)

/-- The steps of the gRPC server that only come as part of a step of the bridge. -/
def GrpcOp.internal : GrpcOp → Bool
  | .hold _ _ _ | .release _ | .enqueue _ _ => true
  | _ => false

namespace BridgeSys

def init : BridgeSys := ⟨.init, .init, []⟩

def setDispatch (s : BridgeSys) (d : Nat) (x : Dispatch) : BridgeSys :=
  { s with dispatches := s.dispatches.set d x }

def insertCall (cfg : BridgeConfig) (x : Dispatch) : InsertCall :=
  ⟨x.env.requestId, x.env.hostId, .coold, cfg.pendingMax⟩

/-- The next step of a dispatch. -/
def advance (cfg : BridgeConfig) (s : BridgeSys) (d : Nat) (x : Dispatch) (now : Nat) : Option BridgeSys :=
  match x.pc with
  | .received =>
    some (s.setDispatch d
      (match routeCoold s.grpc.streams x.env with
      | .sendCoold _ msg => x.goto (.routed msg)
      | .pushError code message => x.fail code message))
  | .routed msg =>
    let result := s.pend.sample (insertCall cfg x)
    some ({ s with pend := result.2 }.setDispatch d
      (if result.1 then x.goto (.sampled msg) else x.fail 503 "flux at pending-dispatch capacity"))
  | .sampled msg =>
    let result := s.pend.insertEntry (insertCall cfg x) now
    some ({ s with pend := result.2 }.setDispatch d
      (match result.1 with
      | .inserted => { x with gen := s.pend.pending.gens, pc := .inserted msg }
      | .duplicate => x.fail 409 "request_id already in flight"
      | .atCapacity => x.fail 503 "flux at pending-dispatch capacity"))
  | .inserted msg =>
    let result := s.pend.park x.env.requestId
    some ({ s with pend := result.2 }.setDispatch d
      (match result.1 with
      | .parked rx => x.goto (.parked msg rx)
      | .alreadyLanded _ | .notFound => x.fail 500 "pending state lost after insert"))
  | .parked msg rx =>
    some (s.setDispatch d
      (match s.grpc.streams.getTx x.env.hostId with
      | some tx => x.goto (.found msg rx tx)
      | none => x.goto (.failing 503 "host stream gone")))
  | .found msg rx tx =>
    match s.grpc.trySend tx with
    | some .sent =>
      some ({ s with grpc := s.grpc.modifyTask tx fun t => t.push msg }.setDispatch d (x.goto (.awaiting rx)))
    | some .full => some (s.setDispatch d (x.goto (.failing 503 "host command queue full")))
    | _ => some (s.setDispatch d (x.goto (.failing 503 "host stream send failed")))
  | .failing code message =>
    some ({ s with pend := s.pend.remove x.env.requestId }.setDispatch d (x.fail code message))
  | .awaiting rx =>
    match s.pend.pending.oneshots[rx]? with
    | some (.sent a) => some (s.setDispatch d (x.goto (.returned (.answer a))))
    | some .closed => some (s.setDispatch d (x.fail 504 "dispatch timeout"))
    | _ => none
  | .returned _ => none

/-- The body that `deliver_response` makes of a response. -/
def answerOf (cfg : BridgeConfig) (t : StreamTask) (resp : Response) (gen : Nat) : Option Answer :=
  (ResponseBody.tryFromProto cfg.fromStr resp).map fun body => ⟨body, resp, t.hostId, gen⟩

def step (cfg : BridgeConfig) (s : BridgeSys) : BridgeOp → Option BridgeSys
  | .grpc op => if op.internal then none else (s.grpc.step cfg.grpc op).map fun grpc => { s with grpc := grpc }
  -- a response for an unknown request id is dropped
  | .response i resp gen =>
    match s.pend.pending.get resp.requestId with
    | some _ => (s.grpc.step cfg.grpc (.hold i resp gen)).map fun grpc => { s with grpc := grpc }
    | none => (s.grpc.taskAt i .running).map fun _ => s
  | .deliver i now =>
    match s.grpc.tasks[i]? with
    | some t =>
      match t.phase with
      | .delivering resp gen =>
        match answerOf cfg t resp gen with
        | some a =>
          some { s with grpc := s.grpc.setPhase i .running, pend := s.pend.deliver resp.requestId a now }
        | none => some { s with grpc := s.grpc.setPhase i .running }
      | _ => none
    | none => none
  | .dispatch env => some { s with dispatches := s.dispatches ++ [⟨env, 0, .received⟩] }
  | .advance d now => s.dispatches[d]?.bind fun x => s.advance cfg d x now
  | .timeout d =>
    match s.dispatches[d]? with
    | some x =>
      match x.pc with
      | .awaiting _ => some (s.setDispatch d (x.fail 504 "dispatch timeout"))
      | _ => none
    | none => none
  -- the caller closed its connection
  | .abandon d =>
    match s.dispatches[d]? with
    | some x =>
      match x.pc with
      | .awaiting _ => some (s.setDispatch d (x.goto (.returned .abandoned)))
      | _ => none
    | none => none
  | .drainSample now => some { s with pend := s.pend.drainSample now (fromSecs cfg.dispatchTimeoutSecs) }
  | .finish removal =>
    if removal ∈ s.pend.finishing then some { s with pend := s.pend.finish removal } else none

/-! ### What a step can do -/

/-- One step of a dispatch: the dispatch after it, and the gRPC server and the pending map after it. -/
inductive Moved (cfg : BridgeConfig) (s : BridgeSys) (now : Nat) (x : Dispatch) :
    Dispatch → GrpcSys → PendingSys Answer → Prop where
  | route (handle : StreamHandle) : x.pc = .received → s.grpc.streams.get x.env.hostId = some handle →
      requiredCapability x.env.command ∈ handle.caps →
      Moved cfg s now x (x.goto (.routed ⟨x.env.requestId, some x.env.command.toCommand⟩)) s.grpc s.pend
  | reject (code : Nat) (message : String) : (∀ msg, x.pc ≠ .sampled msg) →
      Moved cfg s now x (x.fail code message) s.grpc s.pend
  | sample (msg : ServerMsg) : x.pc = .routed msg → (s.pend.sample (insertCall cfg x)).1 = true →
      Moved cfg s now x (x.goto (.sampled msg)) s.grpc (s.pend.sample (insertCall cfg x)).2
  | insert (msg : ServerMsg) : x.pc = .sampled msg → s.pend.entry x.env.requestId = none →
      Moved cfg s now x { x with gen := s.pend.pending.gens, pc := .inserted msg } s.grpc
        (s.pend.insertEntry (insertCall cfg x) now).2
  | duplicate (msg : ServerMsg) (code : Nat) (message : String) : x.pc = .sampled msg →
      (s.pend.entry x.env.requestId).isSome →
      Moved cfg s now x (x.fail code message) s.grpc (s.pend.insertEntry (insertCall cfg x) now).2
  | park (msg : ServerMsg) (rx : Nat) : x.pc = .inserted msg → (s.pend.park x.env.requestId).1 = .parked rx →
      Moved cfg s now x (x.goto (.parked msg rx)) s.grpc (s.pend.park x.env.requestId).2
  | lost (msg : ServerMsg) (code : Nat) (message : String) : x.pc = .inserted msg →
      Moved cfg s now x (x.fail code message) s.grpc (s.pend.park x.env.requestId).2
  | lookup (msg : ServerMsg) (rx tx : Nat) : x.pc = .parked msg rx → s.grpc.streams.getTx x.env.hostId = some tx →
      Moved cfg s now x (x.goto (.found msg rx tx)) s.grpc s.pend
  | failing (code : Nat) (message : String) : (∀ msg, x.pc ≠ .sampled msg) →
      Moved cfg s now x (x.goto (.failing code message)) s.grpc s.pend
  | send (msg : ServerMsg) (rx tx : Nat) : x.pc = .found msg rx tx → s.grpc.trySend tx = some .sent →
      Moved cfg s now x (x.goto (.awaiting rx)) (s.grpc.modifyTask tx fun t => t.push msg) s.pend
  | abort (code : Nat) (message : String) : x.pc = .failing code message →
      Moved cfg s now x (x.fail code message) s.grpc (s.pend.remove x.env.requestId)
  | answer (rx : Nat) (a : Answer) : x.pc = .awaiting rx → s.pend.pending.oneshots[rx]? = some (.sent a) →
      Moved cfg s now x (x.goto (.returned (.answer a))) s.grpc s.pend

private theorem moved_of_advance {cfg : BridgeConfig} {s s' : BridgeSys} {d : Nat} {x : Dispatch} {now : Nat}
    (h : s.advance cfg d x now = some s') :
    ∃ x' grpc pend, Moved cfg s now x x' grpc pend ∧ s' = ⟨grpc, pend, s.dispatches.set d x'⟩ := by
  cases hpc : x.pc with
  | received =>
    simp only [advance, hpc, Option.some.injEq] at h
    subst h
    cases hroute : routeCoold s.grpc.streams x.env with
    | sendCoold hostId msg =>
      obtain ⟨-, rfl, handle, hget, hcap⟩ := routeCoold_eq_sendCoold hroute
      exact ⟨_, _, _, .route handle hpc hget hcap, rfl⟩
    | pushError code message => exact ⟨_, _, _, .reject code message (by simp [hpc]), rfl⟩
  | routed msg =>
    simp only [advance, hpc, Option.some.injEq] at h
    subst h
    cases hok : (s.pend.sample (insertCall cfg x)).1 with
    | true => exact ⟨_, _, _, .sample msg hpc hok, by simp only [if_true, setDispatch]⟩
    | false =>
      refine ⟨_, _, _, .reject 503 "flux at pending-dispatch capacity" (by simp [hpc]), ?_⟩
      have hsame : (s.pend.sample (insertCall cfg x)).2 = s.pend := by
        unfold PendingSys.sample at hok ⊢
        split <;> simp_all
      simp only [setDispatch, hsame, Bool.false_eq_true, if_false]
  | sampled msg =>
    simp only [advance, hpc, Option.some.injEq] at h
    subst h
    cases he : s.pend.entry x.env.requestId with
    | none =>
      have hout : (s.pend.insertEntry (insertCall cfg x) now).1 = .inserted := by
        simp only [PendingSys.insertEntry, Pending.insertEntry, insertCall]
        rw [show s.pend.pending.entry x.env.requestId = none from he]
      refine ⟨_, _, _, .insert msg hpc he, ?_⟩
      simp only [hout]
      rfl
    | some e =>
      have hout : (s.pend.insertEntry (insertCall cfg x) now).1 = .duplicate := by
        simp only [PendingSys.insertEntry, Pending.insertEntry, insertCall]
        rw [show s.pend.pending.entry x.env.requestId = some e from he]
      refine ⟨_, _, _, .duplicate msg 409 "request_id already in flight" hpc (by rw [he]; rfl), ?_⟩
      simp only [hout]
      rfl
  | inserted msg =>
    simp only [advance, hpc, Option.some.injEq] at h
    subst h
    cases hres : (s.pend.park x.env.requestId).1 with
    | parked rx => exact ⟨_, _, _, .park msg rx hpc hres, by simp only [setDispatch]⟩
    | alreadyLanded b =>
      exact ⟨_, _, _, .lost msg 500 "pending state lost after insert" hpc, by simp only [setDispatch]⟩
    | notFound =>
      exact ⟨_, _, _, .lost msg 500 "pending state lost after insert" hpc, by simp only [setDispatch]⟩
  | parked msg rx =>
    simp only [advance, hpc, Option.some.injEq] at h
    subst h
    cases htx : s.grpc.streams.getTx x.env.hostId with
    | some tx => exact ⟨_, _, _, .lookup msg rx tx hpc htx, rfl⟩
    | none => exact ⟨_, _, _, .failing 503 "host stream gone" (by simp [hpc]), rfl⟩
  | found msg rx tx =>
    simp only [advance, hpc] at h
    split at h
    · rename_i hsend
      obtain rfl := Option.some.inj h
      exact ⟨_, _, _, .send msg rx tx hpc hsend, rfl⟩
    · obtain rfl := Option.some.inj h
      exact ⟨_, _, _, .failing 503 "host command queue full" (by simp [hpc]), rfl⟩
    · obtain rfl := Option.some.inj h
      exact ⟨_, _, _, .failing 503 "host stream send failed" (by simp [hpc]), rfl⟩
  | failing code message =>
    simp only [advance, hpc, Option.some.injEq] at h
    subst h
    exact ⟨_, _, _, .abort code message hpc, rfl⟩
  | awaiting rx =>
    simp only [advance, hpc] at h
    split at h
    · rename_i a ha
      obtain rfl := Option.some.inj h
      exact ⟨_, _, _, .answer rx a hpc ha, rfl⟩
    · obtain rfl := Option.some.inj h
      exact ⟨_, _, _, .reject 504 "dispatch timeout" (by simp [hpc]), rfl⟩
    · cases h
  | returned outcome =>
    simp only [advance, hpc] at h
    cases h

/-- One step of the bridge. -/
inductive Step (cfg : BridgeConfig) (s : BridgeSys) : BridgeOp → BridgeSys → Prop where
  | grpc (op : GrpcOp) (grpc : GrpcSys) : op.internal = false → s.grpc.step cfg.grpc op = some grpc →
      Step cfg s (.grpc op) { s with grpc := grpc }
  | hold (i : Nat) (resp : Response) (gen : Nat) (t : StreamTask) : s.grpc.tasks[i]? = some t → t.phase = .running →
      Step cfg s (.response i resp gen) { s with grpc := s.grpc.setPhase i (.delivering resp gen) }
  | drop (i : Nat) (resp : Response) (gen : Nat) : Step cfg s (.response i resp gen) s
  | deliver (i now : Nat) (t : StreamTask) (resp : Response) (gen : Nat) (body : ResponseBody) :
      s.grpc.tasks[i]? = some t → t.phase = .delivering resp gen →
      ResponseBody.tryFromProto cfg.fromStr resp = some body →
      Step cfg s (.deliver i now)
        { s with
          grpc := s.grpc.setPhase i .running
          pend := s.pend.deliver resp.requestId ⟨body, resp, t.hostId, gen⟩ now }
  | dispatch (env : DispatchEnvelope) :
      Step cfg s (.dispatch env) { s with dispatches := s.dispatches ++ [⟨env, 0, .received⟩] }
  | advance (d now : Nat) (x x' : Dispatch) (grpc : GrpcSys) (pend : PendingSys Answer) :
      s.dispatches[d]? = some x → Moved cfg s now x x' grpc pend →
      Step cfg s (.advance d now) ⟨grpc, pend, s.dispatches.set d x'⟩
  | timeout (d : Nat) (x : Dispatch) (rx code : Nat) (message : String) : s.dispatches[d]? = some x →
      x.pc = .awaiting rx → Step cfg s (.timeout d) { s with dispatches := s.dispatches.set d (x.fail code message) }
  | abandon (d : Nat) (x : Dispatch) (rx : Nat) : s.dispatches[d]? = some x → x.pc = .awaiting rx →
      Step cfg s (.abandon d) { s with dispatches := s.dispatches.set d (x.goto (.returned .abandoned)) }
  | drainSample (now : Nat) :
      Step cfg s (.drainSample now) { s with pend := s.pend.drainSample now (fromSecs cfg.dispatchTimeoutSecs) }
  | finish (removal : Removal) : removal ∈ s.pend.finishing →
      Step cfg s (.finish removal) { s with pend := s.pend.finish removal }

theorem step_sound {cfg : BridgeConfig} {s s' : BridgeSys} {a : BridgeOp} (h : s.step cfg a = some s') :
    Step cfg s a s' := by
  cases a with
  | grpc op =>
    simp only [step] at h
    split at h
    · cases h
    · rename_i hint
      obtain ⟨grpc, hg, rfl⟩ := Option.map_eq_some_iff.1 h
      exact .grpc op grpc (by simpa using hint) hg
  | response i resp gen =>
    simp only [step] at h
    split at h
    · obtain ⟨grpc, hg, rfl⟩ := Option.map_eq_some_iff.1 h
      obtain ⟨t, ht, rfl⟩ := Option.map_eq_some_iff.1 hg
      obtain ⟨ht, hp⟩ := GrpcSys.taskAt_eq_some.1 ht
      exact .hold i resp gen t ht hp
    · obtain ⟨t, -, rfl⟩ := Option.map_eq_some_iff.1 h
      exact .drop i resp gen
  | deliver i now =>
    simp only [step] at h
    split at h
    · rename_i t ht
      split at h
      · rename_i resp gen hp
        obtain ⟨body, hbody⟩ := Option.isSome_iff_exists.1 (ResponseBody.isSome_tryFromProto cfg.fromStr resp)
        simp only [answerOf, hbody, Option.map_some, Option.some.injEq] at h
        subst h
        exact .deliver i now t resp gen body ht hp hbody
      · cases h
    · cases h
  | dispatch env =>
    obtain rfl := Option.some.inj h
    exact .dispatch env
  | advance d now =>
    obtain ⟨x, hx, h⟩ := Option.bind_eq_some_iff.1 h
    obtain ⟨x', grpc, pend, hm, rfl⟩ := moved_of_advance h
    exact .advance d now x x' grpc pend hx hm
  | timeout d =>
    simp only [step] at h
    split at h
    · rename_i x hx
      split at h
      · rename_i rx hpc
        obtain rfl := Option.some.inj h
        exact .timeout d x rx 504 "dispatch timeout" hx hpc
      · cases h
    · cases h
  | abandon d =>
    simp only [step] at h
    split at h
    · rename_i x hx
      split at h
      · rename_i rx hpc
        obtain rfl := Option.some.inj h
        exact .abandon d x rx hx hpc
      · cases h
    · cases h
  | drainSample now =>
    obtain rfl := Option.some.inj h
    exact .drainSample now
  | finish removal =>
    simp only [step] at h
    split at h
    · rename_i hm
      obtain rfl := Option.some.inj h
      exact .finish removal hm
    · cases h

/-! ### The layers below -/

open Lts

/-- Where a step of the gRPC server inside a step of the bridge comes from. -/
inductive Caused (s : BridgeSys) : BridgeOp → GrpcOp → Prop where
  | own (op : GrpcOp) : op.internal = false → Caused s (.grpc op) op
  | received (i : Nat) (resp : Response) (gen : Nat) : Caused s (.response i resp gen) (.hold i resp gen)
  | delivered (i now : Nat) : Caused s (.deliver i now) (.release i)
  | sent (d now : Nat) (x : Dispatch) (msg : ServerMsg) (rx tx : Nat) : s.dispatches[d]? = some x →
      x.pc = .found msg rx tx → Caused s (.advance d now) (.enqueue tx msg)

/-- What a step does to the gRPC server: nothing, or one step of its own. -/
theorem grpc_step {cfg : BridgeConfig} {s s' : BridgeSys} {a : BridgeOp} (hs : s.step cfg a = some s') :
    s'.grpc = s.grpc ∨ ∃ op, s.grpc.step cfg.grpc op = some s'.grpc ∧ Caused s a op := by
  cases step_sound hs with
  | grpc op grpc hint hg => exact Or.inr ⟨op, hg, .own op hint⟩
  | hold i resp gen t ht hp =>
    refine Or.inr ⟨.hold i resp gen, ?_, .received i resp gen⟩
    rw [GrpcSys.step, GrpcSys.taskAt_eq_some.2 ⟨ht, hp⟩]
    rfl
  | deliver i now t resp gen body ht hp _ =>
    refine Or.inr ⟨.release i, ?_, .delivered i now⟩
    simp only [GrpcSys.step, ht, Option.map_some, hp]
  | advance d now x x' grpc pend hx hm =>
    cases hm with
    | send msg rx tx hpc hsend =>
      refine Or.inr ⟨.enqueue tx msg, ?_, .sent d now x msg rx tx hx hpc⟩
      simp only [GrpcSys.step, hsend]
    | _ => exact Or.inl rfl
  | _ => exact Or.inl rfl

/-- Every run of the bridge is a run of the gRPC server. -/
theorem exists_grpc_run {cfg : BridgeConfig} {s : BridgeSys} {tr : List BridgeOp}
    (hr : run (step cfg) init tr = some s) : ∃ tr', run (GrpcSys.step cfg.grpc) .init tr' = some s.grpc := by
  refine exists_run_of_project (f := BridgeSys.grpc) (I := fun _ => True) (fun _ _ _ _ _ => trivial) ?_ trivial hr
  intro s a s' _ hs
  rcases grpc_step hs with h | ⟨op, hop, -⟩
  · exact Or.inl h
  · exact Or.inr ⟨op, hop⟩

/-- The insertion that a dispatch is about to make. -/
def pendingInsert (cfg : BridgeConfig) (x : Dispatch) : Option InsertCall :=
  match x.pc with
  | .sampled _ => some (insertCall cfg x)
  | _ => none

/-- The insertions under way are those of the dispatches that have passed the capacity check. -/
def InsertsMatch (cfg : BridgeConfig) (s : BridgeSys) : Prop :=
  (s.dispatches.filterMap (pendingInsert cfg)).Perm s.pend.inserting

private theorem perm_filterMap_set (cfg : BridgeConfig) {L : List Dispatch} {d : Nat} {x : Dispatch}
    (hx : L[d]? = some x) (x' : Dispatch) :
    (L.filterMap (pendingInsert cfg)).Perm
        ((pendingInsert cfg x).toList ++ (L.eraseIdx d).filterMap (pendingInsert cfg)) ∧
      ((L.set d x').filterMap (pendingInsert cfg)).Perm
        ((pendingInsert cfg x').toList ++ (L.eraseIdx d).filterMap (pendingInsert cfg)) := by
  obtain ⟨hd, rfl⟩ := List.getElem?_eq_some_iff.1 hx
  have hcons : ∀ y l, (y :: l).filterMap (pendingInsert cfg) =
      (pendingInsert cfg y).toList ++ l.filterMap (pendingInsert cfg) := by
    intro y l
    rw [List.filterMap_cons]
    cases pendingInsert cfg y <;> rfl
  constructor
  · rw [← hcons]
    exact ((List.getElem_cons_eraseIdx_perm hd).symm).filterMap _
  · rw [← hcons]
    exact (List.set_perm_cons_eraseIdx hd x').filterMap _

/-- A dispatch that neither was nor is about to insert changes nothing. -/
private theorem insertsMatch_set {cfg : BridgeConfig} {L : List Dispatch} {d : Nat} {x x' : Dispatch}
    {inserting : List InsertCall} (hL : (L.filterMap (pendingInsert cfg)).Perm inserting) (hx : L[d]? = some x)
    (h : pendingInsert cfg x = none) (h' : pendingInsert cfg x' = none) :
    ((L.set d x').filterMap (pendingInsert cfg)).Perm inserting := by
  obtain ⟨h₁, h₂⟩ := perm_filterMap_set cfg hx x'
  rw [h] at h₁
  rw [h'] at h₂
  exact h₂.trans (h₁.symm.trans hL)

private theorem pendingInsert_eq_none {cfg : BridgeConfig} {x : Dispatch} (h : ∀ msg, x.pc ≠ .sampled msg) :
    pendingInsert cfg x = none := by
  unfold pendingInsert
  split
  · rename_i msg hpc
    exact absurd hpc (h msg)
  · rfl

private theorem insertsMatch_inserted {cfg : BridgeConfig} {s : BridgeSys} {d : Nat} {x : Dispatch}
    {msg : ServerMsg} (h : s.InsertsMatch cfg) (hx : s.dispatches[d]? = some x) (hpc : x.pc = .sampled msg)
    (x' : Dispatch) (hx' : pendingInsert cfg x' = none) :
    insertCall cfg x ∈ s.pend.inserting ∧
      ((s.dispatches.set d x').filterMap (pendingInsert cfg)).Perm (s.pend.inserting.erase (insertCall cfg x)) := by
  obtain ⟨h₁, h₂⟩ := perm_filterMap_set cfg hx x'
  have hcall : pendingInsert cfg x = some (insertCall cfg x) := by simp only [pendingInsert, hpc]
  rw [hcall] at h₁
  rw [hx'] at h₂
  have hperm : (insertCall cfg x :: (s.dispatches.eraseIdx d).filterMap (pendingInsert cfg)).Perm s.pend.inserting :=
    h₁.symm.trans h
  obtain ⟨hmem, herase⟩ := List.cons_perm_iff_perm_erase.1 hperm
  exact ⟨hmem, h₂.trans herase⟩

theorem insertsMatch_step {cfg : BridgeConfig} {s s' : BridgeSys} {a : BridgeOp} (h : s.InsertsMatch cfg)
    (hs : s.step cfg a = some s') : s'.InsertsMatch cfg := by
  cases step_sound hs with
  | dispatch env =>
    have hnew : [(⟨env, 0, .received⟩ : Dispatch)].filterMap (pendingInsert cfg) = [] := rfl
    rw [InsertsMatch, List.filterMap_append, hnew, List.append_nil]
    exact h
  | timeout d x rx code message hx hpc =>
    exact insertsMatch_set h hx (pendingInsert_eq_none (by simp [hpc])) rfl
  | abandon d x rx hx hpc => exact insertsMatch_set h hx (pendingInsert_eq_none (by simp [hpc])) rfl
  | advance d now x x' grpc pend hx hm =>
    cases hm with
    | sample msg hpc hok =>
      -- a dispatch joins the insertions when it passes the capacity check
      obtain ⟨h₁, h₂⟩ := perm_filterMap_set cfg hx (x.goto (.sampled msg))
      rw [pendingInsert_eq_none (by simp [hpc])] at h₁
      have hins : (s.pend.sample (insertCall cfg x)).2.inserting = insertCall cfg x :: s.pend.inserting := by
        unfold PendingSys.sample at hok ⊢
        split <;> simp_all
      rw [InsertsMatch, hins]
      exact h₂.trans (List.Perm.cons _ (h₁.symm.trans h))
    | insert msg hpc _ => exact (insertsMatch_inserted h hx hpc _ rfl).2
    | duplicate msg code message hpc _ => exact (insertsMatch_inserted h hx hpc _ rfl).2
    | reject code message hpc => exact insertsMatch_set h hx (pendingInsert_eq_none hpc) rfl
    | failing code message hpc => exact insertsMatch_set h hx (pendingInsert_eq_none hpc) rfl
    | route handle hpc | park msg rx hpc | lost msg code message hpc | lookup msg rx tx hpc | send msg rx tx hpc
    | abort code message hpc | answer rx b hpc =>
      exact insertsMatch_set h hx (pendingInsert_eq_none (by simp [hpc])) rfl
  | _ => exact h

/-- What a step does to the pending map: nothing, or one step of its own.  An insertion is made by a dispatch. -/
theorem pend_step {cfg : BridgeConfig} {s s' : BridgeSys} {a : BridgeOp} (hI : s.InsertsMatch cfg)
    (hs : s.step cfg a = some s') :
    s'.pend = s.pend ∨ ∃ op, s.pend.step op = some s'.pend ∧
      ∀ call now, op = .insertEntry call now →
        ∃ d x, a = .advance d now ∧ s.dispatches[d]? = some x ∧ x.inserts = true ∧ call = insertCall cfg x := by
  have hinsert : ∀ {d now x msg}, s.dispatches[d]? = some x → x.pc = .sampled msg → a = .advance d now →
      s'.pend = (s.pend.insertEntry (insertCall cfg x) now).2 →
      ∃ op, s.pend.step op = some s'.pend ∧ ∀ call now, op = .insertEntry call now →
        ∃ d x, a = .advance d now ∧ s.dispatches[d]? = some x ∧ x.inserts = true ∧ call = insertCall cfg x := by
    intro d now x msg hx hpc ha hp
    have hmem := (insertsMatch_inserted hI hx hpc (x.fail 0 "") rfl).1
    refine ⟨.insertEntry (insertCall cfg x) now, by simp only [PendingSys.step, if_pos hmem, hp], ?_⟩
    rintro call now' hop
    simp only [PendingOp.insertEntry.injEq] at hop
    obtain ⟨rfl, rfl⟩ := hop
    exact ⟨d, x, ha, hx, by simp only [Dispatch.inserts, hpc], rfl⟩
  cases step_sound hs with
  | deliver i now t resp gen body ht hp _ =>
    exact Or.inr ⟨.deliver resp.requestId ⟨body, resp, t.hostId, gen⟩ now, rfl, by simp⟩
  | drainSample now => exact Or.inr ⟨.drainSample now _, rfl, by simp⟩
  | finish removal hm =>
    refine Or.inr ⟨.finish removal, ?_, by simp⟩
    simp only [PendingSys.step, if_pos hm]
  | advance d now x x' grpc pend hx hm =>
    cases hm with
    | sample msg hpc hok => exact Or.inr ⟨.sample (insertCall cfg x), rfl, by simp⟩
    | insert msg hpc _ => exact Or.inr (hinsert hx hpc rfl rfl)
    | duplicate msg code message hpc _ => exact Or.inr (hinsert hx hpc rfl rfl)
    | park msg rx hpc _ => exact Or.inr ⟨.park x.env.requestId, rfl, by simp⟩
    | lost msg code message hpc => exact Or.inr ⟨.park x.env.requestId, rfl, by simp⟩
    | abort code message hpc => exact Or.inr ⟨.remove x.env.requestId, rfl, by simp⟩
    | _ => exact Or.inl rfl
  | _ => exact Or.inl rfl

/-- Every run of the bridge is a run of the pending map. -/
theorem exists_pending_run {cfg : BridgeConfig} {s : BridgeSys} {tr : List BridgeOp}
    (hr : run (step cfg) init tr = some s) : ∃ tr', run PendingSys.step .init tr' = some s.pend := by
  refine exists_run_of_project (f := BridgeSys.pend) (I := InsertsMatch cfg)
    (fun _ _ _ h hs => insertsMatch_step h hs) ?_
    (show InsertsMatch cfg init from List.Perm.nil) hr
  intro s a s' hI hs
  rcases pend_step hI hs with h | ⟨op, hop, -⟩
  · exact Or.inl h
  · exact Or.inr ⟨op, hop⟩

def sampleConfig : BridgeConfig := ⟨⟨⟨none, none⟩, 45⟩, 16, 60, fun _ => none⟩

end BridgeSys

end Coold.Flux
