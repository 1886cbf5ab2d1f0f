import Coold.Flux.UnixBridge

/-!
# The capability check of a dispatch

`coold_dispatch` checks the capability of a command against the stream that is registered for its host, and looks
the sender of the host up again once its entry is parked.  A stream that is accepted in between is not checked.

If every stream that is accepted grants what the dispatches of its host under way have been checked for
(`GrantsChecked`), every command on a command channel needs a capability of the stream it was put on
(`GrpcSys.SentAuthorized`).  Without that, a host that reconnects with fewer capabilities is sent a command it has
no capability for.
-/

namespace Coold.Flux

namespace Dispatch

/-- The capability has been checked, and the sender has not been looked up yet. -/
def checked (x : Dispatch) : Bool :=
  match x.pc with
  | .routed _ | .sampled _ | .inserted _ | .parked _ _ => true
  | _ => false

/-- The message that the dispatch will send. -/
def msg (x : Dispatch) : Option ServerMsg :=
  match x.pc with
  | .routed msg | .sampled msg | .inserted msg | .parked msg _ | .found msg _ _ => some msg
  | _ => none

/-- The stream that the dispatch will send its message on. -/
def tx (x : Dispatch) : Option Nat :=
  match x.pc with
  | .found _ _ tx => some tx
  | _ => none

end Dispatch

open Lts

/-- What is known of a dispatch while it has a message to send: the message is its command, the stream that is
registered for its host is authorized for it as long as the sender has not been looked up, and the stream of the
sender is, once it has. -/
structure Cleared (g : GrpcSys) (x : Dispatch) : Prop where
  msg : ∀ msg, x.msg = some msg → msg = ⟨x.env.requestId, some x.env.command.toCommand⟩
  checked : x.checked = true → ∀ handle, g.streams.get x.env.hostId = some handle →
    requiredCapability x.env.command ∈ handle.caps
  found : ∀ i, x.tx = some i → ∃ t, g.tasks[i]? = some t ∧ requiredCapability x.env.command ∈ t.caps

namespace Cleared

variable {cfg : GrpcConfig} {g g' : GrpcSys} {x x' : Dispatch}

/-- A dispatch that has nothing to send, or nothing left to send. -/
private theorem of_msg_none (hmsg : x.msg = none) (hchecked : x.checked = false) (htx : x.tx = none) : Cleared g x := by
  refine ⟨?_, ?_, ?_⟩
  · simp [hmsg]
  · simp [hchecked]
  · simp [htx]

/-- The dispatch goes on with the message it has, before it looks the sender up. -/
private theorem of_msg_eq (h : Cleared g x) (henv : x'.env = x.env) (hmsg : x'.msg = x.msg)
    (hchecked : x.checked = true)
    (htx : x'.tx = none) : Cleared g x' := by
  refine ⟨?_, fun _ => ?_, ?_⟩
  · rw [hmsg, henv]
    exact h.msg
  · rw [henv]
    exact h.checked hchecked
  · simp [htx]

/-- A step of the gRPC server keeps a dispatch cleared, unless it accepts a stream that is not authorized. -/
theorem step {op : GrpcOp} (h : Cleared g x) (hs : g.step cfg op = some g')
    (hop : ∀ ad now, op = .connect ad now → x.checked = true → x.env.hostId = ad.hostId →
      requiredCapability x.env.command ∈ ad.caps) : Cleared g' x := by
  refine ⟨h.msg, fun hc handle hget => ?_, fun i hi => ?_⟩
  · rcases GrpcSys.get_step hs hget with hget | ⟨ad, now, rfl, -, hhost, rfl⟩
    · exact h.checked hc handle hget
    · exact hop ad now rfl hc hhost.symm
  · obtain ⟨t, ht, hcap⟩ := h.found i hi
    obtain ⟨t', ht', -, hcaps, -⟩ := GrpcSys.task_step hs ht
    exact ⟨t', ht', hcaps ▸ hcap⟩

end Cleared

namespace GrpcSys

variable {cfg : GrpcConfig} {s s' : GrpcSys} {a : GrpcOp}

/-- Every command that was put on the channel of a stream, pings apart, needs a capability of the stream. -/
def SentAuthorized (s : GrpcSys) : Prop :=
  ∀ t ∈ s.tasks, ∀ msg ∈ t.accepted, ∀ command, msg.command = some command → command ≠ .ping →
    ∃ capability ∈ t.caps, commandCapability command = some capability

private theorem sentAuthorized_step (h : s.SentAuthorized) (hs : s.step cfg a = some s')
    (ha : ∀ i msg t, a = .enqueue i msg → s.tasks[i]? = some t → ∃ command : CommandPayload,
      msg.command = some command.toCommand ∧ requiredCapability command ∈ t.caps) : s'.SentAuthorized := by
  intro t' ht' msg hmsg command hcommand hping
  obtain ⟨i, hi⟩ := List.getElem?_of_mem ht'
  obtain ⟨t, ht, hcaps, hmsg⟩ := accepted_step hs hi hmsg
  rw [hcaps]
  rcases hmsg with hmsg | henq | hp
  · exact h t (List.mem_of_getElem? ht) msg hmsg command hcommand hping
  · obtain ⟨c, hc, hcap⟩ := ha i msg t henq ht
    obtain rfl := Option.some.inj (hc.symm.trans hcommand)
    exact ⟨requiredCapability c, hcap, commandCapability_toCommand c⟩
  · exact absurd (Option.some.inj (hcommand.symm.trans hp)) hping

end GrpcSys

namespace BridgeSys

variable {cfg : BridgeConfig} {s s' : BridgeSys} {a : BridgeOp}

/-- A stream that is accepted grants what the dispatches of its host have been checked for that have not looked
their sender up yet. -/
def GrantsChecked (s : BridgeSys) : BridgeOp → Prop
  | .grpc (.connect ad _) => ∀ x ∈ s.dispatches, x.checked = true → x.env.hostId = ad.hostId →
      requiredCapability x.env.command ∈ ad.caps
  | _ => True

instance (s : BridgeSys) (a : BridgeOp) : Decidable (s.GrantsChecked a) := by
  unfold GrantsChecked
  split <;> infer_instance

structure AllCleared (s : BridgeSys) : Prop where
  handles : s.grpc.HandlesMatch
  sent : s.grpc.SentAuthorized
  dispatches : ∀ x ∈ s.dispatches, Cleared s.grpc x

private theorem checked_grpc_step (ha : s.GrantsChecked a) {op : GrpcOp} (hc : Caused s a op) :
    ∀ x ∈ s.dispatches, ∀ ad now, op = .connect ad now → x.checked = true → x.env.hostId = ad.hostId →
      requiredCapability x.env.command ∈ ad.caps := by
  rintro x hx ad now rfl
  cases hc with
  | own _ _ => exact ha x hx

/-- The dispatches that do not move stay cleared. -/
private theorem cleared_step (h : s.AllCleared) (ha : s.GrantsChecked a) (hs : s.step cfg a = some s')
    {x : Dispatch} (hx : x ∈ s.dispatches) : Cleared s'.grpc x := by
  rcases grpc_step hs with heq | ⟨op, hop, hc⟩
  · rw [heq]
    exact h.dispatches x hx
  · exact (h.dispatches x hx).step hop (checked_grpc_step ha hc x hx)

private theorem cleared_moved {now : Nat} {x x' : Dispatch} {grpc : GrpcSys} {pend : PendingSys Answer}
    (hm : Moved cfg s now x x' grpc pend) (h : s.AllCleared) (hx : Cleared s.grpc x) : Cleared grpc x' := by
  cases hm with
  | route handle hpc hget hcap =>
    refine ⟨fun msg hmsg => (Option.some.inj hmsg).symm, fun _ handle' hget' => ?_, nofun⟩
    obtain rfl := Option.some.inj (hget.symm.trans hget')
    exact hcap
  | sample msg hpc hok | insert msg hpc he | park msg rx hpc hrx =>
    have hmsg : x.msg = some msg := by simp only [Dispatch.msg, hpc]
    exact hx.of_msg_eq rfl hmsg.symm (by simp only [Dispatch.checked, hpc]) rfl
  | lookup msg rx tx hpc htx =>
    refine ⟨fun msg' hmsg => hx.msg msg' ?_, nofun, fun i hi => ?_⟩
    · rw [← hmsg]
      simp [Dispatch.msg, Dispatch.goto, hpc]
    · obtain rfl := Option.some.inj hi
      rw [Streams.getTx_eq_map_get, Option.map_eq_some_iff] at htx
      obtain ⟨handle, hget, rfl⟩ := htx
      obtain ⟨t, ht, -, hcaps, -⟩ := h.handles _ _ hget
      exact ⟨t, ht, hcaps ▸ hx.checked (by simp [Dispatch.checked, hpc]) handle hget⟩
  | _ => exact .of_msg_none rfl rfl rfl

/-- What a dispatch puts on a channel is a command that the stream of the channel is authorized for. -/
private theorem enqueued_authorized (h : s.AllCleared) {op : GrpcOp} (hc : Caused s a op) :
    ∀ i msg t, op = .enqueue i msg → s.grpc.tasks[i]? = some t → ∃ command : CommandPayload,
      msg.command = some command.toCommand ∧ requiredCapability command ∈ t.caps := by
  rintro i msg t rfl ht
  cases hc with
  | own _ hint => cases hint
  | sent d now x _ rx _ hx hpc =>
    have hcl := h.dispatches x (List.mem_of_getElem? hx)
    obtain ⟨t', ht', hcap⟩ := hcl.found i (by simp [Dispatch.tx, hpc])
    obtain rfl := Option.some.inj (ht.symm.trans ht')
    exact ⟨x.env.command, by rw [hcl.msg msg (by simp [Dispatch.msg, hpc])], hcap⟩

private theorem allCleared_step (h : s.AllCleared) (ha : s.GrantsChecked a) (hs : s.step cfg a = some s') :
    s'.AllCleared := by
  refine ⟨?_, ?_, fun x hx => ?_⟩
  · rcases grpc_step hs with heq | ⟨op, hop, -⟩
    · exact heq ▸ h.handles
    · exact GrpcSys.handlesMatch_step h.handles hop
  · rcases grpc_step hs with heq | ⟨op, hop, hc⟩
    · exact heq ▸ h.sent
    · exact GrpcSys.sentAuthorized_step h.sent hop (enqueued_authorized h hc)
  · have hkeep : ∀ y ∈ s.dispatches, Cleared s'.grpc y := fun y hy => cleared_step h ha hs hy
    -- a dispatch that moves is cleared anew, the others stay so
    cases step_sound hs with
    | dispatch env =>
      rcases List.mem_append.1 hx with hx | hx
      · exact hkeep x hx
      · obtain rfl := List.mem_singleton.1 hx
        exact .of_msg_none rfl rfl rfl
    | advance d now y y' grpc pend hy hm =>
      rcases List.mem_or_eq_of_mem_set hx with hx | rfl
      · exact hkeep x hx
      · exact cleared_moved hm h (h.dispatches y (List.mem_of_getElem? hy))
    | timeout d y rx code message _ _ | abandon d y rx _ _ =>
      rcases List.mem_or_eq_of_mem_set hx with hx | rfl
      · exact hkeep x hx
      · exact .of_msg_none rfl rfl rfl
    | _ => exact hkeep x hx

private theorem allCleared_init : init.AllCleared :=
  ⟨GrpcSys.handlesMatch_init, by simp [GrpcSys.SentAuthorized, init, GrpcSys.init],
    by simp [init]⟩

/-- In every run in which a stream that is accepted grants what the dispatches of its host have been checked for,
every command on a command channel, pings apart, needs a capability that its stream was granted at the handshake. -/
theorem sent_commands_authorized (cfg : BridgeConfig) (tr : List BridgeOp) (s : BridgeSys)
    (hr : run (step cfg) init tr = some s) (h : Along (step cfg) GrantsChecked init tr) (t : StreamTask)
    (ht : t ∈ s.grpc.tasks) (msg : ServerMsg) (hmsg : msg ∈ t.accepted) (command : Command)
    (hcommand : msg.command = some command) (hping : command ≠ .ping) :
    ∃ capability ∈ t.caps, commandCapability command = some capability := by
  have hinv : s.AllCleared := invariant (fun _ _ _ hI ha hs => allCleared_step hI ha hs) allCleared_init h hr
  exact hinv.sent t ht msg hmsg command hcommand hping

/-- A host reconnects after its dispatch has passed the capability check, and before the sender is looked up. -/
def reconnectTrace (caps : List String) : List BridgeOp :=
  [.grpc (.connect ⟨"100.64.0.5", ["containers.list", "coold.logs"], ["containers.list", "coold.logs"], 1000⟩ 0),
    .dispatch ⟨"100.64.0.5", "r1", .containersList⟩, .advance 0 1, .advance 0 1, .advance 0 1, .advance 0 1,
    .grpc (.connect ⟨"100.64.0.5", caps, ["containers.list", "coold.logs"], 2000⟩ 2), .advance 0 3, .advance 0 3]

/-- With the capability granted again, the command goes to the new stream. -/
theorem checked_command_sent :
    ∃ s t₀ t₁, run (step sampleConfig) init (reconnectTrace ["containers.list"]) = some s ∧
      s.grpc.tasks = [t₀, t₁] ∧ t₁.accepted = [⟨"r1", some .containersList⟩] ∧
      ∃ capability ∈ t₁.caps, commandCapability .containersList = some capability := by
  refine ⟨_, _, _, rfl, rfl, rfl, ?_⟩
  exact sent_commands_authorized sampleConfig (reconnectTrace ["containers.list"]) _ rfl (by decide) _
    (List.mem_cons_of_mem _ List.mem_cons_self) ⟨"r1", some .containersList⟩ List.mem_cons_self _ rfl (by decide)

/-- With a token that grants less, the command goes to the new stream all the same. -/
theorem unchecked_command_sent :
    ∃ s t₀ t₁, run (step sampleConfig) init (reconnectTrace ["coold.logs"]) = some s ∧
      s.grpc.tasks = [t₀, t₁] ∧ t₁.accepted = [⟨"r1", some .containersList⟩] ∧
      commandCapability .containersList = some "containers.list" ∧ "containers.list" ∉ t₁.caps :=
  ⟨_, _, _, rfl, rfl, rfl, rfl, by decide⟩

end BridgeSys

end Coold.Flux
