import Coold.Agent.Dial
import Coold.Agent.Handlers
import Coold.Lib.Lts
import Mathlib.Algebra.Order.Group.Multiset

/-!
# Serving a stream

Once a stream is open, coold reads commands from it in a loop.  A ping is answered by the loop itself; every other
command gets a task of its own that runs its handler.  The loop, the tasks and the task that forwards status updates all
send into one channel with room for 64 messages, from which the stream takes them.  A label says which of them moves;
a handler may take any time, and what it is answered when it is done is part of the label.

When the stream breaks the channel is dropped with what is in it, and tasks that are not done yet find it closed
(`lost`).  `commands_answered` says what comes of the commands: one response each and no more, and `pongs_in_order`
what comes of the pings.
-/

namespace Coold.Agent.Serve

/-! ### The system -/

/-- The room of the channel to the stream. -/
def capacity : Nat := 64

/-- A command that is being handled. -/
structure Task where
  requestId : String
  command : Command
  deriving DecidableEq

/-- The loop waits for a message, or for room for a pong, or it has ended. -/
inductive Loop where
  | receiving
  | sendingPong (requestId : String)
  | ended
  deriving DecidableEq

/-- The task that forwards status updates waits for one, or for room for one, or it has ended. -/
inductive Forwarder where
  | receiving
  | sending (update : ResourceStatusUpdate)
  | ended
  deriving DecidableEq

structure State where
  loop : Loop
  forwarder : Forwarder
  /-- The handlers that are not done. -/
  running : List Task
  /-- The responses that wait for room. -/
  responding : List Response
  /-- The messages on the way to the stream; `none` once the stream has dropped them. -/
  channel : Option (List ClientMsg)
  /-- What the stream has taken, in order. -/
  sent : List ClientMsg
  /-- The responses that nobody takes any more. -/
  lost : List Response
  /-- The messages of flux, in order. -/
  received : List ServerMsg

def helloFor (config : GrpcConfig) : ClientMsg where
  payload := some (.hello ⟨config.hostMgmtIp, config.version, 1, 1, primitiveCapabilities⟩)

def pongFor (requestId : String) : ClientMsg := ⟨some (.pong ⟨requestId⟩)⟩

def responseMsg (response : Response) : ClientMsg := ⟨some (.response response)⟩

def updateMsg (update : ResourceStatusUpdate) : ClientMsg := ⟨some (.resourceStatusUpdate update)⟩

/-- The state when the stream is open: the `Hello` is in the channel. -/
def init (config : GrpcConfig) : State where
  loop := .receiving
  forwarder := .receiving
  running := []
  responding := []
  channel := some [helloFor config]
  sent := []
  lost := []
  received := []

def responsesOf (msgs : List ClientMsg) : List Response :=
  msgs.filterMap fun msg => match msg.payload with
    | some (.response response) => some response
    | _ => none

inductive Label where
  /-- A message of flux arrives. -/
  | receive (msg : ServerMsg)
  /-- Flux ends the stream, or it fails. -/
  | endInbound (cleanly : Bool)
  | sendPong
  /-- The `n`-th of the running handlers is done, having been answered by `p`. -/
  | finish (n : Nat) (p : Handlers.Primitives)
  /-- The `n`-th of the waiting responses is sent. -/
  | respond (n : Nat)
  /-- A status update arrives, or is sent. -/
  | update (update : ResourceStatusUpdate)
  | forward
  /-- The stream takes a message. -/
  | take
  /-- The stream drops the channel. -/
  | close

/-- Send into the channel: `none` if there is no room, the message being refused if the channel is closed. -/
def send (channel : Option (List ClientMsg)) (msg : ClientMsg) : Option (Option (List ClientMsg) × Bool) :=
  match channel with
  | none => some (none, false)
  | some msgs => if msgs.length < capacity then some (some (msgs ++ [msg]), true) else none

def receive (s : State) (msg : ServerMsg) : State :=
  let s := { s with received := s.received ++ [msg] }
  match msg.command with
  | none => s
  | some .ping => { s with loop := .sendingPong msg.requestId }
  | some command => { s with running := s.running ++ [⟨msg.requestId, command⟩] }

def step (s : State) : Label → Option State
  | .receive msg =>
    match s.loop with
    | .receiving => some (receive s msg)
    | _ => none
  | .endInbound cleanly =>
    match s.loop with
    | .receiving =>
      -- only a clean end aborts the forwarder
      some { s with loop := .ended, forwarder := if cleanly then .ended else s.forwarder }
    | _ => none
  | .sendPong =>
    match s.loop with
    | .sendingPong requestId =>
      (send s.channel (pongFor requestId)).map fun (channel, taken) =>
        { s with channel, loop := if taken then .receiving else .ended }
    | _ => none
  | .finish n p =>
    (s.running[n]?).map fun task =>
      { s with
        running := s.running.eraseIdx n
        responding := s.responding ++ (Handlers.handle p task.requestId task.command).toList }
  | .respond n =>
    (s.responding[n]?).bind fun response =>
      (send s.channel (responseMsg response)).map fun (channel, taken) =>
        { s with
          channel
          responding := s.responding.eraseIdx n
          lost := if taken then s.lost else s.lost ++ [response] }
  | .update update =>
    match s.forwarder with
    | .receiving => some { s with forwarder := .sending update }
    | _ => none
  | .forward =>
    match s.forwarder with
    | .sending update =>
      (send s.channel (updateMsg update)).map fun (channel, taken) =>
        { s with channel, forwarder := if taken then .receiving else .ended }
    | _ => none
  | .take =>
    match s.channel with
    | some (msg :: msgs) => some { s with channel := some msgs, sent := s.sent ++ [msg] }
    | _ => none
  | .close =>
    match s.channel with
    | some msgs => some { s with channel := none, lost := s.lost ++ responsesOf msgs }
    | none => none

/-! ### What a step does -/

/-- The steps, with the messages that they move. -/
inductive Effect (s : State) : State → Prop where
  | received (msg : ServerMsg) (hloop : s.loop = .receiving) : Effect s (receive s msg)
  | ended (forwarder : Forwarder) (hloop : s.loop = .receiving) : Effect s { s with loop := .ended, forwarder }
  | pong (requestId : String) (msgs : List ClientMsg) (hloop : s.loop = .sendingPong requestId)
      (hchannel : s.channel = some msgs) (hroom : msgs.length < capacity) :
      Effect s { s with loop := .receiving, channel := some (msgs ++ [pongFor requestId]) }
  | pongRefused (requestId : String) (hloop : s.loop = .sendingPong requestId) (hchannel : s.channel = none) :
      Effect s { s with loop := .ended }
  | finished (n : Nat) (task : Task) (p : Handlers.Primitives) (htask : s.running[n]? = some task) :
      Effect s { s with
        running := s.running.eraseIdx n
        responding := s.responding ++ (Handlers.handle p task.requestId task.command).toList }
  | responded (n : Nat) (response : Response) (msgs : List ClientMsg) (hresponse : s.responding[n]? = some response)
      (hchannel : s.channel = some msgs) (hroom : msgs.length < capacity) :
      Effect s { s with
        channel := some (msgs ++ [responseMsg response])
        responding := s.responding.eraseIdx n }
  | responseLost (n : Nat) (response : Response) (hresponse : s.responding[n]? = some response)
      (hchannel : s.channel = none) :
      Effect s { s with responding := s.responding.eraseIdx n, lost := s.lost ++ [response] }
  | forwarder (forwarder : Forwarder) : Effect s { s with forwarder }
  | forwarded (update : ResourceStatusUpdate) (msgs : List ClientMsg) (hchannel : s.channel = some msgs)
      (hroom : msgs.length < capacity) :
      Effect s { s with forwarder := .receiving, channel := some (msgs ++ [updateMsg update]) }
  | taken (msg : ClientMsg) (msgs : List ClientMsg) (hchannel : s.channel = some (msg :: msgs)) :
      Effect s { s with channel := some msgs, sent := s.sent ++ [msg] }
  | closed (msgs : List ClientMsg) (hchannel : s.channel = some msgs) :
      Effect s { s with channel := none, lost := s.lost ++ responsesOf msgs }

private theorem send_eq_some {channel channel' : Option (List ClientMsg)} {msg : ClientMsg} {taken : Bool}
    (h : send channel msg = some (channel', taken)) :
    (channel = none ∧ channel' = none ∧ taken = false) ∨
      ∃ msgs, channel = some msgs ∧ msgs.length < capacity ∧ channel' = some (msgs ++ [msg]) ∧ taken = true := by
  cases channel with
  | none =>
    obtain ⟨rfl, rfl⟩ := Prod.mk.inj (Option.some.inj h)
    exact Or.inl ⟨rfl, rfl, rfl⟩
  | some msgs =>
    obtain ⟨hroom, h⟩ := Option.ite_none_right_eq_some.1 h
    obtain ⟨rfl, rfl⟩ := Prod.mk.inj (Option.some.inj h)
    exact Or.inr ⟨msgs, rfl, hroom, rfl, rfl⟩

private theorem effect_of_step {s s' : State} {a : Label} (h : step s a = some s') : Effect s s' := by
  cases a with
  | receive msg =>
    simp only [step] at h
    split at h
    · rename_i hloop
      exact Option.some.inj h ▸ .received msg hloop
    · cases h
  | endInbound cleanly =>
    simp only [step] at h
    split at h
    · rename_i hloop
      exact Option.some.inj h ▸ .ended _ hloop
    · cases h
  | sendPong =>
    simp only [step] at h
    split at h
    · rename_i requestId hloop
      obtain ⟨⟨channel', taken⟩, hsend, rfl⟩ := Option.map_eq_some_iff.1 h
      rcases send_eq_some hsend with ⟨hchannel, rfl, rfl⟩ | ⟨msgs, hchannel, hroom, rfl, rfl⟩
      · have hrefused := Effect.pongRefused requestId hloop hchannel
        rw [← hchannel]
        exact hrefused
      · exact .pong requestId msgs hloop hchannel hroom
    · cases h
  | finish n p =>
    obtain ⟨task, htask, rfl⟩ := Option.map_eq_some_iff.1 h
    exact .finished n task p htask
  | respond n =>
    obtain ⟨response, hresponse, h⟩ := Option.bind_eq_some_iff.1 h
    obtain ⟨⟨channel', taken⟩, hsend, rfl⟩ := Option.map_eq_some_iff.1 h
    rcases send_eq_some hsend with ⟨hchannel, rfl, rfl⟩ | ⟨msgs, hchannel, hroom, rfl, rfl⟩
    · have hlost := Effect.responseLost n response hresponse hchannel
      rw [← hchannel]
      exact hlost
    · exact .responded n response msgs hresponse hchannel hroom
  | update update =>
    simp only [step] at h
    split at h
    · exact Option.some.inj h ▸ .forwarder _
    · cases h
  | forward =>
    simp only [step] at h
    split at h
    · rename_i update hforwarder
      obtain ⟨⟨channel', taken⟩, hsend, rfl⟩ := Option.map_eq_some_iff.1 h
      rcases send_eq_some hsend with ⟨hchannel, rfl, rfl⟩ | ⟨msgs, hchannel, hroom, rfl, rfl⟩
      · have hended := Effect.forwarder (s := s) .ended
        rw [← hchannel]
        exact hended
      · exact .forwarded update msgs hchannel hroom
    · cases h
  | take =>
    simp only [step] at h
    split at h
    · rename_i msg msgs hchannel
      exact Option.some.inj h ▸ .taken msg msgs hchannel
    · cases h
  | close =>
    simp only [step] at h
    split at h
    · rename_i msgs hchannel
      exact Option.some.inj h ▸ .closed msgs hchannel
    · cases h

/-! ### Commands and responses -/

/-- The task of a message, if it is a command other than a ping. -/
def taskOf (msg : ServerMsg) : Option Task :=
  match msg.command with
  | none => none
  | some .ping => none
  | some command => some ⟨msg.requestId, command⟩

def commandsOf (msgs : List ServerMsg) : List Task := msgs.filterMap taskOf

/-- The response is for the command of the task. -/
def Replies (task : Task) (response : Response) : Prop :=
  response.requestId = task.requestId ∧
    ∃ body, response.body = some body ∧ Handlers.Answers (Handlers.commandType task.command) body

/-- All responses there are, wherever they have got to. -/
def responses (s : State) : Multiset Response :=
  ↑(responsesOf s.sent) + ↑(responsesOf (s.channel.getD [])) + ↑s.responding + ↑s.lost

@[simp] theorem responsesOf_nil : responsesOf [] = [] := rfl

@[simp] theorem responsesOf_append (l₁ l₂ : List ClientMsg) :
    responsesOf (l₁ ++ l₂) = responsesOf l₁ ++ responsesOf l₂ := List.filterMap_append

@[simp] theorem responsesOf_responseMsg (response : Response) : responsesOf [responseMsg response] = [response] := rfl

@[simp] theorem responsesOf_pongFor (requestId : String) : responsesOf [pongFor requestId] = [] := rfl

@[simp] theorem responsesOf_updateMsg (update : ResourceStatusUpdate) : responsesOf [updateMsg update] = [] := rfl

private theorem responsesOf_cons (msg : ClientMsg) (msgs : List ClientMsg) :
    responsesOf (msg :: msgs) = responsesOf [msg] ++ responsesOf msgs := responsesOf_append [msg] msgs

private theorem coe_eraseIdx {α : Type} {l : List α} {n : Nat} {a : α} (h : l[n]? = some a) :
    (l : Multiset α) = (l.eraseIdx n : Multiset α) + {a} := by
  induction l generalizing n with
  | nil => cases h
  | cons b l ih =>
    cases n with
    | zero =>
      obtain rfl : b = a := Option.some.inj h
      rw [List.eraseIdx_cons_zero, ← Multiset.cons_coe, Multiset.add_comm, Multiset.singleton_add]
    | succ n =>
      rw [List.eraseIdx_cons_succ, ← Multiset.cons_coe, ih h, ← Multiset.cons_coe, Multiset.cons_add]

/-- Every command that was received is being handled or has one response, and there are no other responses. -/
structure Served (s : State) : Prop where
  matched : ∃ answered : Multiset Task, Multiset.Rel Replies answered (responses s) ∧
    ↑s.running + answered = (↑(commandsOf s.received) : Multiset Task)
  notPing : ∀ task ∈ s.running, task.command ≠ .ping

/-- A step that moves responses without changing them. -/
private theorem Served.of_eq {s s' : State} (hs : Served s) (hrunning : s'.running = s.running)
    (hreceived : s'.received = s.received) (hresponses : responses s' = responses s) : Served s' := by
  obtain ⟨answered, hrel, hcommands⟩ := hs.matched
  refine ⟨⟨answered, hresponses ▸ hrel, ?_⟩, hrunning ▸ hs.notPing⟩
  rw [hrunning, hreceived]
  exact hcommands

private theorem served_receive {s : State} (hs : Served s) (msg : ServerMsg) : Served (receive s msg) := by
  obtain ⟨answered, hrel, hcommands⟩ := hs.matched
  obtain ⟨requestId, command⟩ := msg
  have hnil : ∀ {msg : ServerMsg}, taskOf msg = none → commandsOf (s.received ++ [msg]) = commandsOf s.received := by
    intro msg hmsg
    rw [commandsOf, List.filterMap_append, List.filterMap_cons_none hmsg, List.filterMap_nil, List.append_nil]
    rfl
  cases command with
  | none =>
    refine ⟨⟨answered, hrel, ?_⟩, hs.notPing⟩
    show ↑s.running + answered = (↑(commandsOf (s.received ++ [⟨requestId, none⟩])) : Multiset Task)
    rw [hnil rfl, hcommands]
  | some command =>
    by_cases hping : command = .ping
    · subst hping
      refine ⟨⟨answered, hrel, ?_⟩, hs.notPing⟩
      show ↑s.running + answered = (↑(commandsOf (s.received ++ [⟨requestId, some .ping⟩])) : Multiset Task)
      rw [hnil rfl, hcommands]
    · have htask : taskOf ⟨requestId, some command⟩ = some ⟨requestId, command⟩ := by
        cases command <;> first | rfl | exact absurd rfl hping
      have hreceive : receive s ⟨requestId, some command⟩ =
          { s with
            received := s.received ++ [⟨requestId, some command⟩]
            running := s.running ++ [⟨requestId, command⟩] } := by
        cases command <;> first | rfl | exact absurd rfl hping
      rw [hreceive]
      refine ⟨⟨answered, hrel, ?_⟩, ?_⟩
      · show (↑(s.running ++ [(⟨requestId, command⟩ : Task)]) : Multiset Task) + answered =
          (↑(commandsOf (s.received ++ [⟨requestId, some command⟩])) : Multiset Task)
        rw [commandsOf, List.filterMap_append, List.filterMap_cons_some htask, List.filterMap_nil,
          ← Multiset.coe_add, ← Multiset.coe_add, add_right_comm, hcommands]
        rfl
      · intro task htask
        rcases List.mem_append.1 htask with hmem | hmem
        · exact hs.notPing task hmem
        · rw [List.mem_singleton.1 hmem]
          exact hping

/-- A handler that is done leaves exactly one response. -/
private theorem handle_replies {p : Handlers.Primitives} {task : Task} (h : task.command ≠ .ping) :
    ∃ response, (Handlers.handle p task.requestId task.command).toList = [response] ∧ Replies task response := by
  obtain ⟨response, hresponse⟩ := Option.isSome_iff_exists.1 (Handlers.handle_isSome p task.requestId h)
  obtain ⟨-, hid, hbody⟩ := Handlers.handle_eq_some hresponse
  exact ⟨response, by rw [hresponse]; rfl, hid, hbody⟩

private theorem served_finish {s : State} (hs : Served s) {n : Nat} {task : Task} (p : Handlers.Primitives)
    (htask : s.running[n]? = some task) :
    Served { s with
      running := s.running.eraseIdx n
      responding := s.responding ++ (Handlers.handle p task.requestId task.command).toList } := by
  obtain ⟨answered, hrel, hcommands⟩ := hs.matched
  obtain ⟨response, hresponse, hreplies⟩ := handle_replies (p := p) (hs.notPing task (List.mem_of_getElem? htask))
  refine ⟨⟨task ::ₘ answered, ?_, ?_⟩, fun t ht => hs.notPing t (List.mem_of_mem_eraseIdx ht)⟩
  · have hall : responses { s with
        running := s.running.eraseIdx n
        responding := s.responding ++ (Handlers.handle p task.requestId task.command).toList } =
        response ::ₘ responses s := by
      simp only [responses, hresponse, ← Multiset.coe_add, Multiset.coe_singleton, ← Multiset.singleton_add]
      ac_rfl
    rw [hall]
    exact hrel.cons hreplies
  · show (↑(s.running.eraseIdx n) : Multiset Task) + task ::ₘ answered = _
    rw [← hcommands, coe_eraseIdx htask, Multiset.add_assoc, Multiset.singleton_add]

private theorem served_effect {s s' : State} (hs : Served s) (h : Effect s s') : Served s' := by
  cases h with
  | received msg hloop => exact served_receive hs msg
  | ended forwarder hloop => exact hs.of_eq rfl rfl rfl
  | pong requestId msgs hloop hchannel hroom =>
    refine hs.of_eq rfl rfl ?_
    simp [responses, hchannel]
  | pongRefused requestId hloop hchannel => exact hs.of_eq rfl rfl rfl
  | finished n task p htask => exact served_finish hs p htask
  | responded n response msgs hresponse hchannel hroom =>
    refine hs.of_eq rfl rfl ?_
    simp only [responses, hchannel, Option.getD_some, responsesOf_append, responsesOf_responseMsg,
      coe_eraseIdx hresponse, ← Multiset.coe_add, Multiset.coe_singleton]
    ac_rfl
  | responseLost n response hresponse hchannel =>
    refine hs.of_eq rfl rfl ?_
    simp only [responses, coe_eraseIdx hresponse, ← Multiset.coe_add, Multiset.coe_singleton]
    ac_rfl
  | forwarder forwarder => exact hs.of_eq rfl rfl rfl
  | forwarded update msgs hchannel hroom =>
    refine hs.of_eq rfl rfl ?_
    simp [responses, hchannel]
  | taken msg msgs hchannel =>
    refine hs.of_eq rfl rfl ?_
    simp only [responses, hchannel, Option.getD_some, responsesOf_append, responsesOf_cons msg msgs,
      ← Multiset.coe_add]
    ac_rfl
  | closed msgs hchannel =>
    refine hs.of_eq rfl rfl ?_
    simp only [responses, hchannel, Option.getD_some, Option.getD_none, responsesOf_nil, Multiset.coe_nil,
      ← Multiset.coe_add, Multiset.add_zero]
    ac_rfl

private theorem served_init (config : GrpcConfig) : Served (init config) :=
  ⟨⟨0, .zero, rfl⟩, fun _ h => absurd h List.not_mem_nil⟩

/-! ### Pings and pongs -/

def pingsOf (msgs : List ServerMsg) : List String :=
  msgs.filterMap fun msg => if msg.command = some .ping then some msg.requestId else none

def pongsOf (msgs : List ClientMsg) : List String :=
  msgs.filterMap fun msg => match msg.payload with
    | some (.pong pong) => some pong.requestId
    | _ => none

/-- The ping that the loop has not answered yet. -/
def Loop.pending : Loop → List String
  | .sendingPong requestId => [requestId]
  | _ => []

@[simp] theorem pongsOf_nil : pongsOf [] = [] := rfl

@[simp] theorem pongsOf_append (l₁ l₂ : List ClientMsg) : pongsOf (l₁ ++ l₂) = pongsOf l₁ ++ pongsOf l₂ :=
  List.filterMap_append

@[simp] theorem pongsOf_pongFor (requestId : String) : pongsOf [pongFor requestId] = [requestId] := rfl

@[simp] theorem pongsOf_responseMsg (response : Response) : pongsOf [responseMsg response] = [] := rfl

@[simp] theorem pongsOf_updateMsg (update : ResourceStatusUpdate) : pongsOf [updateMsg update] = [] := rfl

/-- As long as the channel is there, the pongs and the ping being answered are the pings, in order. -/
structure Ponged (s : State) : Prop where
  open_ : ∀ msgs, s.channel = some msgs → pongsOf (s.sent ++ msgs) ++ s.loop.pending = pingsOf s.received
  sent : pongsOf s.sent <+: pingsOf s.received
  room : ∀ msgs, s.channel = some msgs → msgs.length ≤ capacity

private theorem ponged_init (config : GrpcConfig) : Ponged (init config) where
  open_ msgs h := by
    obtain rfl := Option.some.inj h
    rfl
  sent := List.nil_prefix
  room msgs h := by
    obtain rfl := Option.some.inj h
    exact Nat.le_of_ble_eq_true rfl

/-- A ping is pending right away; nothing else changes what there is to answer. -/
private theorem pending_receive {s : State} (hloop : s.loop = .receiving) (msg : ServerMsg) :
    pingsOf (receive s msg).received = pingsOf s.received ++ (receive s msg).loop.pending := by
  obtain ⟨requestId, command⟩ := msg
  have hreceived : (receive s ⟨requestId, command⟩).received = s.received ++ [⟨requestId, command⟩] := by
    cases command with
    | none => rfl
    | some command => cases command <;> rfl
  by_cases hping : command = some .ping
  · subst hping
    rw [hreceived, pingsOf, List.filterMap_append]
    rfl
  · have hpending : (receive s ⟨requestId, command⟩).loop = .receiving := by
      cases command with
      | none => exact hloop
      | some command =>
        cases command <;> first | exact hloop | exact absurd rfl hping
    rw [hreceived, hpending, pingsOf, List.filterMap_append, List.filterMap_cons_none (by simp [hping])]
    rfl

private theorem channel_receive (s : State) (msg : ServerMsg) :
    (receive s msg).channel = s.channel ∧ (receive s msg).sent = s.sent := by
  obtain ⟨requestId, command⟩ := msg
  cases command with
  | none => exact ⟨rfl, rfl⟩
  | some command => cases command <;> exact ⟨rfl, rfl⟩

/-- A step that does nothing about pings. -/
private theorem Ponged.of_eq {s s' : State} (hs : Ponged s) (hchannel : s'.channel = s.channel)
    (hsent : s'.sent = s.sent)
    (hloop : ∀ msgs, s.channel = some msgs → s'.loop.pending = s.loop.pending) (hreceived : s'.received = s.received) :
    Ponged s' where
  open_ msgs h := by
    rw [hchannel] at h
    rw [hsent, hreceived, hloop msgs h]
    exact hs.open_ msgs h
  sent := by
    rw [hsent, hreceived]
    exact hs.sent
  room msgs h := hs.room msgs (hchannel ▸ h)

/-- A message that is no pong goes into the channel. -/
theorem Ponged.push {s s' : State} (hs : Ponged s) {msgs : List ClientMsg} {msg : ClientMsg}
    (hchannel : s.channel = some msgs) (hroom : msgs.length < capacity) (hchannel' : s'.channel = some (msgs ++ [msg]))
    (hsent : s'.sent = s.sent) (hreceived : s'.received = s.received)
    (hpong : pongsOf [msg] ++ s'.loop.pending = s.loop.pending) : Ponged s' where
  open_ msgs' h := by
    obtain rfl := Option.some.inj (hchannel'.symm.trans h)
    have hopen := hs.open_ msgs hchannel
    rw [hsent, hreceived, ← hopen, ← hpong, ← List.append_assoc, ← List.append_assoc, pongsOf_append,
      List.append_assoc]
  sent := by
    rw [hsent, hreceived]
    exact hs.sent
  room msgs' h := by
    obtain rfl := Option.some.inj (hchannel'.symm.trans h)
    rw [List.length_append, List.length_singleton]
    exact hroom

private theorem ponged_effect {s s' : State} (hs : Ponged s) (h : Effect s s') : Ponged s' := by
  cases h with
  | received msg hloop =>
    obtain ⟨hchannel, hsent⟩ := channel_receive s msg
    have hpings := pending_receive hloop msg
    refine ⟨fun msgs h => ?_, ?_, fun msgs h => hs.room msgs (hchannel ▸ h)⟩
    · have hopen := hs.open_ msgs (hchannel ▸ h)
      have hidle : s.loop.pending = [] := by rw [hloop]; rfl
      rw [hidle, List.append_nil] at hopen
      rw [hsent, hopen, hpings]
    · rw [hsent, hpings]
      exact hs.sent.trans (List.prefix_append _ _)
  | ended forwarder hloop => exact hs.of_eq rfl rfl (fun _ _ => by rw [hloop]; rfl) rfl
  | pong requestId msgs hloop hchannel hroom =>
    exact hs.push hchannel hroom rfl rfl rfl (by rw [hloop]; rfl)
  | pongRefused requestId hloop hchannel =>
    refine hs.of_eq rfl rfl (fun msgs h => ?_) rfl
    rw [hchannel] at h
    cases h
  | finished n task p htask => exact hs.of_eq rfl rfl (fun _ _ => rfl) rfl
  | responded n response msgs hresponse hchannel hroom => exact hs.push hchannel hroom rfl rfl rfl rfl
  | responseLost n response hresponse hchannel => exact hs.of_eq rfl rfl (fun _ _ => rfl) rfl
  | forwarder forwarder => exact hs.of_eq rfl rfl (fun _ _ => rfl) rfl
  | forwarded update msgs hchannel hroom => exact hs.push hchannel hroom rfl rfl rfl rfl
  | taken msg msgs hchannel =>
    have hopen := hs.open_ (msg :: msgs) hchannel
    have hsplit : s.sent ++ msg :: msgs = (s.sent ++ [msg]) ++ msgs := by
      rw [List.append_assoc, List.singleton_append]
    rw [hsplit] at hopen
    refine ⟨fun msgs' h => ?_, ?_, fun msgs' h => ?_⟩
    · obtain rfl := Option.some.inj h
      exact hopen
    · show pongsOf (s.sent ++ [msg]) <+: pingsOf s.received
      rw [← hopen, pongsOf_append (s.sent ++ [msg]) msgs, List.append_assoc]
      exact List.prefix_append _ _
    · obtain rfl := Option.some.inj h
      exact Nat.le_of_succ_le (hs.room _ hchannel)
  | closed msgs hchannel => exact ⟨fun _ h => absurd h (by simp), hs.sent, fun _ h => absurd h (by simp)⟩

/-! ### Runs -/

/-- Nothing is being handled or on its way, and nothing was lost. -/
def State.Quiet (s : State) : Prop :=
  s.running = [] ∧ s.responding = [] ∧ s.channel.getD [] = [] ∧ s.lost = []

theorem served_of_run {config : GrpcConfig} {labels : List Label} {s : State}
    (h : Lts.run step (init config) labels = some s) : Served s :=
  Lts.invariant_of_step (fun _ _ _ hs hstep => served_effect hs (effect_of_step hstep)) (served_init config) h

/-- The commands whose responses the stream has taken. -/
theorem Served.answered {s : State} (hs : Served s) :
    ∃ answered : Multiset Task, answered ≤ ↑(commandsOf s.received) ∧
      Multiset.Rel Replies answered ↑(responsesOf s.sent) ∧ (s.Quiet → answered = ↑(commandsOf s.received)) := by
  obtain ⟨answered, hrel, hcommands⟩ := hs.matched
  rw [responses, add_assoc, add_assoc, Multiset.rel_add_right] at hrel
  obtain ⟨taken, others, htaken, hothers, rfl⟩ := hrel
  refine ⟨taken, ?_, htaken, ?_⟩
  · rw [← hcommands, add_left_comm]
    exact Multiset.le_add_right taken _
  · rintro ⟨hrunning, hresponding, hchannel, hlost⟩
    rw [hresponding, hchannel, hlost] at hothers
    have hzero : others = 0 := Multiset.rel_zero_right.1 hothers
    rw [← hcommands, hrunning, hzero, add_zero, Multiset.coe_nil, zero_add]

/-- After any run, whatever moves when and whatever the handlers are answered: the responses that the stream has taken
belong one to one to commands that were received, each with the id of its command and a body of its kind or an error;
and when nothing is on its way any more and nothing was lost, to all of them. -/
theorem commands_answered (config : GrpcConfig) (labels : List Label) (s : State)
    (h : Lts.run step (init config) labels = some s) :
    ∃ answered : Multiset Task, answered ≤ ↑(commandsOf s.received) ∧
      Multiset.Rel Replies answered ↑(responsesOf s.sent) ∧ (s.Quiet → answered = ↑(commandsOf s.received)) :=
  (served_of_run h).answered

section Sample

def sampleConfig : GrpcConfig where
  hostMgmtIp := "100.64.0.5"
  version := "1.0.0"
  grpcDisabled := false
  fluxUrl := none
  assignmentUrl := none
  hostJwtPath := ""
  fluxTlsPinPath := ""

/-- A host on which nothing works. -/
def samplePrimitives : Handlers.Primitives where
  pullImage _ := .error ""
  listImages := .error ""
  deleteImage _ _ := .error ""
  createContainer _ := .error ""
  startContainer _ := .error ""
  stopContainer _ _ := .error ""
  restartContainer _ _ := .error ""
  deleteContainer _ _ := .error ""
  inspectContainerJson _ := .error ""
  podmanContainers := .error ""
  inspectContainer _ := .error ""
  containerLogs _ _ _ _ := .error ""
  execContainer _ _ := .error ""
  runHealthcheck _ := .error ""
  output _ _ := .error ""
  tablesJson _ := .error ""
  applyCaddyIngress _ _ _ := .error ""
  firewallAllow _ := .error ""
  firewallRevoke _ := .error ""
  loadFirewallRules := .error ""
  firewallReconcile := .error ""
  applyHostJwt _ := .error ""

/-- Two commands and a ping; the second command is done first. -/
def sampleLabels : List Label :=
  [.receive ⟨"a", some .imagesList⟩, .receive ⟨"b", some .containersList⟩, .receive ⟨"p", some .ping⟩,
    .finish 1 samplePrimitives, .respond 0, .sendPong, .take, .finish 0 samplePrimitives, .respond 0, .take, .take,
    .take]

def sampleEnd : State where
  loop := .receiving
  forwarder := .receiving
  running := []
  responding := []
  channel := some []
  sent := [helloFor sampleConfig, responseMsg ⟨"b", some (.error 500 "")⟩, pongFor "p",
    responseMsg ⟨"a", some (.error 500 "")⟩]
  lost := []
  received := [⟨"a", some .imagesList⟩, ⟨"b", some .containersList⟩, ⟨"p", some .ping⟩]

end Sample

/-- Both commands are answered, each under its own id. -/
theorem commands_answered_both : ∃ answered : Multiset Task,
    answered ≤ ↑[(⟨"a", .imagesList⟩ : Task), ⟨"b", .containersList⟩] ∧
      Multiset.Rel Replies answered ↑[(⟨"b", some (.error 500 "")⟩ : Response), ⟨"a", some (.error 500 "")⟩] ∧
      (sampleEnd.Quiet → answered = ↑[(⟨"a", .imagesList⟩ : Task), ⟨"b", .containersList⟩]) :=
  commands_answered sampleConfig sampleLabels sampleEnd rfl

/-- After any run the pongs that the stream has taken are the first of the pings that were received, in their order;
while the stream is there, the pings are answered up to the one that the loop is at; and no more than 64 messages ever
wait for the stream. -/
theorem pongs_in_order (config : GrpcConfig) (labels : List Label) (s : State)
    (h : Lts.run step (init config) labels = some s) :
    pongsOf s.sent <+: pingsOf s.received ∧
      ∀ msgs, s.channel = some msgs →
        pongsOf (s.sent ++ msgs) ++ s.loop.pending = pingsOf s.received ∧ msgs.length ≤ capacity := by
  have hponged : Ponged s := Lts.invariant_of_step (fun s a s' hs hstep => ponged_effect hs (effect_of_step hstep))
    (ponged_init config) h
  exact ⟨hponged.sent, fun msgs hmsgs => ⟨hponged.open_ msgs hmsgs, hponged.room msgs hmsgs⟩⟩

theorem pongs_in_order_sample : ["p"] <+: ["p"] ∧ ∀ msgs, sampleEnd.channel = some msgs →
    pongsOf (sampleEnd.sent ++ msgs) ++ sampleEnd.loop.pending = ["p"] ∧ msgs.length ≤ capacity :=
  pongs_in_order sampleConfig sampleLabels sampleEnd rfl

end Coold.Agent.Serve
