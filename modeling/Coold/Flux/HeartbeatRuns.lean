import Coold.Flux.UnixBridge

/-!
# The heartbeat and a host that does not drain

The heartbeat pings the hosts of a round one after the other and waits for room in the command channel of each.  So it
is held by a host with a full channel (`HeldBy`), and then nothing but the client of that host lets it go on
(`heldBy_step`): the hosts after it are not pinged, and no host is found stale.

`Free` says that the heartbeat can go on without the clients of the streams.  It holds along a run exactly when every
step finds room (`FindsRoom`): the heartbeat never turns to a host whose channel is full, and no dispatch takes the
last place in the channel of the host that it is about to ping.
-/

namespace Coold.Flux

open Lts

/-- A step of the heartbeat. -/
def GrpcOp.heartbeat : GrpcOp → Bool
  | .tick _ | .reportStale | .pingTargets | .ping _ | .sleep => true
  | _ => false

/-- A step of the client of a stream: it connects, sends a message, takes a command, or is gone. -/
def GrpcOp.client : GrpcOp → Bool
  | .connect _ _ | .hold _ _ _ | .statusUpdate _ _ | .pong _ _ | .ignore _ | .take _ | .closeRx _ => true
  | _ => false

def BridgeOp.client : BridgeOp → Bool
  | .grpc op => op.client
  | .response _ _ _ => true
  | _ => false

namespace StreamTask

private theorem trySend_eq_full {t : StreamTask} :
    t.trySend = .full ↔ t.rxOpen = true ∧ commandChannelCapacity ≤ t.queue.length := by
  cases hopen : t.rxOpen <;> simp [trySend, hopen]

private theorem trySend_eq_sent {t : StreamTask} :
    t.trySend = .sent ↔ t.rxOpen = true ∧ t.queue.length < commandChannelCapacity := by
  cases hopen : t.rxOpen <;> simp [trySend, hopen]

end StreamTask

namespace Heartbeat

/-- The hosts that are still to be pinged in this round, with their streams. -/
def targets : Heartbeat → List (String × Nat)
  | .pinging targets => targets
  | _ => []

/-- The stream that is pinged next. -/
def next (b : Heartbeat) : Option Nat := b.targets.head?.map Prod.snd

end Heartbeat

namespace GrpcSys

variable {cfg : GrpcConfig} {s s' : GrpcSys} {a : GrpcOp} {i : Nat}

/-- The heartbeat waits for room in the channel of a stream. -/
def HeldBy (s : GrpcSys) (i : Nat) : Prop := s.heartbeat.next = some i ∧ s.trySend i = some .full

/-! ### What a step does to the heartbeat and to a channel -/

private theorem heartbeat_step (hs : s.step cfg a = some s') (ha : a.heartbeat = false) :
    s'.heartbeat = s.heartbeat := by
  cases a with
  | tick now | reportStale | pingTargets | ping requestId | sleep => cases ha
  | connect ad now =>
    obtain rfl := Option.some.inj hs
    rfl
  | release i | enqueue i msg =>
    simp only [step] at hs
    split at hs
    · obtain rfl := Option.some.inj hs
      rfl
    · cases hs
  | statusUpdate i update =>
    obtain ⟨t, -, rfl⟩ := Option.map_eq_some_iff.1 hs
    simp only [spawnBoundedPublish]
    split <;> rfl
  | pong i now =>
    obtain ⟨t, -, rfl⟩ := Option.map_eq_some_iff.1 hs
    simp only [pong, spawnBoundedPublish]
    split
    · split <;> rfl
    · rfl
  | _ =>
    obtain ⟨t, -, rfl⟩ := Option.map_eq_some_iff.1 hs
    rfl

/-- The stream on whose channel a step puts a message, if there is room. -/
def receiver (s : GrpcSys) : GrpcOp → Option Nat
  | .enqueue i _ => some i
  | .ping _ => s.heartbeat.next
  | _ => none

/-- What a step does to the command channel of a stream: nothing, what its client does, or a message is put on it. -/
inductive ChannelStep (s : GrpcSys) (a : GrpcOp) (i : Nat) (t t' : StreamTask) : Prop where
  | same : (s.receiver a = some i → t.trySend ≠ .sent) → t'.queue = t.queue → t'.rxOpen = t.rxOpen →
      ChannelStep s a i t t'
  | client : a = .take i ∨ a = .closeRx i → (t'.trySend = .full → t.trySend = .full) → ChannelStep s a i t t'
  | push : s.receiver a = some i → t.trySend = .sent → t'.queue.length = t.queue.length + 1 →
      t'.rxOpen = t.rxOpen → ChannelStep s a i t t'

private theorem channelStep_modify {j : Nat} {f : StreamTask → StreamTask} {t : StreamTask}
    (htasks : s'.tasks = s.tasks.modify j f) (hrecv : ∀ k, s.receiver a = some k → k = j)
    (ht : s.tasks[i]? = some t) (hf : j = i → ChannelStep s a i t (f t)) :
    ∃ t', s'.tasks[i]? = some t' ∧ ChannelStep s a i t t' := by
  refine ⟨if j = i then f t else t, ?_, ?_⟩
  · rw [htasks, List.getElem?_modify, ht]
    rfl
  · split
    · rename_i hji
      exact hf hji
    · rename_i hji
      exact .same (fun h => absurd (hrecv i h).symm hji) rfl rfl

private theorem receiver_none {P : Prop} {k : Nat} (ha : s.receiver a = none) (h : s.receiver a = some k) : P := by
  rw [ha] at h
  cases h

private theorem channel_step (hs : s.step cfg a = some s') {t : StreamTask} (ht : s.tasks[i]? = some t) :
    ∃ t', s'.tasks[i]? = some t' ∧ ChannelStep s a i t t' := by
  have hsame : s'.tasks = s.tasks → s.receiver a = none → ∃ t', s'.tasks[i]? = some t' ∧ ChannelStep s a i t t' :=
    fun htasks hrecv => ⟨t, htasks ▸ ht, .same (by simp [hrecv]) rfl rfl⟩
  cases a with
  | connect ad now =>
    obtain rfl := Option.some.inj hs
    refine ⟨t, ?_, .same (receiver_none rfl) rfl rfl⟩
    rw [connect, List.getElem?_append_left (List.getElem?_eq_some_iff.1 ht).1, ht]
  | hold j resp gen | leave j | remove j | reportExit j =>
    obtain ⟨t, -, rfl⟩ := Option.map_eq_some_iff.1 hs
    exact channelStep_modify rfl (fun _ => receiver_none rfl) ht fun _ => .same (receiver_none rfl) rfl rfl
  | release j =>
    simp only [step] at hs
    split at hs
    · obtain rfl := Option.some.inj hs
      exact channelStep_modify rfl (fun _ => receiver_none rfl) ht fun _ => .same (receiver_none rfl) rfl rfl
    · cases hs
  | statusUpdate j update =>
    obtain ⟨t, -, rfl⟩ := Option.map_eq_some_iff.1 hs
    exact hsame (tasks_spawnBoundedPublish _ _ _) rfl
  | pong j now =>
    obtain ⟨t, -, rfl⟩ := Option.map_eq_some_iff.1 hs
    exact hsame (tasks_pong _ _ _ _) rfl
  | ignore j =>
    obtain ⟨t, -, rfl⟩ := Option.map_eq_some_iff.1 hs
    exact hsame rfl rfl
  | publish k =>
    obtain ⟨p, -, rfl⟩ := Option.map_eq_some_iff.1 hs
    exact hsame rfl rfl
  | enqueue j msg =>
    simp only [step] at hs
    split at hs
    · rename_i hsend
      obtain rfl := Option.some.inj hs
      refine channelStep_modify rfl (fun k hk => (Option.some.inj hk).symm) ht fun hji => ?_
      subst hji
      rw [trySend, ht] at hsend
      exact .push rfl (Option.some.inj hsend) (by simp [StreamTask.push]) rfl
    · cases hs
  | take j =>
    obtain ⟨u, -, rfl⟩ := Option.map_eq_some_iff.1 hs
    refine channelStep_modify rfl (fun _ => receiver_none rfl) ht fun hji => .client (Or.inl (by rw [hji])) ?_
    rw [StreamTask.trySend_eq_full, StreamTask.trySend_eq_full, List.length_drop]
    rintro ⟨hopen, hfull⟩
    exact ⟨hopen, by omega⟩
  | closeRx j =>
    obtain ⟨u, -, rfl⟩ := Option.map_eq_some_iff.1 hs
    refine channelStep_modify rfl (fun _ => receiver_none rfl) ht fun hji => .client (Or.inr (by rw [hji])) ?_
    simp [StreamTask.trySend_eq_full]
  | tick now | reportStale | pingTargets | sleep =>
    simp only [step] at hs
    split at hs
    · obtain rfl := Option.some.inj hs
      exact hsame rfl rfl
    · cases hs
  | ping requestId =>
    simp only [step] at hs
    split at hs
    · rename_i hostId tx targets hbeat
      have hrecv : s.receiver (.ping requestId) = some tx := by rw [receiver, hbeat]; rfl
      split at hs
      · rename_i hsend
        obtain rfl := Option.some.inj hs
        refine channelStep_modify rfl (fun k hk => Option.some.inj (hk.symm.trans hrecv)) ht fun hji => ?_
        subst hji
        rw [trySend, ht] at hsend
        exact .push hrecv (Option.some.inj hsend) (by simp [StreamTask.push]) rfl
      · rename_i hclosed
        obtain rfl := Option.some.inj hs
        refine ⟨t, ht, .same (fun hi => ?_) rfl rfl⟩
        obtain rfl := Option.some.inj (hi.symm.trans hrecv)
        rw [trySend, ht] at hclosed
        rw [Option.some.inj hclosed]
        decide
      · cases hs
    · cases hs

/-- The step takes the last place in the channel of a stream. -/
def Fills (s : GrpcSys) (i : Nat) (a : GrpcOp) : Prop :=
  s.receiver a = some i ∧ ∃ t, s.tasks[i]? = some t ∧ t.rxOpen = true ∧ t.queue.length + 1 = commandChannelCapacity

/-- A channel that is full stays so but for its client, and one that is not becomes so only when its last place is
taken. -/
private theorem full_step (hs : s.step cfg a = some s') {t : StreamTask} (ht : s.tasks[i]? = some t)
    (hclient : a ≠ .take i ∧ a ≠ .closeRx i) :
    s'.trySend i = some .full ↔ s.trySend i = some .full ∨ s.Fills i a := by
  obtain ⟨t', ht', hstep⟩ := channel_step hs ht
  have hfull : ∀ u : StreamTask, some u.trySend = some SendResult.full ↔
      u.rxOpen = true ∧ commandChannelCapacity ≤ u.queue.length :=
    fun u => (Option.some_inj).trans StreamTask.trySend_eq_full
  rw [trySend, ht', Option.map_some, hfull, trySend, ht, Option.map_some, hfull, Fills]
  cases hstep with
  | same hrecv hqueue hopen =>
    rw [hqueue, hopen]
    refine ⟨Or.inl, fun h => h.elim id ?_⟩
    rintro ⟨hto, u, hu, huopen, hlast⟩
    obtain rfl := Option.some.inj (ht.symm.trans hu)
    exact absurd (StreamTask.trySend_eq_sent.2 ⟨huopen, by omega⟩) (hrecv hto)
  | client hop _ => exact absurd hop (not_or.2 hclient)
  | push hto hsent hlen hopen =>
    obtain ⟨hwas, hroom⟩ := StreamTask.trySend_eq_sent.1 hsent
    rw [hopen, hlen]
    constructor
    · exact fun ⟨_, hcap⟩ => Or.inr ⟨hto, t, ht, hwas, by omega⟩
    · rintro (⟨_, hcap⟩ | ⟨_, u, hu, _, hlast⟩)
      · omega
      · obtain rfl := Option.some.inj (ht.symm.trans hu)
        exact ⟨hwas, by omega⟩

private theorem full_of_client (hs : s.step cfg a = some s') {t : StreamTask} (ht : s.tasks[i]? = some t)
    (hclient : a = .take i ∨ a = .closeRx i) (hfull : s'.trySend i = some .full) : s.trySend i = some .full := by
  obtain ⟨t', ht', hstep⟩ := channel_step hs ht
  rw [trySend, ht', Option.map_some, Option.some_inj] at hfull
  rw [trySend, ht, Option.map_some, Option.some_inj]
  cases hstep with
  | same _ hqueue hopen =>
    rw [StreamTask.trySend_eq_full, hqueue, hopen] at hfull
    exact StreamTask.trySend_eq_full.2 hfull
  | client _ himp => exact himp hfull
  | push hto _ _ _ =>
    -- the client puts nothing on the channel
    rcases hclient with rfl | rfl <;> cases hto

/-- The hosts that are still to be pinged after a step. -/
def targetsAfter (s : GrpcSys) : GrpcOp → List (String × Nat)
  | .pingTargets => s.streams.pingTargets
  | .ping _ => s.heartbeat.targets.tail
  | _ => s.heartbeat.targets

private theorem targets_step (hs : s.step cfg a = some s') : s'.heartbeat.targets = s.targetsAfter a := by
  cases hop : a.heartbeat with
  | false =>
    rw [heartbeat_step hs hop]
    cases a with
    | pingTargets | ping requestId => cases hop
    | _ => rfl
  | true =>
    cases a with
    | tick now | reportStale | pingTargets | sleep =>
      simp only [step] at hs
      split at hs
      · rename_i hbeat
        obtain rfl := Option.some.inj hs
        simp [post, targetsAfter, hbeat, Heartbeat.targets]
      · cases hs
    | ping requestId =>
      simp only [step] at hs
      split at hs
      · rename_i hostId tx targets hbeat
        split at hs
        · obtain rfl := Option.some.inj hs
          rw [targetsAfter, hbeat]
          rfl
        · obtain rfl := Option.some.inj hs
          rw [targetsAfter, hbeat]
          rfl
        · cases hs
      · cases hs
    | _ => cases hop

/-! ### The hosts of a round -/

/-- The hosts are different ones, and their streams have tasks. -/
def Known (s : GrpcSys) (targets : List (String × Nat)) : Prop :=
  (targets.map Prod.fst).Nodup ∧ ∀ p ∈ targets, ∃ t, s.tasks[p.2]? = some t ∧ t.hostId = p.1

private theorem known_pingTargets (h : s.HandlesMatch) : s.Known s.streams.pingTargets := by
  constructor
  · have hkeys : s.streams.pingTargets.map Prod.fst = s.streams.map.keys := by
      simp [Streams.pingTargets, AList.keys, List.keys, Function.comp_def]
    rw [hkeys]
    exact s.streams.map.keys_nodup
  · intro p hp
    obtain ⟨e, he, rfl⟩ := List.mem_map.1 hp
    have hlook : s.streams.map.lookup e.1 = some e.2 := Dict.lookup_eq_some_iff_mem.2 he
    obtain ⟨t, ht, hhost, -⟩ := h e.1 ⟨e.2.tx, e.2.caps, e.2.advertisedCaps⟩ (by rw [Streams.get, hlook]; rfl)
    exact ⟨t, ht, hhost⟩

private theorem known_targetsAfter (h : s.HandlesMatch) (hk : s.Known s.heartbeat.targets) (a : GrpcOp) :
    s.Known (s.targetsAfter a) := by
  cases a with
  | pingTargets => exact known_pingTargets h
  | ping requestId =>
    exact ⟨hk.1.sublist ((List.tail_sublist _).map Prod.fst), fun p hp => hk.2 p (List.mem_of_mem_tail hp)⟩
  | _ => exact hk

private theorem known_step (h : s.HandlesMatch) (hk : s.Known s.heartbeat.targets) (hs : s.step cfg a = some s') :
    s'.Known s'.heartbeat.targets := by
  obtain ⟨hnodup, htasks⟩ := known_targetsAfter h hk a
  rw [targets_step hs]
  refine ⟨hnodup, fun p hp => ?_⟩
  obtain ⟨t, ht, hhost⟩ := htasks p hp
  obtain ⟨t', ht', hhost', -⟩ := task_step hs ht
  exact ⟨t', ht', hhost'.trans hhost⟩

/-! ### A heartbeat that is held -/

private theorem pinging_of_next (h : s.heartbeat.next = some i) :
    ∃ hostId targets, s.heartbeat = .pinging ((hostId, i) :: targets) := by
  cases hbeat : s.heartbeat with
  | pinging targets =>
    rw [hbeat] at h
    cases targets with
    | nil => cases h
    | cons p targets =>
      obtain rfl := Option.some.inj h
      exact ⟨p.1, targets, rfl⟩
  | _ =>
    rw [hbeat] at h
    cases h

/-- A heartbeat that is held takes no step. -/
private theorem step_of_heldBy (h : s.HeldBy i) (ha : a.heartbeat = true) : s.step cfg a = none := by
  obtain ⟨hnext, hfull⟩ := h
  obtain ⟨hostId, targets, hbeat⟩ := pinging_of_next hnext
  cases a with
  | tick now | reportStale | pingTargets | sleep => simp only [step, hbeat]
  | ping requestId => simp only [step, hbeat, hfull]
  | _ => cases ha

/-- It is held until the client of that stream takes a command or is gone. -/
theorem heldBy_step (h : s.HeldBy i) (ha : a ≠ .take i ∧ a ≠ .closeRx i) (hs : s.step cfg a = some s') :
    s'.HeldBy i ∧ s'.heartbeat = s.heartbeat := by
  have hop : a.heartbeat = false := by
    by_contra hop
    rw [step_of_heldBy h (Bool.not_eq_false _ ▸ hop)] at hs
    cases hs
  obtain ⟨t, ht, -⟩ := Option.map_eq_some_iff.1 h.2
  have hbeat := heartbeat_step hs hop
  exact ⟨⟨hbeat ▸ h.1, (full_step hs ht ha).2 (Or.inl h.2)⟩, hbeat⟩

/-- The next step of the heartbeat is enabled. -/
def Enabled (cfg : GrpcConfig) (s : GrpcSys) : Prop := ∃ op, op.heartbeat = true ∧ (s.step cfg op).isSome = true

private theorem enabled_iff (cfg : GrpcConfig) (hk : s.Known s.heartbeat.targets) :
    s.Enabled cfg ↔ ¬ ∃ i, s.HeldBy i := by
  constructor
  · rintro ⟨op, hop, hs⟩ ⟨i, hheld⟩
    rw [step_of_heldBy hheld hop] at hs
    cases hs
  · intro hfree
    cases hbeat : s.heartbeat with
    | waiting => exact ⟨.tick 0, rfl, by simp [step, hbeat]⟩
    | reporting hostIds =>
      cases hostIds with
      | nil => exact ⟨.pingTargets, rfl, by simp [step, hbeat]⟩
      | cons hostId hostIds => exact ⟨.reportStale, rfl, by simp [step, hbeat]⟩
    | pinging targets =>
      cases targets with
      | nil => exact ⟨.sleep, rfl, by simp [step, hbeat]⟩
      | cons p targets =>
        -- the stream of the next host has a task, so `send` waits, succeeds or fails
        obtain ⟨t, ht, -⟩ := hk.2 p (by rw [hbeat]; exact List.mem_cons_self ..)
        have hsend : s.trySend p.2 = some t.trySend := by rw [trySend, ht, Option.map_some]
        cases hres : t.trySend with
        | sent => exact ⟨.ping "", rfl, by simp [step, hbeat, hsend, hres]⟩
        | closed => exact ⟨.ping "", rfl, by simp [step, hbeat, hsend, hres]⟩
        | full => exact absurd ⟨p.2, by rw [hbeat]; rfl, by rw [hsend, hres]⟩ hfree

/-- The heartbeat turns to a stream whose channel is not full, and a command that is put on the channel of the stream
that it is about to ping leaves a place. -/
def FindsRoom (s : GrpcSys) : GrpcOp → Prop
  | .pingTargets => ∀ p ∈ s.streams.pingTargets.head?, s.trySend p.2 ≠ some .full
  | .ping _ => ∀ p ∈ s.heartbeat.targets.tail.head?, s.trySend p.2 ≠ some .full
  | .enqueue i _ => s.heartbeat.next = some i →
      ∀ t ∈ s.tasks[i]?, t.rxOpen = true → t.queue.length + 1 ≠ commandChannelCapacity
  | _ => True

/-- The stream after the one that is pinged is another one. -/
private theorem next_ne_of_known (hk : s.Known s.heartbeat.targets) {p : String × Nat}
    (hp : p ∈ s.heartbeat.targets.tail.head?) : s.heartbeat.next ≠ some p.2 := by
  intro hnext
  obtain ⟨hostId, targets, hbeat⟩ := pinging_of_next hnext
  have hmem : p ∈ targets := by
    rw [hbeat] at hp
    exact List.mem_of_mem_head? hp
  rw [hbeat] at hk
  obtain ⟨hnodup, htasks⟩ := hk
  obtain ⟨t, ht, hhost⟩ := htasks _ (List.mem_cons_self ..)
  obtain ⟨u, hu, hhost'⟩ := htasks _ (List.mem_cons_of_mem _ hmem)
  obtain rfl := Option.some.inj (ht.symm.trans hu)
  have hnot := (List.nodup_cons.1 hnodup).1
  rw [← hhost, hhost'] at hnot
  exact hnot (List.mem_map_of_mem hmem)

/-- A heartbeat that was not held is held after a step exactly if the channel of the stream that it turns to or that it
is about to ping was full or is full now. -/
private theorem held_step_iff (h : s.HandlesMatch) (hk : s.Known s.heartbeat.targets) (hfree : ¬ ∃ i, s.HeldBy i)
    (hs : s.step cfg a = some s') : (∃ i, s'.HeldBy i) ↔
      ∃ i, (s.targetsAfter a).head?.map Prod.snd = some i ∧ (s.trySend i = some .full ∨ s.Fills i a) := by
  have hnext : s'.heartbeat.next = (s.targetsAfter a).head?.map Prod.snd := by
    rw [Heartbeat.next, targets_step hs]
  rw [← hnext]
  refine exists_congr fun i => and_congr_right fun hi => ?_
  rw [hnext] at hi
  obtain ⟨p, hp, rfl⟩ := Option.map_eq_some_iff.1 hi
  obtain ⟨t, ht, -⟩ := (known_targetsAfter h hk a).2 p (List.mem_of_mem_head? hp)
  by_cases hclient : a = .take p.2 ∨ a = .closeRx p.2
  · -- the stream was about to be pinged before, so its channel was not full
    have hnot : s.trySend p.2 ≠ some .full := by
      intro hfull
      rcases hclient with rfl | rfl <;> exact hfree ⟨p.2, hi, hfull⟩
    refine iff_of_false (fun hfull => hnot (full_of_client hs ht hclient hfull)) (not_or.2 ⟨hnot, ?_⟩)
    rcases hclient with rfl | rfl <;> exact fun hfills => nomatch hfills.1
  · exact full_step hs ht (not_or.1 hclient)

private theorem free_step_iff (h : s.HandlesMatch) (hk : s.Known s.heartbeat.targets) (hfree : ¬ ∃ i, s.HeldBy i)
    (hs : s.step cfg a = some s') : (¬ ∃ i, s'.HeldBy i) ↔ s.FindsRoom a := by
  have hnofill : ∀ i, s.receiver a = none → ¬ s.Fills i a := by
    rintro i hnone ⟨hto, -⟩
    rw [hnone] at hto
    cases hto
  rw [held_step_iff h hk hfree hs]
  cases a with
  | pingTargets =>
    constructor
    · exact fun hno p hp hfull => hno ⟨p.2, Option.map_eq_some_iff.2 ⟨p, hp, rfl⟩, Or.inl hfull⟩
    · rintro hroom ⟨i, hi, hfull | hfills⟩
      · obtain ⟨p, hp, rfl⟩ := Option.map_eq_some_iff.1 hi
        exact hroom p hp hfull
      · exact hnofill i rfl hfills
  | ping requestId =>
    constructor
    · exact fun hno p hp hfull => hno ⟨p.2, Option.map_eq_some_iff.2 ⟨p, hp, rfl⟩, Or.inl hfull⟩
    · rintro hroom ⟨i, hi, hbad⟩
      obtain ⟨p, hp, rfl⟩ := Option.map_eq_some_iff.1 hi
      rcases hbad with hfull | ⟨hto, -⟩
      · exact hroom p hp hfull
      · exact next_ne_of_known hk hp hto
  | enqueue j msg =>
    constructor
    · intro hno hj t ht hopen hlast
      exact hno ⟨j, hj, Or.inr ⟨rfl, t, ht, hopen, hlast⟩⟩
    · rintro hroom ⟨i, hi, hfull | ⟨hto, t, ht, hopen, hlast⟩⟩
      · exact hfree ⟨i, hi, hfull⟩
      · obtain rfl := Option.some.inj hto
        exact hroom hi t ht hopen hlast
  | _ =>
    refine iff_of_true ?_ trivial
    rintro ⟨i, hi, hfull | hfills⟩
    · exact hfree ⟨i, hi, hfull⟩
    · exact hnofill i rfl hfills

end GrpcSys

namespace BridgeSys

variable {cfg : BridgeConfig} {s s' : BridgeSys} {a : BridgeOp}

/-- The heartbeat can take its next step without a step of the client of any stream. -/
def HeartbeatFree (cfg : BridgeConfig) (s : BridgeSys) : Prop :=
  ∃ tr s', (∀ a ∈ tr, a.client = false) ∧ run (step cfg) s tr = some s' ∧ s'.grpc.Enabled cfg.grpc

/-- Where a dispatch is about to send its command, it is a step that puts the command on the channel. -/
def FindsRoom (s : BridgeSys) : BridgeOp → Prop
  | .grpc op => s.grpc.FindsRoom op
  | .advance d _ => ∀ x msg rx tx, s.dispatches[d]? = some x → x.pc = .found msg rx tx →
      s.grpc.FindsRoom (.enqueue tx msg)
  | _ => True

/-- The heartbeat is held over every step but the two that the client of the stream takes. -/
theorem heldBy_step {i : Nat} (h : s.grpc.HeldBy i) (ha : a ≠ .grpc (.take i) ∧ a ≠ .grpc (.closeRx i))
    (hs : s.step cfg a = some s') : s'.grpc.HeldBy i ∧ s'.grpc.heartbeat = s.grpc.heartbeat := by
  rcases grpc_step hs with hsame | ⟨op, hop, hcause⟩
  · rw [hsame]
    exact ⟨h, rfl⟩
  · refine GrpcSys.heldBy_step h ?_ hop
    cases hcause with
    | own op hint => exact ⟨fun he => ha.1 (by rw [he]), fun he => ha.2 (by rw [he])⟩
    | _ => exact ⟨nofun, nofun⟩

/-- While the client of one stream neither takes a command nor goes, the heartbeat stays where it is. -/
private theorem heldBy_run {i : Nat} {tr : List BridgeOp} (h : s.grpc.HeldBy i)
    (htr : ∀ a ∈ tr, a ≠ .grpc (.take i) ∧ a ≠ .grpc (.closeRx i)) (hr : run (step cfg) s tr = some s') :
    s'.grpc.HeldBy i ∧ s'.grpc.heartbeat = s.grpc.heartbeat := by
  refine invariant (I := fun s₁ : BridgeSys => s₁.grpc.HeldBy i ∧ s₁.grpc.heartbeat = s.grpc.heartbeat)
    (fun s₁ a s₂ hI hP hs => ?_) ⟨h, rfl⟩ ((along_iff_forall_mem hr).2 htr) hr
  obtain ⟨hheld, hbeat⟩ := heldBy_step hI.1 hP hs
  exact ⟨hheld, hbeat.trans hI.2⟩

/-- What is known of the streams and of the hosts of a round. -/
def RoundKnown (s : BridgeSys) : Prop := s.grpc.HandlesMatch ∧ s.grpc.Known s.grpc.heartbeat.targets

private theorem roundKnown_init : RoundKnown init := ⟨GrpcSys.handlesMatch_init, List.nodup_nil, nofun⟩

private theorem roundKnown_step (h : s.RoundKnown) (hs : s.step cfg a = some s') : s'.RoundKnown := by
  rcases grpc_step hs with hsame | ⟨op, hop, -⟩
  · rw [RoundKnown, hsame]
    exact h
  · exact ⟨GrpcSys.handlesMatch_step h.1 hop, GrpcSys.known_step h.1 h.2 hop⟩

/-- Only a full channel takes the clients. -/
private theorem heartbeatFree_iff (h : s.RoundKnown) : s.HeartbeatFree cfg ↔ ¬ ∃ i, s.grpc.HeldBy i := by
  constructor
  · rintro ⟨tr, s', htr, hr, op, hop, hen⟩ ⟨i, hheld⟩
    have hheld' : s'.grpc.HeldBy i := by
      refine (heldBy_run hheld (fun a ha => ⟨?_, ?_⟩) hr).1
      · rintro rfl
        exact Bool.noConfusion (htr _ ha)
      · rintro rfl
        exact Bool.noConfusion (htr _ ha)
    rw [GrpcSys.step_of_heldBy hheld' hop] at hen
    cases hen
  · exact fun hfree => ⟨[], s, nofun, rfl, (GrpcSys.enabled_iff cfg.grpc h.2).2 hfree⟩

/-- A dispatch that has found the sender of its host puts its command on the channel if there is room, and does
nothing to the gRPC server else. -/
private theorem advance_found {d now : Nat} {x : Dispatch} {msg : ServerMsg} {rx tx : Nat}
    (hx : s.dispatches[d]? = some x) (hpc : x.pc = .found msg rx tx) (hs : s.step cfg (.advance d now) = some s') :
    s.grpc.step cfg.grpc (.enqueue tx msg) = some s'.grpc ∨
      (s.grpc.trySend tx ≠ some .sent ∧ s'.grpc = s.grpc) := by
  simp only [step, hx, Option.bind_some, advance, hpc] at hs
  split at hs
  · rename_i hsend
    obtain rfl := Option.some.inj hs
    exact Or.inl (by simp only [GrpcSys.step, hsend]; rfl)
  · rename_i hsend
    obtain rfl := Option.some.inj hs
    exact Or.inr ⟨by rw [hsend]; decide, rfl⟩
  · rename_i hne _
    obtain rfl := Option.some.inj hs
    exact Or.inr ⟨hne, rfl⟩

/-- A dispatch sends its command only from the stream that it has found. -/
private theorem advance_not_found {d now : Nat}
    (hx : ∀ x msg rx tx, s.dispatches[d]? = some x → x.pc ≠ .found msg rx tx)
    (hs : s.step cfg (.advance d now) = some s') : s'.grpc = s.grpc := by
  rcases grpc_step hs with hsame | ⟨op, -, hcause⟩
  · exact hsame
  · cases hcause with
    | sent d now x msg rx tx hd hpc => exact absurd hpc (hx x msg rx tx hd)

/-- The heartbeat stays free over a step exactly if the step finds room. -/
private theorem free_step_iff (h : s.RoundKnown) (hfree : ¬ ∃ i, s.grpc.HeldBy i) (hs : s.step cfg a = some s') :
    (¬ ∃ i, s'.grpc.HeldBy i) ↔ s.FindsRoom a := by
  have hgrpc : ∀ {op}, s.grpc.step cfg.grpc op = some s'.grpc → ((¬ ∃ i, s'.grpc.HeldBy i) ↔ s.grpc.FindsRoom op) :=
    fun hop => GrpcSys.free_step_iff h.1 h.2 hfree hop
  cases a with
  | grpc op =>
    simp only [step] at hs
    split at hs
    · cases hs
    · obtain ⟨grpc, hop, rfl⟩ := Option.map_eq_some_iff.1 hs
      exact GrpcSys.free_step_iff h.1 h.2 hfree hop
  | advance d now =>
    by_cases hfound : ∃ x msg rx tx, s.dispatches[d]? = some x ∧ x.pc = .found msg rx tx
    · obtain ⟨x, msg, rx, tx, hx, hpc⟩ := hfound
      have hroom : s.FindsRoom (.advance d now) ↔ s.grpc.FindsRoom (.enqueue tx msg) := by
        refine ⟨fun hall => hall x msg rx tx hx hpc, fun hone x' msg' rx' tx' hx' hpc' => ?_⟩
        obtain rfl := Option.some.inj (hx.symm.trans hx')
        rw [hpc] at hpc'
        cases hpc'
        exact hone
      rw [hroom]
      rcases advance_found hx hpc hs with hop | ⟨hnot, hsame⟩
      · exact hgrpc hop
      · -- a channel that takes nothing has no last place to take
        rw [hsame]
        refine iff_of_true hfree fun _ t ht hopen hlast => hnot ?_
        rw [GrpcSys.trySend, ht, Option.map_some, StreamTask.trySend_eq_sent.2 ⟨hopen, by omega⟩]
    · have hno : ∀ x msg rx tx, s.dispatches[d]? = some x → x.pc ≠ .found msg rx tx :=
        fun x msg rx tx hx hpc => hfound ⟨x, msg, rx, tx, hx, hpc⟩
      rw [advance_not_found hno hs]
      exact iff_of_true hfree fun x msg rx tx hx hpc => absurd hpc (hno x msg rx tx hx)
  | response i resp gen =>
    rcases grpc_step hs with hsame | ⟨op, hop, hcause⟩
    · rw [hsame]
      exact iff_of_true hfree trivial
    · cases hcause
      exact hgrpc hop
  | deliver i now =>
    rcases grpc_step hs with hsame | ⟨op, hop, hcause⟩
    · rw [hsame]
      exact iff_of_true hfree trivial
    · cases hcause
      exact hgrpc hop
  | dispatch env | timeout d | abandon d | drainSample now | finish removal =>
    rcases grpc_step hs with hsame | ⟨op, -, hcause⟩
    · rw [hsame]
      exact iff_of_true hfree trivial
    · cases hcause

/-- Over every interleaving of dispatches, stream tasks, clients and heartbeat, the heartbeat can take its next step
without the clients in every state of a run exactly when every step of the run finds room. -/
theorem heartbeatFree_run_iff (cfg : BridgeConfig) (tr : List BridgeOp) (s : BridgeSys)
    (hr : run (step cfg) init tr = some s) :
    Always (step cfg) (HeartbeatFree cfg) init tr ↔ Along (step cfg) FindsRoom init tr := by
  refine always_iff_along_of_along (I := RoundKnown) (fun _ _ _ _ h hs => roundKnown_step h hs) ?_
    (along_true init tr) roundKnown_init ?_ hr
  · intro s a s' _ h hfree hs
    rw [heartbeatFree_iff (roundKnown_step h hs)]
    exact free_step_iff h ((heartbeatFree_iff h).1 hfree) hs
  · rw [heartbeatFree_iff roundKnown_init]
    rintro ⟨i, hnext, -⟩
    cases hnext

/-! ### A host that does not drain -/

def drainingHost : Admission := ⟨"100.64.0.9", [], [], 100000⟩

def wedgedHost : Admission := ⟨"100.64.0.5", [], [], 100000⟩

def pingingConfig : BridgeConfig := ⟨⟨⟨none, none⟩, 120⟩, 4096, 30, fun _ => none⟩

/-- One host is pinged. -/
def oneRound : List BridgeOp :=
  [.grpc (.connect wedgedHost 0), .grpc (.tick 5), .grpc .pingTargets, .grpc (.ping "ping"), .grpc .sleep]

theorem heartbeatFree_oneRound :
    ∃ s, run (step pingingConfig) init oneRound = some s ∧
      Always (step pingingConfig) (HeartbeatFree pingingConfig) init oneRound := by
  refine ⟨_, rfl, (heartbeatFree_run_iff pingingConfig oneRound _ rfl).2 ?_⟩
  refine ⟨trivial, fun s₁ h₁ => ⟨trivial, fun s₂ h₂ => ⟨?_, fun s₃ h₃ => ⟨?_, fun s₄ _ => ?_⟩⟩⟩⟩
  · obtain rfl := Option.some.inj h₁
    obtain rfl := Option.some.inj h₂
    rintro p ⟨⟩
    decide
  · obtain rfl := Option.some.inj h₁
    obtain rfl := Option.some.inj h₂
    obtain rfl := Option.some.inj h₃
    exact nofun
  · exact ⟨trivial, fun _ _ => trivial⟩

/-- Both hosts are pinged, and the second one takes its ping. -/
def pingRound (k : Nat) : List BridgeOp :=
  [.grpc (.tick (fromSecs k)), .grpc .pingTargets, .grpc (.ping "ping"), .grpc (.ping "ping"), .grpc (.take 0),
    .grpc .sleep]

def pingMsg : ServerMsg := ⟨"ping", some .ping⟩

def bothStreams : Streams := (Streams.new.insert "100.64.0.9" ⟨0, [], []⟩ 0).insert "100.64.0.5" ⟨1, [], []⟩ 0

/-- The two hosts after `k` rounds. -/
def afterRounds (k : Nat) : BridgeSys :=
  { grpc :=
      { streams := bothStreams
        tasks := [{ StreamTask.new drainingHost with accepted := List.replicate k pingMsg },
          { StreamTask.new wedgedHost with queue := List.replicate k pingMsg, accepted := List.replicate k pingMsg }]
        permits := statusPublishConcurrency
        publishing := [⟨cooldStatusUpdate "100.64.0.9" "installed" "coold stream connected.", .connected 0, false⟩,
          ⟨cooldStatusUpdate "100.64.0.5" "installed" "coold stream connected.", .connected 1, false⟩]
        posted := []
        heartbeat := .waiting }
    pend := .init
    dispatches := [] }

private theorem run_connects :
    run (step pingingConfig) init [.grpc (.connect drainingHost 0), .grpc (.connect wedgedHost 0)] =
      some (afterRounds 0) :=
  rfl

private theorem markStale_of_fresh {streams : Streams} {now timeout : Nat}
    (h : ∀ e ∈ streams.map.entries, Streams.stale now timeout e.2 = false) :
    streams.markStale now timeout = ([], streams) := by
  have hnone : (streams.map.entries.filterMap fun e => if Streams.stale now timeout e.2 then some e.1 else none) = [] :=
    List.filterMap_eq_nil_iff.2 fun e he => by rw [h e he]; rfl
  have hsame : (streams.map.mapVal fun _ e =>
      if Streams.stale now timeout e then { e with reachable := false } else e) = streams.map := by
    refine AList.ext ((List.map_congr_left fun e he => ?_).trans (List.map_id _))
    simp only [h e he]
    rfl
  rw [Streams.markStale, hnone, hsame]
  rfl

private theorem markStale_bothStreams {k : Nat} (hk : k < 120) :
    bothStreams.markStale (fromSecs k) (fromSecs 120) = ([], bothStreams) := by
  have hrecent : ¬ fromSecs 120 ≤ fromSecs k - 0 := by
    unfold fromSecs
    omega
  refine markStale_of_fresh fun e he => ?_
  have hseen : ∀ e ∈ bothStreams.map.entries, e.2.lastSeenAt = 0 := by decide
  rw [Streams.stale, hseen e he, decide_eq_false hrecent, Bool.and_false]

/-- A round in which there is room in the channel of the first host. -/
private theorem run_pingRound {k : Nat} (hk : k < commandChannelCapacity) :
    run (step pingingConfig) (afterRounds k) (pingRound k) = some (afterRounds (k + 1)) := by
  have hroom : ¬ commandChannelCapacity ≤ k := Nat.not_le.2 hk
  have hstale : bothStreams.markStale (fromSecs k) (fromSecs 120) = ([], bothStreams) :=
    markStale_bothStreams (Nat.lt_trans hk (by decide))
  have htargets : bothStreams.pingTargets = [("100.64.0.5", 1), ("100.64.0.9", 0)] := rfl
  have hempty : ¬ commandChannelCapacity ≤ 0 := by decide
  simp [pingRound, run, step, GrpcOp.internal, GrpcSys.step, afterRounds, pingingConfig, hstale, htargets,
    GrpcSys.trySend, StreamTask.trySend, StreamTask.new, hroom, hempty, GrpcSys.modifyTask, StreamTask.push, pingMsg,
    List.replicate_succ']

/-- The second host drains its channel and the first one does not, until the channel of the first one is full. -/
def wedgedRun : List BridgeOp :=
  [.grpc (.connect drainingHost 0), .grpc (.connect wedgedHost 0)] ++
    ((List.range commandChannelCapacity).flatMap pingRound ++
      [.grpc (.tick (fromSecs commandChannelCapacity)), .grpc .pingTargets])

/-- The heartbeat is held by the first host before it has pinged the second one.  Whatever else happens, it stays there
until the client of the first host takes a command or is gone. -/
theorem heartbeat_wedged :
    ∃ s, run (step pingingConfig) init wedgedRun = some s ∧
      s.grpc.heartbeat = .pinging [("100.64.0.5", 1), ("100.64.0.9", 0)] ∧ ¬ s.HeartbeatFree pingingConfig ∧
      ∀ tr s', (∀ a ∈ tr, a ≠ .grpc (.take 1) ∧ a ≠ .grpc (.closeRx 1)) →
        run (step pingingConfig) s tr = some s' → s'.grpc.heartbeat = s.grpc.heartbeat := by
  have hrounds : ∀ n ≤ commandChannelCapacity,
      run (step pingingConfig) (afterRounds 0) ((List.range n).flatMap pingRound) = some (afterRounds n) := by
    intro n hn
    induction n with
    | zero => rfl
    | succ n ih =>
      rw [List.range_succ, List.flatMap_append, run_append_eq_some]
      refine ⟨afterRounds n, ih (Nat.le_of_succ_le hn), ?_⟩
      rw [List.flatMap_singleton]
      exact run_pingRound hn
  have hfull : run (step pingingConfig) (afterRounds commandChannelCapacity)
      [.grpc (.tick (fromSecs commandChannelCapacity)), .grpc .pingTargets] =
      some { afterRounds commandChannelCapacity with
        grpc := { (afterRounds commandChannelCapacity).grpc with heartbeat := .pinging bothStreams.pingTargets } } := by
    simp [run, step, GrpcOp.internal, GrpcSys.step, afterRounds, pingingConfig,
      markStale_bothStreams (show commandChannelCapacity < 120 by decide)]
  have hheld : GrpcSys.HeldBy
      { (afterRounds commandChannelCapacity).grpc with heartbeat := .pinging bothStreams.pingTargets } 1 := by
    refine ⟨rfl, ?_⟩
    simp [GrpcSys.trySend, afterRounds, StreamTask.trySend, StreamTask.new]
  have hr := run_append_eq_some.2 ⟨_, run_connects, run_append_eq_some.2 ⟨_, hrounds _ le_rfl, hfull⟩⟩
  refine ⟨_, hr, rfl, ?_, fun tr s' htr hr' => (heldBy_run hheld htr hr').2⟩
  have hknown : RoundKnown _ := invariant_of_step (fun _ _ _ h hs => roundKnown_step h hs) roundKnown_init hr
  rw [heartbeatFree_iff hknown]
  exact not_not_intro ⟨1, hheld⟩

end BridgeSys

end Coold.Flux
