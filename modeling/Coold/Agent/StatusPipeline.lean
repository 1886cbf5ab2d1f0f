import Coold.Agent.StatusSync
import Coold.Lib.Lts

/-!
# The way of a status update

Reconciliations put updates into a broadcast channel that keeps the last 256 of them for each receiver; a task of the
stream takes them from there into the channel of the stream, and from there they get to flux.  A receiver that falls
behind loses updates, a stream that breaks loses those on their way, and while nobody receives, nothing is sent at all.
For all this there is the resync flag: a stream that is opened and a receiver that has lost updates set it, and the
next reconciliation that takes it sends everything again.

The steps are those of `reconcile_once` up to the release of the snapshot lock, each update being one, and those of the
streams; any number of reconciliations may be under way.  `flux_sees_snapshot` says that the flag is enough: when
nothing is on its way and no resync is due, flux knows every container of the snapshot as the snapshot has it.
-/

namespace Coold.Agent.StatusPipeline

/-! ### The system -/

/-- What the broadcast channel keeps for a receiver. -/
def broadcastCapacity : Nat := 256

def channelCapacity : Nat := 64

/-- A receiver of the broadcast channel: what it has not taken yet, and whether it has lost updates before that. -/
structure Receiver where
  queue : List ResourceStatusUpdate
  lagged : Bool

def Receiver.push (rx : Receiver) (update : ResourceStatusUpdate) : Receiver :=
  let queue := rx.queue ++ [update]
  if broadcastCapacity < queue.length then ⟨queue.tail, true⟩ else { rx with queue }

/-- The stream is down; or it is being opened, with a receiver subscribed; or it is up, with the update that its
forwarder holds and what is in its channel. -/
inductive Stream where
  | down
  | opening (rx : Receiver)
  | up (rx : Receiver) (forwarding : Option ResourceStatusUpdate) (channel : List ResourceStatusUpdate)

/-- A reconciliation that has listed the containers, or taken the flag as well. -/
inductive Reconcile where
  | listed (allContainers : ContainerStatuses)
  | taken (allContainers : ContainerStatuses) (forceResync : Bool)

/-- The reconciliation that holds the lock of the snapshot, with the updates that it has not sent yet. -/
structure Locked where
  allContainers : ContainerStatuses
  todo : List ResourceStatusUpdate
  allEmitted : Bool

structure State where
  snapshot : ContainerStatuses
  resyncSignal : Bool
  reconciles : List Reconcile
  locked : Option Locked
  stream : Stream
  /-- The receivers of forwarders whose stream is gone. -/
  detached : Nat
  /-- What flux knows. -/
  view : View

def init : State where
  snapshot := .empty
  resyncSignal := false
  reconciles := []
  locked := none
  stream := .down
  detached := 0
  view := fun _ => none

inductive Label where
  | list (allContainers : ContainerStatuses)
  | take (n : Nat)
  | lock (n : Nat)
  | emit
  | unlock
  | subscribe
  | opened
  | openFailed
  /-- The forwarder asks for the next update. -/
  | recv
  | forward
  | deliver
  /-- The stream ends; its forwarder is aborted if it ended well. -/
  | broken (aborted : Bool)
  | detachedLags
  | detachedEnds

def Stream.push (update : ResourceStatusUpdate) : Stream → Stream
  | .down => .down
  | .opening rx => .opening (rx.push update)
  | .up rx forwarding channel => .up (rx.push update) forwarding channel

def Stream.receives : Stream → Bool
  | .down => false
  | _ => true

/-- The view after updates. -/
def applyUpdates (view : View) (updates : List ResourceStatusUpdate) : View :=
  Dict.applyUpdates view (updates.map fun u => (u.containerId, ResourceStatusUpdate.entry u))

section Step

variable (hostMgmtIp : String)

/-- Take the lock: the snapshot is cleared by a forced resync, and if there are no differences that is all. -/
def lock (s : State) (n : Nat) (allContainers : ContainerStatuses) (forceResync : Bool) : State :=
  let snapshot := baseline s.snapshot forceResync
  let deltas := diffContainerStatuses allContainers.map snapshot.map
  { s with
    snapshot
    reconciles := s.reconciles.eraseIdx n
    locked := if deltas.isEmpty then none
      else some ⟨allContainers, containerResourceStatusUpdatesFromDeltas hostMgmtIp deltas, true⟩ }

def step (s : State) : Label → Option State
  | .list allContainers => some { s with reconciles := s.reconciles ++ [.listed allContainers] }
  | .take n =>
    match s.reconciles[n]? with
    | some (.listed allContainers) =>
      some { s with resyncSignal := false, reconciles := s.reconciles.set n (.taken allContainers s.resyncSignal) }
    | _ => none
  | .lock n =>
    match s.locked, s.reconciles[n]? with
    | none, some (.taken allContainers forceResync) => some (lock hostMgmtIp s n allContainers forceResync)
    | _, _ => none
  | .emit =>
    match s.locked with
    | some ⟨allContainers, update :: todo, allEmitted⟩ =>
      let accepted := s.stream.receives || 0 < s.detached
      some { s with
        locked := some ⟨allContainers, todo, allEmitted && accepted⟩
        stream := s.stream.push update }
    | _ => none
  | .unlock =>
    match s.locked with
    | some ⟨allContainers, [], allEmitted⟩ =>
      some { s with locked := none, snapshot := if allEmitted then allContainers else s.snapshot }
    | _ => none
  | .subscribe =>
    match s.stream with
    | .down => some { s with stream := .opening ⟨[], false⟩ }
    | _ => none
  | .opened =>
    match s.stream with
    | .opening rx => some { s with stream := .up rx none [], resyncSignal := true }
    | _ => none
  | .openFailed =>
    match s.stream with
    | .opening _ => some { s with stream := .down }
    | _ => none
  | .recv =>
    match s.stream with
    | .up ⟨queue, true⟩ none channel => some { s with stream := .up ⟨queue, false⟩ none channel, resyncSignal := true }
    | .up ⟨update :: queue, false⟩ none channel =>
      some { s with stream := .up ⟨queue, false⟩ (some update) channel }
    | _ => none
  | .forward =>
    match s.stream with
    | .up rx (some update) channel =>
      if channel.length < channelCapacity then some { s with stream := .up rx none (channel ++ [update]) } else none
    | _ => none
  | .deliver =>
    match s.stream with
    | .up rx forwarding (update :: channel) =>
      some { s with stream := .up rx forwarding channel, view := applyUpdates s.view [update] }
    | _ => none
  | .broken aborted =>
    match s.stream with
    | .up _ _ _ => some { s with stream := .down, detached := if aborted then s.detached else s.detached + 1 }
    | _ => none
  | .detachedLags => if 0 < s.detached then some { s with resyncSignal := true } else none
  | .detachedEnds => if 0 < s.detached then some { s with detached := s.detached - 1 } else none

end Step

/-! ### What is due and what is coming -/

/-- What flux shows for a status. -/
def shown (status : ContainerStatus) : Option (String × String) :=
  if status.state = "removed" then none else some (status.containerName, status.state)

/-- A stream that is up and has lost nothing. -/
def Stream.Steady : Stream → Prop
  | .up rx _ _ => rx.lagged = false
  | _ => False

/-- Everything is going to be sent again: the flag is set, or a reconciliation has taken it, or it will be set. -/
def Due (s : State) : Prop :=
  s.resyncSignal = true ∨ (∃ all, Reconcile.taken all true ∈ s.reconciles) ∨ ¬ s.stream.Steady

/-- The updates on their way to flux, the next one first. -/
def Stream.inFlight : Stream → List ResourceStatusUpdate
  | .up rx forwarding channel => channel ++ forwarding.toList ++ rx.queue
  | _ => []

/-- What flux will know when they have arrived. -/
def coming (s : State) : View := applyUpdates s.view s.stream.inFlight

private theorem applyUpdates_append (view : View) (us vs : List ResourceStatusUpdate) :
    applyUpdates view (us ++ vs) = applyUpdates (applyUpdates view us) vs := by
  rw [applyUpdates, List.map_append, Dict.applyUpdates, List.foldl_append]
  rfl

/-- The last update is what counts for its container. -/
private theorem applyUpdates_concat (view : View) (us : List ResourceStatusUpdate) (u : ResourceStatusUpdate)
    (id : String) :
    applyUpdates view (us ++ [u]) id =
      if id = u.containerId then ResourceStatusUpdate.entry u else applyUpdates view us id := by
  rw [applyUpdates_append]
  show Function.update (applyUpdates view us) u.containerId (ResourceStatusUpdate.entry u) id = _
  rw [Function.update_apply]

/-- An update of a reconciliation says what it listed. -/
def Tells (allContainers : ContainerStatuses) (u : ResourceStatusUpdate) : Prop :=
  ∀ status, allContainers.map.lookup u.containerId = some status → ResourceStatusUpdate.entry u = shown status

/-- The reconciliation that holds the lock has told flux about every container that it listed, or is about to. -/
structure Locked.Telling (l : Locked) (view : View) : Prop where
  allEmitted : l.allEmitted = true
  told : ∀ id status, l.allContainers.map.lookup id = some status →
    (∃ u ∈ l.todo, u.containerId = id) ∨ view id = shown status

/-- Unless a resync is due, flux will know every container of the snapshot as it is there, and every container that the
holder of the lock listed, once it has been told. -/
structure InSync (s : State) : Prop where
  unlocked : s.locked = none → Due s ∨
    ∀ id status, s.snapshot.map.lookup id = some status → coming s id = shown status
  locked : ∀ l, s.locked = some l → Due s ∨ l.Telling (coming s)
  tells : ∀ l, s.locked = some l → ∀ u ∈ l.todo, Tells l.allContainers u

/-- A step of the streams: what is due stays due, and unless it is, what is coming stays. -/
private theorem InSync.of_stream {s s' : State} (hs : InSync s) (hsnapshot : s'.snapshot = s.snapshot)
    (hlocked : s'.locked = s.locked) (hdue : Due s → Due s') (hcoming : Due s' ∨ coming s' = coming s) :
    InSync s' where
  unlocked h := by
    rw [hlocked] at h
    rcases hcoming with hdue' | hcoming
    · exact Or.inl hdue'
    · rw [hsnapshot, hcoming]
      exact (hs.unlocked h).imp_left hdue
  locked l h := by
    rw [hlocked] at h
    rcases hcoming with hdue' | hcoming
    · exact Or.inl hdue'
    · rw [hcoming]
      exact (hs.locked l h).imp_left hdue
  tells l h := hs.tells l (hlocked ▸ h)

/-! ### The steps of the streams -/

private theorem not_steady_down : ¬ Stream.Steady .down := fun h => h

private theorem not_steady_opening (rx : Receiver) : ¬ Stream.Steady (.opening rx) := fun h => h

private theorem due_of_stream {s s' : State} (hflag : s.resyncSignal = true → s'.resyncSignal = true)
    (hreconciles : s'.reconciles = s.reconciles) (hsteady : s'.stream.Steady → s.stream.Steady) (h : Due s) :
    Due s' := by
  rcases h with h | ⟨all, h⟩ | h
  · exact Or.inl (hflag h)
  · exact Or.inr (Or.inl ⟨all, hreconciles ▸ h⟩)
  · exact Or.inr (Or.inr fun h' => h (hsteady h'))

private theorem inSync_recv {s s' : State} (hs : InSync s) {hostMgmtIp : String}
    (h : step hostMgmtIp s .recv = some s') :
    InSync s' := by
  simp only [step] at h
  split at h
  · rename_i queue channel hstream
    obtain rfl := Option.some.inj h
    exact hs.of_stream rfl rfl (fun _ => Or.inl rfl) (Or.inl (Or.inl rfl))
  · rename_i update queue channel hstream
    obtain rfl := Option.some.inj h
    refine hs.of_stream rfl rfl (due_of_stream id rfl fun _ => ?_) (Or.inr ?_)
    · rw [hstream]
      exact rfl
    · simp only [coming, hstream, Stream.inFlight, Option.toList_some, Option.toList_none, List.append_nil,
        List.append_assoc, List.singleton_append]
  · cases h

private theorem inSync_forward {s s' : State} (hs : InSync s) {hostMgmtIp : String}
    (h : step hostMgmtIp s .forward = some s') : InSync s' := by
  simp only [step] at h
  split at h
  · rename_i rx update channel hstream
    obtain ⟨-, ⟨⟩⟩ := Option.ite_none_right_eq_some.1 h
    refine hs.of_stream rfl rfl (due_of_stream id rfl fun hsteady => ?_) (Or.inr ?_)
    · rw [hstream]
      exact hsteady
    · simp only [coming, hstream, Stream.inFlight, Option.toList_some, Option.toList_none, List.append_nil]
  · cases h

private theorem inSync_deliver {s s' : State} (hs : InSync s) {hostMgmtIp : String}
    (h : step hostMgmtIp s .deliver = some s') : InSync s' := by
  simp only [step] at h
  split at h
  · rename_i rx forwarding update channel hstream
    obtain rfl := Option.some.inj h
    refine hs.of_stream rfl rfl (due_of_stream id rfl fun hsteady => ?_) (Or.inr ?_)
    · rw [hstream]
      exact hsteady
    · simp only [coming, hstream, Stream.inFlight, ← applyUpdates_append, List.cons_append, List.nil_append]
  · cases h

/-- A stream that goes down, or comes up, makes a resync due. -/
private theorem inSync_stream {s s' : State} (hs : InSync s) {hostMgmtIp : String} {a : Label}
    (ha : a = .subscribe ∨ a = .opened ∨ a = .openFailed ∨ (∃ aborted, a = .broken aborted) ∨ a = .detachedLags ∨
      a = .detachedEnds)
    (h : step hostMgmtIp s a = some s') : InSync s' := by
  rcases ha with rfl | rfl | rfl | ⟨aborted, rfl⟩ | rfl | rfl
  · simp only [step] at h
    split at h
    · obtain rfl := Option.some.inj h
      have hdue : Due { s with stream := .opening ⟨[], false⟩ } := Or.inr (Or.inr (not_steady_opening _))
      exact hs.of_stream rfl rfl (fun _ => hdue) (Or.inl hdue)
    · cases h
  · simp only [step] at h
    split at h
    · obtain rfl := Option.some.inj h
      exact hs.of_stream rfl rfl (fun _ => Or.inl rfl) (Or.inl (Or.inl rfl))
    · cases h
  · simp only [step] at h
    split at h
    · obtain rfl := Option.some.inj h
      have hdue : Due { s with stream := .down } := Or.inr (Or.inr not_steady_down)
      exact hs.of_stream rfl rfl (fun _ => hdue) (Or.inl hdue)
    · cases h
  · simp only [step] at h
    split at h
    · obtain rfl := Option.some.inj h
      have hdue : Due { s with stream := .down, detached := if aborted then s.detached else s.detached + 1 } :=
        Or.inr (Or.inr not_steady_down)
      exact hs.of_stream rfl rfl (fun _ => hdue) (Or.inl hdue)
    · cases h
  · obtain ⟨-, ⟨⟩⟩ := Option.ite_none_right_eq_some.1 h
    exact hs.of_stream rfl rfl (fun _ => Or.inl rfl) (Or.inl (Or.inl rfl))
  · obtain ⟨-, ⟨⟩⟩ := Option.ite_none_right_eq_some.1 h
    exact hs.of_stream rfl rfl (due_of_stream id rfl id) (Or.inr rfl)

/-! ### The steps of the reconciliations -/

private theorem inSync_list {s : State} (hs : InSync s) (all : ContainerStatuses) :
    InSync { s with reconciles := s.reconciles ++ [.listed all] } := by
  refine hs.of_stream rfl rfl ?_ (Or.inr rfl)
  rintro (h | ⟨all', h⟩ | h)
  · exact Or.inl h
  · exact Or.inr (Or.inl ⟨all', List.mem_append_left _ h⟩)
  · exact Or.inr (Or.inr h)

/-- What was due by the flag is due by the reconciliation that has taken it. -/
private theorem inSync_take {s s' : State} (hs : InSync s) {hostMgmtIp : String} {n : Nat}
    (h : step hostMgmtIp s (.take n) = some s') : InSync s' := by
  simp only [step] at h
  split at h
  · rename_i all hn
    obtain rfl := Option.some.inj h
    refine hs.of_stream rfl rfl ?_ (Or.inr rfl)
    have hlt : n < s.reconciles.length := (List.getElem?_eq_some_iff.1 hn).1
    rintro (hflag | ⟨all', hmem⟩ | hstream)
    · refine Or.inr (Or.inl ⟨all, ?_⟩)
      rw [hflag]
      exact List.mem_set hlt _
    · refine Or.inr (Or.inl ⟨all', ?_⟩)
      obtain ⟨k, hk, hget⟩ := List.mem_iff_getElem.1 hmem
      have hne : n ≠ k := by
        rintro rfl
        have hsome : s.reconciles[n]? = some (.taken all' true) := by rw [List.getElem?_eq_getElem hk, hget]
        rw [hn] at hsome
        cases hsome
      refine List.mem_iff_getElem.2 ⟨k, by rwa [List.length_set], ?_⟩
      exact (List.getElem_set_ne hne _).trans hget
    · exact Or.inr (Or.inr hstream)
  · cases h

/-- The differences speak of the containers that the baseline has otherwise, in the words of the list. -/
private theorem tells_of_deltas {all base : ContainerStatuses} {hostMgmtIp : String} {u : ResourceStatusUpdate}
    (h : u ∈ containerResourceStatusUpdatesFromDeltas hostMgmtIp (diffContainerStatuses all.map base.map)) :
    Tells all u := by
  intro status hstatus
  obtain ⟨delta, hdelta, rfl⟩ := List.mem_map.1 h
  rcases mem_diffContainerStatuses.1 hdelta with ⟨status', rfl, hall, -⟩ | ⟨id, status', rfl, -, hall⟩
  · obtain rfl : status' = status := Option.some.inj (hall.symm.trans hstatus)
    rfl
  · exact absurd (hall.symm.trans hstatus) (by simp)

/-- A container that the baseline does not have like that is among the differences. -/
private theorem told_of_deltas {all base : ContainerStatuses} (hostMgmtIp : String) {id : String}
    {status : ContainerStatus}
    (hall : all.map.lookup id = some status) (hbase : base.map.lookup id ≠ some status) :
    ∃ u ∈ containerResourceStatusUpdatesFromDeltas hostMgmtIp (diffContainerStatuses all.map base.map),
      u.containerId = id := by
  obtain rfl := all.keyed id status hall
  have hdelta : ContainerStatusDelta.upsert status ∈ diffContainerStatuses all.map base.map :=
    mem_diffContainerStatuses.2 (Or.inl ⟨status, rfl, hall, hbase⟩)
  exact ⟨_, List.mem_map_of_mem hdelta, rfl⟩

private theorem due_of_lock {s : State} {n : Nat} {all : ContainerStatuses} {hostMgmtIp : String}
    (hn : s.reconciles[n]? = some (.taken all false)) (h : Due s) : Due (lock hostMgmtIp s n all false) := by
  rcases h with hflag | ⟨all', hmem⟩ | hstream
  · exact Or.inl hflag
  · refine Or.inr (Or.inl ⟨all', ?_⟩)
    obtain ⟨k, hk, hget⟩ := List.mem_iff_getElem.1 hmem
    have hne : k ≠ n := by
      rintro rfl
      rw [List.getElem?_eq_getElem hk, hget] at hn
      cases Option.some.inj hn
    exact List.mem_eraseIdx_iff_getElem.2 ⟨k, hk, hne, hget⟩
  · exact Or.inr (Or.inr hstream)

/-- A reconciliation that takes the lock has everything to tell that flux does not know. -/
private theorem inSync_lock {s : State} (hs : InSync s) {hostMgmtIp : String} {n : Nat} {all : ContainerStatuses}
    {forceResync : Bool} (hlocked : s.locked = none) (hn : s.reconciles[n]? = some (.taken all forceResync)) :
    InSync (lock hostMgmtIp s n all forceResync) := by
  -- what flux will know of the containers in the baseline
  have hbase : Due (lock hostMgmtIp s n all forceResync) ∨ ∀ id status,
      (baseline s.snapshot forceResync).map.lookup id = some status → coming s id = shown status := by
    cases forceResync with
    | true => exact Or.inr fun id status h => absurd h (by simp [baseline, ContainerStatuses.empty])
    | false => exact (hs.unlocked hlocked).imp_left (due_of_lock hn)
  refine ⟨fun _ => hbase, fun l hl => ?_, fun l hl u hu => ?_⟩
  · refine hbase.imp_right fun hknown => ?_
    obtain ⟨-, ⟨⟩⟩ := Option.ite_none_left_eq_some.1 hl
    refine ⟨rfl, fun id status hall => ?_⟩
    by_cases hsame : (baseline s.snapshot forceResync).map.lookup id = some status
    · exact Or.inr (hknown id status hsame)
    · exact Or.inl (told_of_deltas hostMgmtIp hall hsame)
  · obtain ⟨-, ⟨⟩⟩ := Option.ite_none_left_eq_some.1 hl
    exact tells_of_deltas hu

/-- A receiver that loses nothing gets the update last. -/
private theorem push_of_not_lagged {rx : Receiver} {update : ResourceStatusUpdate}
    (h : (rx.push update).lagged = false) :
    rx.lagged = false ∧ (rx.push update).queue = rx.queue ++ [update] := by
  unfold Receiver.push at h ⊢
  simp only at h ⊢
  split at h
  · cases h
  · rename_i hroom
    rw [if_neg hroom]
    exact ⟨h, rfl⟩

/-- A stream that loses nothing carries the update last. -/
private theorem push_of_steady {stream : Stream} {update : ResourceStatusUpdate} (h : (stream.push update).Steady) :
    stream.Steady ∧ stream.receives = true ∧ (stream.push update).inFlight = stream.inFlight ++ [update] := by
  cases stream with
  | down => exact absurd h not_steady_down
  | opening rx => exact absurd h (not_steady_opening _)
  | up rx forwarding channel =>
    obtain ⟨hlagged, hqueue⟩ := push_of_not_lagged h
    refine ⟨hlagged, rfl, ?_⟩
    rw [Stream.push, Stream.inFlight, Stream.inFlight, hqueue, List.append_assoc _ rx.queue]

private theorem inSync_emit {s s' : State} (hs : InSync s) {hostMgmtIp : String}
    (h : step hostMgmtIp s .emit = some s') :
    InSync s' := by
  simp only [step] at h
  split at h
  · rename_i all update todo allEmitted hlocked
    obtain rfl := Option.some.inj h
    have htells := hs.tells _ hlocked
    refine ⟨fun hnone => absurd hnone (by simp), ?_, ?_⟩
    · rintro l hl
      obtain rfl := Option.some.inj hl
      by_cases hsteady : (s.stream.push update).Steady
      · obtain ⟨hbefore, hreceives, hinFlight⟩ := push_of_steady hsteady
        refine (hs.locked _ hlocked).imp ?_ fun htelling => ?_
        · rintro (hflag | htaken | hstream)
          · exact Or.inl hflag
          · exact Or.inr (Or.inl htaken)
          · exact absurd hbefore hstream
        · refine ⟨?_, fun id status hall => ?_⟩
          · show (allEmitted && (s.stream.receives || decide (0 < s.detached))) = true
            rw [hreceives, Bool.true_or, Bool.and_true]
            exact htelling.allEmitted
          · have hcoming : applyUpdates s.view (s.stream.push update).inFlight id =
                if id = update.containerId then ResourceStatusUpdate.entry update else coming s id := by
              rw [hinFlight, applyUpdates_concat]
              rfl
            show (∃ u ∈ todo, u.containerId = id) ∨ applyUpdates s.view (s.stream.push update).inFlight id = _
            rw [hcoming]
            by_cases hid : id = update.containerId
            · rw [if_pos hid]
              exact Or.inr (htells update List.mem_cons_self status (hid ▸ hall))
            · rw [if_neg hid]
              rcases htelling.told id status hall with ⟨u, hu, hid'⟩ | hknown
              · rcases List.mem_cons.1 hu with rfl | hu
                · exact absurd hid'.symm hid
                · exact Or.inl ⟨u, hu, hid'⟩
              · exact Or.inr hknown
      · exact Or.inl (Or.inr (Or.inr hsteady))
    · rintro l hl u hu
      obtain rfl := Option.some.inj hl
      exact htells u (List.mem_cons_of_mem update hu)
  · cases h

private theorem inSync_unlock {s s' : State} (hs : InSync s) {hostMgmtIp : String}
    (h : step hostMgmtIp s .unlock = some s') : InSync s' := by
  simp only [step] at h
  split at h
  · rename_i all allEmitted hlocked
    obtain rfl := Option.some.inj h
    refine ⟨fun _ => ?_, fun l hl => absurd hl (by simp), fun l hl => absurd hl (by simp)⟩
    refine (hs.locked _ hlocked).imp_right fun htelling id status hstatus => ?_
    have hall : all.map.lookup id = some status := by
      rwa [if_pos htelling.allEmitted] at hstatus
    rcases htelling.told id status hall with ⟨u, hu, -⟩ | hknown
    · exact absurd hu List.not_mem_nil
    · exact hknown
  · cases h

private theorem inSync_step {s s' : State} (hs : InSync s) {hostMgmtIp : String} {a : Label}
    (h : step hostMgmtIp s a = some s') : InSync s' := by
  cases a with
  | list all => exact Option.some.inj h ▸ inSync_list hs all
  | take n => exact inSync_take hs h
  | lock n =>
    simp only [step] at h
    split at h
    · rename_i all forceResync hlocked hn
      exact Option.some.inj h ▸ inSync_lock hs hlocked hn
    · cases h
  | emit => exact inSync_emit hs h
  | unlock => exact inSync_unlock hs h
  | recv => exact inSync_recv hs h
  | forward => exact inSync_forward hs h
  | deliver => exact inSync_deliver hs h
  | subscribe => exact inSync_stream hs (Or.inl rfl) h
  | opened => exact inSync_stream hs (Or.inr (Or.inl rfl)) h
  | openFailed => exact inSync_stream hs (Or.inr (Or.inr (Or.inl rfl))) h
  | broken aborted => exact inSync_stream hs (Or.inr (Or.inr (Or.inr (Or.inl ⟨aborted, rfl⟩)))) h
  | detachedLags => exact inSync_stream hs (Or.inr (Or.inr (Or.inr (Or.inr (Or.inl rfl))))) h
  | detachedEnds => exact inSync_stream hs (Or.inr (Or.inr (Or.inr (Or.inr (Or.inr rfl))))) h

private theorem inSync_init : InSync init where
  unlocked _ := Or.inl (Or.inr (Or.inr not_steady_down))
  locked l h := by cases h
  tells l h := by cases h

/-- After any run, with any number of reconciliations under way and however streams come, go, lag and break: when no
reconciliation holds the lock and no resync is due, flux knows every container of the snapshot as the snapshot has it,
once what is on its way has arrived. -/
theorem flux_sees_snapshot (hostMgmtIp : String) (labels : List Label) (s : State)
    (h : Lts.run (step hostMgmtIp) init labels = some s) (hlocked : s.locked = none) (hdue : ¬ Due s) :
    ∀ id status, s.snapshot.map.lookup id = some status →
      coming s id = shown status ∧ (s.stream.inFlight = [] → s.view id = shown status) := by
  have hsync : InSync s := Lts.invariant_of_step (fun _ _ _ hs hstep => inSync_step hs hstep) inSync_init h
  intro id status hstatus
  have hcoming := (hsync.unlocked hlocked).resolve_left hdue id status hstatus
  refine ⟨hcoming, fun hempty => ?_⟩
  rw [coming, hempty] at hcoming
  exact hcoming

/-- A container is listed before the first stream is up, and told by a second reconciliation. -/
def sampleLabels : List Label :=
  [.list webRunning, .take 0, .lock 0, .emit, .unlock, .subscribe, .opened, .list webRunning, .take 0, .lock 0,
    .emit, .unlock, .recv, .forward, .deliver]

def sampleEnd : State := (Lts.run (step "100.64.0.5") init sampleLabels).getD init

theorem flux_sees_snapshot_second : sampleEnd.view "abc" = some ("web", "running") := by
  have hdue : ¬ Due sampleEnd := by
    rintro (hflag | ⟨all, hmem⟩ | hstream)
    · exact absurd hflag (by decide)
    · exact absurd hmem List.not_mem_nil
    · exact hstream rfl
  exact (flux_sees_snapshot "100.64.0.5" sampleLabels sampleEnd rfl rfl hdue "abc"
    ⟨"abc", "web", "docker.io/library/nginx:alpine", "running"⟩ rfl).2 rfl

/-! ### One reconciliation without interruption -/

/-- The updates of the holder of the lock, one after the other. -/
private theorem run_emits {s : State} {hostMgmtIp : String} {all : ContainerStatuses} {todo : List ResourceStatusUpdate}
    {allEmitted : Bool} (h : s.locked = some ⟨all, todo, allEmitted⟩) : ∃ s',
    Lts.run (step hostMgmtIp) s (List.replicate todo.length .emit) = some s' ∧ s'.snapshot = s.snapshot ∧
      s'.locked = some ⟨all, [], allEmitted && (todo.isEmpty || s.stream.receives || decide (0 < s.detached))⟩ := by
  induction todo generalizing s allEmitted with
  | nil => exact ⟨s, rfl, rfl, by rw [h, List.isEmpty_nil, Bool.true_or, Bool.true_or, Bool.and_true]⟩
  | cons update todo ih =>
    obtain ⟨s₁, hs₁⟩ : ∃ s₁ : State, s₁ = { s with
        locked := some ⟨all, todo, allEmitted && (s.stream.receives || decide (0 < s.detached))⟩
        stream := s.stream.push update } := ⟨_, rfl⟩
    have hstep : step hostMgmtIp s .emit = some s₁ := by
      rw [hs₁]
      simp only [step, h]
    obtain ⟨s', hrun, hsnapshot, hlocked⟩ := ih (s := s₁) (by rw [hs₁])
    refine ⟨s', Lts.run_cons_eq_some.2 ⟨s₁, hstep, hrun⟩, ?_, ?_⟩
    · rw [hsnapshot, hs₁]
    · have hreceives : s₁.stream.receives = s.stream.receives := by
        rw [hs₁]
        cases s.stream <;> rfl
      have hdetached : s₁.detached = s.detached := by rw [hs₁]
      rw [hlocked, hreceives, hdetached]
      cases allEmitted <;> cases s.stream.receives <;> cases decide (0 < s.detached) <;> cases todo <;> rfl

/-- The lock, the updates and the release, with nothing in between, are `reconcileContainerStatusSnapshot`. -/
theorem run_reconcile {s : State} {hostMgmtIp : String} {n : Nat} {all : ContainerStatuses} {forceResync : Bool}
    (hlocked : s.locked = none) (hn : s.reconciles[n]? = some (.taken all forceResync)) :
    ∃ labels s', Lts.run (step hostMgmtIp) s (.lock n :: labels) = some s' ∧ s'.locked = none ∧
      s'.snapshot = (reconcileContainerStatusSnapshot s.snapshot all forceResync hostMgmtIp fun _ _ =>
        s.stream.receives || decide (0 < s.detached)).snapshot := by
  have hlock : step hostMgmtIp s (.lock n) = some (lock hostMgmtIp s n all forceResync) := by
    simp only [step, hlocked, hn]
  cases hdeltas : diffContainerStatuses all.map (baseline s.snapshot forceResync).map with
  | nil =>
    refine ⟨[], _, Lts.run_cons_eq_some.2 ⟨_, hlock, rfl⟩, ?_, ?_⟩
    · simp [lock, hdeltas]
    · simp [lock, reconcileContainerStatusSnapshot, hdeltas]
  | cons delta deltas =>
    have hheld : (lock hostMgmtIp s n all forceResync).locked =
        some ⟨all, containerResourceStatusUpdatesFromDeltas hostMgmtIp (delta :: deltas), true⟩ := by
      simp [lock, hdeltas]
    obtain ⟨s₁, hrun, hsnapshot, hlocked₁⟩ := run_emits hheld
    have hunlock : step hostMgmtIp s₁ .unlock = some { s₁ with
        locked := none
        snapshot := if s.stream.receives || decide (0 < s.detached) then all else s₁.snapshot } := by
      simp only [step, hlocked₁, containerResourceStatusUpdatesFromDeltas]
      rfl
    refine ⟨_ ++ [.unlock], _, Lts.run_cons_eq_some.2 ⟨_, hlock, Lts.run_append_eq_some.2 ⟨s₁, hrun,
      Lts.run_cons_eq_some.2 ⟨_, hunlock, rfl⟩⟩⟩, rfl, ?_⟩
    simp only [reconcileContainerStatusSnapshot, hdeltas, List.isEmpty_cons, hsnapshot]
    cases hreceives : s.stream.receives || decide (0 < s.detached) with
    | true =>
      rw [if_pos rfl, if_neg (by simp), if_pos (by simp [List.mem_mapIdx])]
    | false =>
      rw [if_neg (by simp), if_neg (by simp), if_neg (by simp [containerResourceStatusUpdatesFromDeltas])]
      rfl

end Coold.Agent.StatusPipeline
