import Coold.Agent.Model
import Coold.Proto

/-!
# Container-status reconciliation

`reconcileContainerStatusSnapshot` compares the containers Podman reports with the snapshot of what was last sent,
emits one update for every difference and replaces the snapshot when every update was accepted; a forced resync
clears the snapshot first.  The receiver folds the accepted updates into its own view.

The result of the module says exactly when every fully accepted call of a run leaves the receiver with the truth, in
terms of what the calls are given and how `emit` answers.  Between two fully accepted calls the sender goes by the
statuses of the first of them, or by nothing at all once a resync was asked for (`remembered`).  The receiver goes by
the last update of each container that was accepted (`told`).  A call is in step when the two agree on the containers
that it does not report: a container that is gone when a resync clears the snapshot is not among those that are
reported, and neither is one that is back in its old state after a batch that was accepted in part.
-/

namespace Coold.Agent

/-- The update of one delta. -/
def resourceStatusUpdateOfDelta (hostMgmtIp : String) : ContainerStatusDelta → ResourceStatusUpdate
  | .upsert status =>
    { resourceType := "container"
      hostId := hostMgmtIp
      containerId := status.containerId
      containerName := status.containerName
      status := status.state
      statusMessage := "Container state received from coold." }
  | .delete containerId =>
    { resourceType := "container"
      hostId := hostMgmtIp
      containerId := containerId
      containerName := ""
      status := "removed"
      statusMessage := "Container removed from coold host." }

def containerResourceStatusUpdatesFromDeltas (hostMgmtIp : String) (deltas : List ContainerStatusDelta) :
    List ResourceStatusUpdate :=
  deltas.map (resourceStatusUpdateOfDelta hostMgmtIp)

/-- What a reconciliation leaves behind: the snapshot, the deltas it returns, and every update it passed to `emit`
with the outcome. -/
structure Reconciled where
  snapshot : ContainerStatuses
  deltas : List ContainerStatusDelta
  emitted : List (ResourceStatusUpdate × Bool)

/-- The baseline of the diff: empty after a forced resync. -/
def baseline (snapshot : ContainerStatuses) (forceResync : Bool) : ContainerStatuses :=
  if forceResync then .empty else snapshot

/-- `emit n update` is what the `n`-th call of the `emit` closure returns. -/
def reconcileContainerStatusSnapshot (snapshot allContainers : ContainerStatuses) (forceResync : Bool)
    (hostMgmtIp : String) (emit : Nat → ResourceStatusUpdate → Bool) : Reconciled :=
  let snapshot := baseline snapshot forceResync
  let deltas := diffContainerStatuses allContainers.map snapshot.map
  if deltas.isEmpty then
    { snapshot := snapshot, deltas := deltas, emitted := [] }
  else
    let emitted := (containerResourceStatusUpdatesFromDeltas hostMgmtIp deltas).mapIdx
      fun n update => (update, emit n update)
    { snapshot := if emitted.all Prod.snd then allContainers else snapshot
      deltas := deltas
      emitted := emitted }

/-! ### The receiver -/

/-- The receiver's view: name and status of every container it knows. -/
abbrev View := String → Option (String × String)

/-- What an accepted update says about its container. -/
def ResourceStatusUpdate.entry (update : ResourceStatusUpdate) : Option (String × String) :=
  if update.status = "removed" then none else some (update.containerName, update.status)

/-- The view after the accepted ones among a call's updates. -/
def receive (view : View) (emitted : List (ResourceStatusUpdate × Bool)) : View :=
  Dict.applyUpdates view ((emitted.filter Prod.snd).map fun e => (e.1.containerId, ResourceStatusUpdate.entry e.1))

/-- The view a receiver should have of the containers on the host. -/
def ContainerStatuses.view (statuses : ContainerStatuses) : View :=
  fun id => (statuses.map.lookup id).map fun status => (status.containerName, status.state)

/-! ### Runs -/

/-- One reconciliation: what Podman reports, whether a resync was requested, and how `emit` answers each update. -/
structure Call where
  allContainers : ContainerStatuses
  forceResync : Bool
  hostMgmtIp : String
  emit : ResourceStatusUpdate → Bool

structure SyncState where
  snapshot : ContainerStatuses
  view : View

namespace SyncState

def init : SyncState := ⟨.empty, fun _ => none⟩

def reconciled (s : SyncState) (call : Call) : Reconciled :=
  reconcileContainerStatusSnapshot s.snapshot call.allContainers call.forceResync call.hostMgmtIp
    fun _ update => call.emit update

def step (s : SyncState) (call : Call) : SyncState :=
  ⟨(s.reconciled call).snapshot, receive s.view (s.reconciled call).emitted⟩

/-- The state after a list of calls. -/
def after (calls : List Call) : SyncState := calls.foldl step init

/-- Every update of the call was accepted; a call that emits nothing counts. -/
def AllEmitted (s : SyncState) (call : Call) : Prop := ∀ e ∈ (s.reconciled call).emitted, e.2 = true

end SyncState

private theorem nodup_containerId (hostMgmtIp : String) (desired current : ContainerStatuses) :
    ((containerResourceStatusUpdatesFromDeltas hostMgmtIp (diffContainerStatuses desired.map current.map)).map
      ResourceStatusUpdate.containerId).Nodup := by
  have hids := nodup_diffContainerStatuses desired current
  rw [containerResourceStatusUpdatesFromDeltas, List.map_map]
  convert hids using 2
  funext d
  cases d <;> rfl

/-- A call emits no update twice, so how `emit` answers may as well depend on the update alone. -/
theorem exists_emit_of_update (snapshot allContainers : ContainerStatuses) (forceResync : Bool) (hostMgmtIp : String)
    (emit : Nat → ResourceStatusUpdate → Bool) : ∃ emit' : ResourceStatusUpdate → Bool,
      reconcileContainerStatusSnapshot snapshot allContainers forceResync hostMgmtIp emit =
        reconcileContainerStatusSnapshot snapshot allContainers forceResync hostMgmtIp fun _ => emit' := by
  obtain ⟨updates, hupdates⟩ : ∃ updates, updates = containerResourceStatusUpdatesFromDeltas hostMgmtIp
      (diffContainerStatuses allContainers.map (baseline snapshot forceResync).map) := ⟨_, rfl⟩
  have hnd : updates.Nodup := by
    rw [hupdates]
    exact List.Nodup.of_map ResourceStatusUpdate.containerId (nodup_containerId _ _ _)
  have hidx : (updates.mapIdx fun n update => (update, emit n update)) =
      updates.mapIdx fun _ update => (update, emit (updates.idxOf update) update) := by
    apply List.ext_getElem (by simp)
    intro n h₁ h₂
    have hn : n < updates.length := by simpa using h₁
    simp only [List.getElem_mapIdx, hnd.idxOf_getElem n hn]
  refine ⟨fun update => emit (updates.idxOf update) update, ?_⟩
  simp only [reconcileContainerStatusSnapshot, ← hupdates, hidx]

/-! ### What a call reports -/

/-- What the sender goes by for a container, with the calls since the last fully accepted one, newest first: nothing
once a resync was asked for, else what that last call was given. -/
def remembered (last : ContainerStatuses) (calls : List Call) (id : String) : Option ContainerStatus :=
  if calls.any Call.forceResync then none else last.map.lookup id

namespace Call

variable (last : ContainerStatuses) (since : List Call) (call : Call)

/-- What Podman reports of a container. -/
def truth (id : String) : Option ContainerStatus := call.allContainers.map.lookup id

/-- The update that reports what became of a container. -/
def update (id : String) : ResourceStatusUpdate :=
  resourceStatusUpdateOfDelta call.hostMgmtIp (((call.truth id).map .upsert).getD (.delete id))

/-- The call finds another status than the sender remembers, and reports the container. -/
def Reports (id : String) : Prop := call.truth id ≠ remembered last (call :: since) id

instance (id : String) : Decidable (call.Reports last since id) := by unfold Reports; infer_instance

/-- Every update of the call is accepted. -/
def Accepted : Prop := ∀ id, call.Reports last since id → call.emit (call.update id) = true

end Call

/-- What the receiver goes by for a container: the last report of it that was accepted, of the calls since the last
fully accepted one, newest first; else what that last call was given. -/
def told (last : ContainerStatuses) (id : String) : List Call → Option (String × String)
  | [] => last.view id
  | call :: since =>
    if call.Reports last since id ∧ call.emit (call.update id) = true then ResourceStatusUpdate.entry (call.update id)
    else told last id since

/-- `last` is what the last fully accepted call was given, nothing before the first one, and `since` are the calls
after it, newest first. -/
inductive Since : List Call → ContainerStatuses → List Call → Prop
  | start : Since [] .empty []
  | accepted {pre last since call} (h : Since pre last since) (hall : call.Accepted last since) :
    Since (pre ++ [call]) call.allContainers []
  | refused {pre last since call} (h : Since pre last since) (hnot : ¬ call.Accepted last since) :
    Since (pre ++ [call]) last (call :: since)

/-- The receiver was told the truth about every container that the call does not report, and no container that the
call reports has the reserved status `removed`. -/
structure Call.InStep (last : ContainerStatuses) (since : List Call) (call : Call) : Prop where
  skipped : ∀ id, ¬ call.Reports last since id → told last id since = call.allContainers.view id
  sent : ∀ id status, call.Reports last since id → call.truth id = some status → status.state ≠ "removed"

/-! ### One call -/

section Step

variable {s : SyncState} {call : Call}

/-- The updates of a call. -/
private def callUpdates (s : SyncState) (call : Call) : List ResourceStatusUpdate :=
  containerResourceStatusUpdatesFromDeltas call.hostMgmtIp
    (diffContainerStatuses call.allContainers.map (baseline s.snapshot call.forceResync).map)

private theorem emitted_reconciled (s : SyncState) (call : Call) :
    (s.reconciled call).emitted = (callUpdates s call).map fun update => (update, call.emit update) := by
  unfold SyncState.reconciled reconcileContainerStatusSnapshot callUpdates
  by_cases he : diffContainerStatuses call.allContainers.map (baseline s.snapshot call.forceResync).map = []
  · simp [he, containerResourceStatusUpdatesFromDeltas]
  · simp only [List.isEmpty_iff, he, if_false]
    apply List.ext_getElem (by simp)
    intro n _ _
    simp

private theorem containerId_update (call : Call) (id : String) : (call.update id).containerId = id := by
  unfold Call.update
  cases ht : call.truth id with
  | none => rfl
  | some status => exact call.allContainers.keyed id status ht

/-- A call has an update for exactly the containers whose status is another one than in its baseline. -/
private theorem mem_callUpdates {update : ResourceStatusUpdate} : update ∈ callUpdates s call ↔
    ∃ id, call.truth id ≠ (baseline s.snapshot call.forceResync).map.lookup id ∧ update = call.update id := by
  rw [callUpdates, containerResourceStatusUpdatesFromDeltas, List.mem_map]
  constructor
  · rintro ⟨d, hd, rfl⟩
    rcases mem_diffContainerStatuses.1 hd with ⟨status, rfl, ht, hb⟩ | ⟨id, status, rfl, hb, ht⟩
    · refine ⟨status.containerId, fun he => hb (he.symm.trans ht), ?_⟩
      rw [Call.update, Call.truth, ht]
      rfl
    · refine ⟨id, ?_, ?_⟩
      · rw [Call.truth, ht, hb]
        simp
      · rw [Call.update, Call.truth, ht]
        rfl
  · rintro ⟨id, hne, rfl⟩
    cases ht : call.truth id with
    | some status =>
      have hid := call.allContainers.keyed id status ht
      refine ⟨.upsert status, mem_diffContainerStatuses.2 (Or.inl ⟨status, rfl, ?_, ?_⟩), ?_⟩
      · rw [hid]
        exact ht
      · rw [hid]
        exact fun hb => hne (ht.trans hb.symm)
      · rw [Call.update, ht]
        rfl
    | none =>
      rw [ht] at hne
      obtain ⟨status, hb⟩ := Option.ne_none_iff_exists'.1 hne.symm
      refine ⟨.delete id, mem_diffContainerStatuses.2 (Or.inr ⟨id, status, rfl, hb, ht⟩), ?_⟩
      rw [Call.update, ht]
      rfl

private theorem allEmitted_iff : s.AllEmitted call ↔ ∀ id,
    call.truth id ≠ (baseline s.snapshot call.forceResync).map.lookup id → call.emit (call.update id) = true := by
  rw [SyncState.AllEmitted, emitted_reconciled]
  constructor
  · intro h id hne
    exact h _ (List.mem_map.2 ⟨call.update id, mem_callUpdates.2 ⟨id, hne, rfl⟩, rfl⟩)
  · intro h e he
    obtain ⟨update, hmem, rfl⟩ := List.mem_map.1 he
    obtain ⟨id, hne, rfl⟩ := mem_callUpdates.1 hmem
    exact h id hne

/-- The snapshot becomes what the call was given when every update was accepted, and stays what the call started
from otherwise. -/
private theorem lookup_snapshot_step (s : SyncState) (call : Call) (id : String) :
    (s.AllEmitted call → (s.step call).snapshot.map.lookup id = call.truth id) ∧
      (¬ s.AllEmitted call → (s.step call).snapshot.map.lookup id =
        (baseline s.snapshot call.forceResync).map.lookup id) := by
  have hall : s.AllEmitted call ↔ (s.reconciled call).emitted.all Prod.snd = true := List.all_eq_true.symm
  rw [hall]
  show (_ → (s.reconciled call).snapshot.map.lookup id = _) ∧ (_ → (s.reconciled call).snapshot.map.lookup id = _)
  unfold SyncState.reconciled reconcileContainerStatusSnapshot
  by_cases he : diffContainerStatuses call.allContainers.map (baseline s.snapshot call.forceResync).map = []
  · simp only [he, List.isEmpty_nil, if_true]
    exact ⟨fun _ => (Dict.diff_eq_nil_iff.1 he id).symm, fun _ => trivial⟩
  · simp only [List.isEmpty_iff, he, if_false]
    constructor
    · intro h
      rw [if_pos h]
      rfl
    · intro h
      rw [if_neg h]

/-- After a call the receiver goes by the update of a container that was reported and accepted, and by what it had
before for the others. -/
private theorem view_step_apply (s : SyncState) (call : Call) (id : String) :
    (s.step call).view id =
      if call.truth id ≠ (baseline s.snapshot call.forceResync).map.lookup id ∧ call.emit (call.update id) = true
      then ResourceStatusUpdate.entry (call.update id) else s.view id := by
  have hview : (s.step call).view = Dict.applyUpdates s.view (((callUpdates s call).filter call.emit).map
      fun update => (update.containerId, ResourceStatusUpdate.entry update)) := by
    show receive s.view (s.reconciled call).emitted = _
    rw [emitted_reconciled, receive, List.filter_map, List.map_map]
    rfl
  have hnd : ((((callUpdates s call).filter call.emit).map
      fun update => (update.containerId, ResourceStatusUpdate.entry update)).map Prod.fst).Nodup := by
    rw [List.map_map]
    exact (nodup_containerId call.hostMgmtIp _ _).sublist (List.filter_sublist.map _)
  rw [hview]
  split
  · rename_i h
    refine Dict.applyUpdates_of_mem s.view hnd (List.mem_map.2 ⟨call.update id, ?_, ?_⟩)
    · exact List.mem_filter.2 ⟨mem_callUpdates.2 ⟨id, h.1, rfl⟩, h.2⟩
    · rw [containerId_update]
  · rename_i h
    refine Dict.applyUpdates_of_notMem s.view fun hmem => h ?_
    rw [List.map_map, List.mem_map] at hmem
    obtain ⟨update, hmem, hid⟩ := hmem
    obtain ⟨hmem, hemit⟩ := List.mem_filter.1 hmem
    obtain ⟨id', hne, rfl⟩ := mem_callUpdates.1 hmem
    obtain rfl : id' = id := (containerId_update call id').symm.trans hid
    exact ⟨hne, hemit⟩

end Step

/-! ### A run -/

private theorem after_concat (pre : List Call) (call : Call) :
    SyncState.after (pre ++ [call]) = (SyncState.after pre).step call := List.foldl_concat ..

/-- Every list of calls has a last fully accepted one, or none. -/
private theorem exists_since (pre : List Call) : ∃ last since, Since pre last since := by
  induction pre using List.reverseRecOn with
  | nil => exact ⟨_, _, .start⟩
  | append_singleton pre call ih =>
    obtain ⟨last, since, h⟩ := ih
    by_cases hall : call.Accepted last since
    · exact ⟨_, _, .accepted h hall⟩
    · exact ⟨_, _, .refused h hall⟩

/-- What a call starts from, when the snapshot is what the sender remembers. -/
private theorem lookup_baseline {s : SyncState} {last : ContainerStatuses} {since : List Call}
    (h : ∀ id, s.snapshot.map.lookup id = remembered last since id) (call : Call) (id : String) :
    (baseline s.snapshot call.forceResync).map.lookup id = remembered last (call :: since) id := by
  rw [remembered, List.any_cons]
  cases hr : call.forceResync with
  | true => rfl
  | false => exact h id

private theorem allEmitted_iff_accepted {s : SyncState} {last : ContainerStatuses} {since : List Call} {call : Call}
    (h : ∀ id, s.snapshot.map.lookup id = remembered last since id) :
    s.AllEmitted call ↔ call.Accepted last since := by
  simp only [allEmitted_iff, lookup_baseline h, Call.Accepted, Call.Reports]

/-- The snapshot holds what the sender remembers. -/
private theorem lookup_snapshot {pre : List Call} {last : ContainerStatuses} {since : List Call}
    (h : Since pre last since) (id : String) :
    (SyncState.after pre).snapshot.map.lookup id = remembered last since id := by
  induction h generalizing id with
  | start => rfl
  | @accepted pre last since call h hall ih =>
    rw [after_concat, (lookup_snapshot_step _ call id).1 ((allEmitted_iff_accepted ih).2 hall)]
    rfl
  | @refused pre last since call h hnot ih =>
    rw [after_concat, (lookup_snapshot_step _ call id).2 (fun hall => hnot ((allEmitted_iff_accepted ih).1 hall)),
      lookup_baseline ih]

/-- What a call makes of the receiver's view, in a run. -/
private theorem view_after_concat {pre : List Call} {last : ContainerStatuses} {since : List Call}
    (h : Since pre last since) (call : Call) (id : String) :
    (SyncState.after (pre ++ [call])).view id =
      if call.Reports last since id ∧ call.emit (call.update id) = true
      then ResourceStatusUpdate.entry (call.update id) else (SyncState.after pre).view id := by
  rw [after_concat, view_step_apply, lookup_baseline (lookup_snapshot h)]
  rfl

/-- After every call of the run whose updates were all accepted, the receiver has the truth of that call. -/
def Converges (calls : List Call) : Prop :=
  ∀ pre call post, calls = pre ++ call :: post → (SyncState.after pre).AllEmitted call →
    (SyncState.after (pre ++ [call])).view = call.allContainers.view

private theorem Converges.init {pre : List Call} {call : Call} (h : Converges (pre ++ [call])) : Converges pre := by
  intro pre' call' post heq
  exact h pre' call' (post ++ [call]) (by rw [heq, List.append_assoc, List.cons_append])

/-- As long as the run converges, the receiver goes by what it was told. -/
private theorem view_eq_told {pre : List Call} {last : ContainerStatuses} {since : List Call}
    (h : Since pre last since) (hconv : Converges pre) (id : String) :
    (SyncState.after pre).view id = told last id since := by
  induction h with
  | start => rfl
  | @accepted pre last since call h hall =>
    rw [hconv pre call [] rfl ((allEmitted_iff_accepted (lookup_snapshot h)).2 hall)]
    rfl
  | @refused pre last since call h hnot ih =>
    rw [view_after_concat h, ih hconv.init, told]

/-- The entry of an update that is accepted, against the truth of its call. -/
private theorem entry_update_iff (call : Call) (id : String) :
    ResourceStatusUpdate.entry (call.update id) = call.allContainers.view id ↔
      ∀ status, call.truth id = some status → status.state ≠ "removed" := by
  have hview : call.allContainers.view id =
      (call.truth id).map fun status => (status.containerName, status.state) := rfl
  rw [hview, Call.update]
  cases call.truth id with
  | none => simp [resourceStatusUpdateOfDelta, ResourceStatusUpdate.entry]
  | some status =>
    by_cases hr : status.state = "removed"
    · simp [resourceStatusUpdateOfDelta, ResourceStatusUpdate.entry, hr]
    · simp [resourceStatusUpdateOfDelta, ResourceStatusUpdate.entry, hr]

/-- A fully accepted call of a run that converged so far leaves the truth exactly when it is in step. -/
private theorem view_after_iff {pre : List Call} {last : ContainerStatuses} {since : List Call} {call : Call}
    (h : Since pre last since) (hconv : Converges pre) (hall : call.Accepted last since) :
    (SyncState.after (pre ++ [call])).view = call.allContainers.view ↔ call.InStep last since := by
  rw [funext_iff]
  simp only [view_after_concat h, view_eq_told h hconv]
  constructor
  · intro hv
    refine ⟨fun id hr => ?_, fun id status hr => ?_⟩
    · have := hv id
      rwa [if_neg (fun hc => hr hc.1)] at this
    · have := hv id
      rw [if_pos ⟨hr, hall id hr⟩] at this
      exact (entry_update_iff call id).1 this status
  · intro hs id
    by_cases hr : call.Reports last since id
    · rw [if_pos ⟨hr, hall id hr⟩]
      exact (entry_update_iff call id).2 fun status => hs.sent id status hr
    · rw [if_neg (fun hc => hr hc.1)]
      exact hs.skipped id hr

/-- Convergence of the receiver: it holds along a run exactly when every call of the run whose updates are all
accepted is in step with the calls before it. -/
theorem reports_converge_iff (calls : List Call) :
    Converges calls ↔ ∀ pre call post last since, calls = pre ++ call :: post → Since pre last since →
      call.Accepted last since → call.InStep last since := by
  constructor
  · intro hconv pre call post last since heq h hall
    have hpre : Converges pre := fun pre' call' post' heq' =>
      hconv pre' call' (post' ++ call :: post) (by rw [heq, heq', List.append_assoc, List.cons_append])
    exact (view_after_iff h hpre hall).1
      (hconv pre call post heq ((allEmitted_iff_accepted (lookup_snapshot h)).2 hall))
  · intro hstep
    -- by induction on the calls up to the last one that is looked at
    have key : ∀ pre post, calls = pre ++ post → Converges pre := by
      intro pre
      induction pre using List.reverseRecOn with
      | nil =>
        intro _ _ pre' call' post' heq
        simp at heq
      | append_singleton pre call ih =>
        intro post heq
        have heq' : calls = pre ++ call :: post := by rw [heq, List.append_assoc, List.singleton_append]
        have hpre := ih (call :: post) heq'
        intro pre' call' post' heq'' hemit
        rcases List.eq_nil_or_concat post' with rfl | ⟨post', call'', rfl⟩
        · obtain ⟨rfl, hcall⟩ := List.append_inj' heq'' rfl
          obtain rfl : call = call' := by simpa using hcall
          obtain ⟨last, since, h⟩ := exists_since pre
          have hall := (allEmitted_iff_accepted (lookup_snapshot h)).1 hemit
          exact (view_after_iff h hpre hall).2 (hstep pre call post last since heq' h hall)
        · refine hpre pre' call' post' ?_ hemit
          have : pre ++ [call] = (pre' ++ call' :: post') ++ [call''] := by rw [heq'']; simp
          exact (List.append_inj' this rfl).1
    exact key calls [] (List.append_nil calls).symm

/-- One running container. -/
def webRunning : ContainerStatuses :=
  .ofList [⟨"abc", "web", "docker.io/library/nginx:alpine", "running"⟩]

/-- The first report of a container is in step with the empty state and reaches the receiver. -/
theorem converges_first_report : Converges [⟨webRunning, false, "100.64.0.5", fun _ => true⟩] := by
  refine (reports_converge_iff _).2 fun pre call post last since heq h _ => ?_
  rw [List.singleton_eq_append_iff] at heq
  rcases heq with ⟨rfl, heq⟩ | ⟨-, heq⟩
  · obtain ⟨rfl, -⟩ := List.cons_eq_cons.1 heq.symm
    obtain ⟨rfl, rfl⟩ : last = .empty ∧ since = [] := by
      generalize hpre : ([] : List Call) = pre at h
      cases h with
      | start => exact ⟨rfl, rfl⟩
      | accepted => simp at hpre
      | refused => simp at hpre
    refine ⟨fun id hr => ?_, fun id status _ ht => ?_⟩
    · -- what is not reported is not there
      have : webRunning.map.lookup id = none := by
        simpa [Call.Reports, Call.truth, remembered, ContainerStatuses.empty] using hr
      simp [told, ContainerStatuses.view, this, ContainerStatuses.empty]
    · have := ContainerStatuses.mem_of_lookup_ofList ht
      rw [List.mem_singleton] at this
      rw [this]
      decide
  · cases heq

/-- A container that was reported and is gone when a resync clears the snapshot is never reported as removed: the
resync emits nothing and the receiver keeps it. -/
theorem resync_keeps_removed_container :
    ¬ Converges [⟨webRunning, false, "100.64.0.5", fun _ => true⟩, ⟨.empty, true, "100.64.0.5", fun _ => true⟩] := by
  intro hall
  have h := hall [⟨webRunning, false, "100.64.0.5", fun _ => true⟩]
    ⟨.empty, true, "100.64.0.5", fun _ => true⟩ [] rfl (by intro e he; exact absurd he (List.not_mem_nil))
  have hv : (SyncState.after ([⟨webRunning, false, "100.64.0.5", fun _ => true⟩] ++
      [⟨.empty, true, "100.64.0.5", fun _ => true⟩])).view "abc" = some ("web", "running") := by decide
  rw [h] at hv
  cases hv

end Coold.Agent
