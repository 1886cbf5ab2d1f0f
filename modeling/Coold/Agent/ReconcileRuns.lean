import Coold.Lib.Ledger
import Coold.Lib.Lts
import Coold.Agent.DesiredEndpoints
import Coold.Agent.StatusSync

/-!
# Concurrent reconciliations

`reconcile_once` is called by the event trigger and by the periodic loop, in two tasks.  A call lists the statuses of
the containers, takes the resync flag and updates the status snapshot under its lock, lists the endpoints, reads the
rows of the host from Corrosion and applies the difference.  Between two of these steps the other calls may do any of
theirs, and Podman may change.

The two ledgers record what the calls saw, in the order in which they saw it.  `Fresh` says that the snapshot and the
rows of the host show the newest observation written so far.  A step of a call keeps it exactly when it is `InOrder`:
an update of the snapshot is not older than what the snapshot shows, or brings nothing new; a transaction that is
newer than all before it finds the rows that it leaves alone as it read them, and one that is older writes only what
is there already.
-/

namespace Coold.Agent

/-! ### What a call sees -/

section Statuses

variable (toLowercase : String → String)

/-- The status of a listed container; a failed inspection falls back to the list entry. -/
def containerStatusOf (podman : Podman) (c : Container) : ContainerStatus :=
  let inspect := podman.inspect c.id
  let name := (((inspect.map fun i => trimSlashes i.name).filter fun name => name ≠ "").or
    ((c.names.head?.map trimSlashes).filter fun name => name ≠ "")).getD c.id
  let state := (((inspect.bind ContainerInspect.state).map fun s => toLowercase s.status).filter
    fun state => state ≠ "").getD (toLowercase c.state)
  { containerId := c.id
    containerName := name
    image := c.image
    state := if state = "" then "unknown" else state }

def desiredContainerStatuses (podman : Podman) : ContainerStatuses :=
  podman.containers.foldl (fun out c => out.insert (containerStatusOf toLowercase podman c)) .empty

end Statuses

/-- A fully accepted update leaves the snapshot with what it was given, whatever the snapshot was. -/
private theorem lookup_snapshot_of_accepted (snapshot allContainers : ContainerStatuses) (forceResync : Bool)
    (hostMgmtIp : String) (id : String) :
    (reconcileContainerStatusSnapshot snapshot allContainers forceResync hostMgmtIp
      fun _ _ => true).snapshot.map.lookup id = allContainers.map.lookup id := by
  unfold reconcileContainerStatusSnapshot
  by_cases he : diffContainerStatuses allContainers.map (baseline snapshot forceResync).map = []
  · simp only [he, List.isEmpty_nil, if_true]
    exact (Dict.diff_eq_nil_iff.1 he id).symm
  · have hall : ((containerResourceStatusUpdatesFromDeltas hostMgmtIp (diffContainerStatuses allContainers.map
        (baseline snapshot forceResync).map)).mapIdx fun _ update => (update, true)).all Prod.snd = true := by
      simp [List.mem_mapIdx]
    simp only [List.isEmpty_iff, he, if_false, hall, if_true]

/-! ### Runs -/

/-- Where a call of `reconcile_once` is, with what it holds. -/
inductive ReconcilePc (host : String) where
  | started
  | listedStatuses (seen : Observed ContainerStatuses)
  | snapshotUpdated
  | listedEndpoints (seen : Observed (HostEndpoints host))
  | readCorrosion (seen : Observed (HostEndpoints host)) (current : Dict String Endpoint)
  | finished

namespace ReconcilePc

variable {host : String}

/-- The status observation that a call holds. -/
def statuses : ReconcilePc host → Option (Observed ContainerStatuses)
  | listedStatuses seen => some seen
  | _ => none

/-- The endpoint observation that a call holds. -/
def endpoints : ReconcilePc host → Option (Observed (HostEndpoints host))
  | listedEndpoints seen => some seen
  | readCorrosion seen _ => some seen
  | _ => none

/-- The endpoints and the rows that a call is about to compare. -/
def comparison : ReconcilePc host → Option (Observed (HostEndpoints host) × Dict String Endpoint)
  | readCorrosion seen current => some (seen, current)
  | _ => none

def isFinished : ReconcilePc host → Bool
  | finished => true
  | _ => false

end ReconcilePc

/-- The state of Podman, the shared state of the calls, the calls themselves, and the records of what they saw. -/
structure ReconcileSys (config : SyncConfig) where
  podman : Podman
  snapshot : ContainerStatuses
  resyncSignal : Bool
  table : Table
  calls : List (ReconcilePc config.hostMgmtIp)
  statuses : Ledger ContainerStatuses
  endpoints : Ledger (HostEndpoints config.hostMgmtIp)

inductive ReconcileOp where
  /-- Podman changes. -/
  | podman (podman : Podman)
  /-- A connection to flux, or a lagging subscriber, asks for a resync. -/
  | request
  /-- `reconcile_once` is called. -/
  | call
  | listStatuses (i : Nat)
  | updateSnapshot (i : Nat)
  | listEndpoints (i : Nat)
  | readCorrosion (i : Nat)
  | transaction (i : Nat) (nowMs : Int)

namespace ReconcileSys

/-- No call yet, with any snapshot, flag and table. -/
def start {config : SyncConfig} (podman : Podman) (snapshot : ContainerStatuses) (resyncSignal : Bool)
    (table : Table) : ReconcileSys config where
  podman := podman
  snapshot := snapshot
  resyncSignal := resyncSignal
  table := table
  calls := []
  statuses := .empty
  endpoints := .empty

variable (toLowercase : String → String) {config : SyncConfig}

/-- The steps; every update is accepted by its subscribers, and every transaction by Corrosion. -/
def step (s : ReconcileSys config) : ReconcileOp → Option (ReconcileSys config)
  | .podman podman => some { s with podman := podman }
  | .request => some { s with resyncSignal := true }
  | .call => some { s with calls := s.calls ++ [.started] }
  | .listStatuses i =>
    match s.calls[i]? with
    | some .started =>
      let allContainers := desiredContainerStatuses toLowercase s.podman
      some { s with
        calls := s.calls.set i (.listedStatuses (s.statuses.next allContainers))
        statuses := s.statuses.observe allContainers }
    | _ => none
  | .updateSnapshot i =>
    match s.calls[i]? with
    | some (.listedStatuses seen) =>
      some { s with
        snapshot := (reconcileContainerStatusSnapshot s.snapshot seen.value s.resyncSignal config.hostMgmtIp
          fun _ _ => true).snapshot
        resyncSignal := false
        calls := s.calls.set i .snapshotUpdated
        statuses := s.statuses.write seen }
    | _ => none
  | .listEndpoints i =>
    match s.calls[i]? with
    | some .snapshotUpdated =>
      let desired := desiredEndpoints toLowercase config s.podman
      some { s with
        calls := s.calls.set i (.listedEndpoints (s.endpoints.next desired))
        endpoints := s.endpoints.observe desired }
    | _ => none
  | .readCorrosion i =>
    match s.calls[i]? with
    | some (.listedEndpoints seen) =>
      some { s with calls := s.calls.set i (.readCorrosion seen (s.table.snapshotForHost config.hostMgmtIp)) }
    | _ => none
  | .transaction i nowMs =>
    match s.calls[i]? with
    | some (.readCorrosion seen current) =>
      some { s with
        table := s.table.applyAll (buildStatements nowMs (diff seen.value.map current))
        calls := s.calls.set i .finished
        endpoints := s.endpoints.write seen }
    | _ => none

/-- The steps, with what each of them needs. -/
inductive Step (s : ReconcileSys config) : ReconcileOp → ReconcileSys config → Prop where
  | podman (podman : Podman) : Step s (.podman podman) { s with podman := podman }
  | request : Step s .request { s with resyncSignal := true }
  | call : Step s .call { s with calls := s.calls ++ [.started] }
  | listStatuses (i : Nat) (allContainers : ContainerStatuses) (hpc : s.calls[i]? = some .started) :
      Step s (.listStatuses i) { s with
        calls := s.calls.set i (.listedStatuses (s.statuses.next allContainers))
        statuses := s.statuses.observe allContainers }
  | updateSnapshot (i : Nat) (seen : Observed ContainerStatuses)
      (hpc : s.calls[i]? = some (.listedStatuses seen)) :
      Step s (.updateSnapshot i) { s with
        snapshot := (reconcileContainerStatusSnapshot s.snapshot seen.value s.resyncSignal config.hostMgmtIp
          fun _ _ => true).snapshot
        resyncSignal := false
        calls := s.calls.set i .snapshotUpdated
        statuses := s.statuses.write seen }
  | listEndpoints (i : Nat) (desired : HostEndpoints config.hostMgmtIp)
      (hpc : s.calls[i]? = some .snapshotUpdated) :
      Step s (.listEndpoints i) { s with
        calls := s.calls.set i (.listedEndpoints (s.endpoints.next desired))
        endpoints := s.endpoints.observe desired }
  | readCorrosion (i : Nat) (seen : Observed (HostEndpoints config.hostMgmtIp))
      (hpc : s.calls[i]? = some (.listedEndpoints seen)) :
      Step s (.readCorrosion i)
        { s with calls := s.calls.set i (.readCorrosion seen (s.table.snapshotForHost config.hostMgmtIp)) }
  | transaction (i : Nat) (nowMs : Int) (seen : Observed (HostEndpoints config.hostMgmtIp))
      (current : Dict String Endpoint) (hpc : s.calls[i]? = some (.readCorrosion seen current)) :
      Step s (.transaction i nowMs) { s with
        table := s.table.applyAll (reconcileStatements nowMs seen.value current)
        calls := s.calls.set i .finished
        endpoints := s.endpoints.write seen }

variable {toLowercase}

theorem step_sound {s s' : ReconcileSys config} {op : ReconcileOp} (h : step toLowercase s op = some s') :
    Step s op s' := by
  cases op with
  | podman podman => exact Option.some.inj h ▸ .podman podman
  | request => exact Option.some.inj h ▸ .request
  | call => exact Option.some.inj h ▸ .call
  | listStatuses i =>
    simp only [step] at h
    split at h
    · rename_i hpc
      exact Option.some.inj h ▸ .listStatuses i _ hpc
    · cases h
  | updateSnapshot i =>
    simp only [step] at h
    split at h
    · rename_i seen hpc
      exact Option.some.inj h ▸ .updateSnapshot i seen hpc
    · cases h
  | listEndpoints i =>
    simp only [step] at h
    split at h
    · rename_i hpc
      exact Option.some.inj h ▸ .listEndpoints i _ hpc
    · cases h
  | readCorrosion i =>
    simp only [step] at h
    split at h
    · rename_i seen hpc
      exact Option.some.inj h ▸ .readCorrosion i seen hpc
    · cases h
  | transaction i nowMs =>
    simp only [step] at h
    split at h
    · rename_i seen current hpc
      exact Option.some.inj h ▸ .transaction i nowMs seen current hpc
    · cases h

/-! ### What the stores show -/

/-- The statuses of the snapshot. -/
def statusRows (s : ReconcileSys config) : String → Option ContainerStatus := fun id => s.snapshot.map.lookup id

/-- The endpoints that the rows of the host show. -/
def endpointRows (s : ReconcileSys config) : String → Option Endpoint :=
  fun id => (s.table.snapshotForHost config.hostMgmtIp).lookup id

/-- No call has overwritten the result of a newer one: the snapshot and the rows show the newest observation that was
written. -/
structure Fresh (s : ReconcileSys config) : Prop where
  statuses : s.statuses.Shows (fun statuses id => statuses.map.lookup id) s.statusRows
  endpoints : s.endpoints.Shows (fun desired id => desired.map.lookup id) s.endpointRows

/-- The snapshot and the rows show the last observation that was made. -/
structure UpToDate (s : ReconcileSys config) : Prop where
  statuses : ∀ statuses, s.statuses.made.getLast? = some statuses → s.statusRows = fun id => statuses.map.lookup id
  endpoints : ∀ desired, s.endpoints.made.getLast? = some desired → s.endpointRows = fun id => desired.map.lookup id

def Finished (s : ReconcileSys config) : Prop := ∀ pc ∈ s.calls, pc.isFinished = true

instance (s : ReconcileSys config) : Decidable s.Finished :=
  inferInstanceAs (Decidable (∀ pc ∈ s.calls, pc.isFinished = true))

/-- A transaction in its turn, or one that only writes what is there already. -/
def TransactionInOrder (s : ReconcileSys config) (seen : Observed (HostEndpoints config.hostMgmtIp))
    (current : Dict String Endpoint) : Prop :=
  if s.endpoints.Newest seen then
    ∀ id, seen.value.map.lookup id = current.lookup id → s.endpointRows id = current.lookup id
  else
    ∀ id, seen.value.map.lookup id ≠ current.lookup id → s.endpointRows id = seen.value.map.lookup id

/-- What a step needs of the state before it. -/
def InOrder (s : ReconcileSys config) : ReconcileOp → Prop
  | .updateSnapshot i => ∀ seen ∈ s.calls[i]?.bind ReconcilePc.statuses,
      s.statuses.Newest seen ∨ ∀ id, s.statusRows id = seen.value.map.lookup id
  | .transaction i _ => ∀ c ∈ s.calls[i]?.bind ReconcilePc.comparison, s.TransactionInOrder c.1 c.2
  | _ => True

instance (s : ReconcileSys config) (seen : Observed (HostEndpoints config.hostMgmtIp))
    (current : Dict String Endpoint) : Decidable (s.TransactionInOrder seen current) :=
  if h : s.endpoints.Newest seen then
    decidable_of_iff _ ((Dict.forall_lookup_iff (R := fun d c t => d = c → t = c) (fun _ => rfl) seen.value.map current
      (s.table.snapshotForHost config.hostMgmtIp)).symm.trans (by rw [TransactionInOrder, if_pos h]; rfl))
  else
    decidable_of_iff _ ((Dict.forall_lookup_iff (R := fun d c t => d ≠ c → t = d) (absurd rfl) seen.value.map current
      (s.table.snapshotForHost config.hostMgmtIp)).symm.trans (by rw [TransactionInOrder, if_neg h]; rfl))

instance (s : ReconcileSys config) (statuses : ContainerStatuses) :
    Decidable (∀ id, s.statusRows id = statuses.map.lookup id) :=
  decidable_of_iff (diffContainerStatuses s.snapshot.map statuses.map = []) Dict.diff_eq_nil_iff

instance (s : ReconcileSys config) : ∀ op, Decidable (s.InOrder op)
  | .updateSnapshot i => inferInstanceAs (Decidable (∀ seen ∈ s.calls[i]?.bind ReconcilePc.statuses,
      s.statuses.Newest seen ∨ ∀ id, s.statusRows id = seen.value.map.lookup id))
  | .transaction i _ => inferInstanceAs (Decidable (∀ c ∈ s.calls[i]?.bind ReconcilePc.comparison,
      s.TransactionInOrder c.1 c.2))
  | .podman _ => isTrue trivial
  | .request => isTrue trivial
  | .call => isTrue trivial
  | .listStatuses _ => isTrue trivial
  | .listEndpoints _ => isTrue trivial
  | .readCorrosion _ => isTrue trivial

/-! ### The record -/

/-- Both ledgers are right about what the calls hold. -/
structure Recorded (s : ReconcileSys config) : Prop where
  statuses : s.statuses.Ok ReconcilePc.statuses s.calls
  endpoints : s.endpoints.Ok ReconcilePc.endpoints s.calls

private theorem recorded_start (podman : Podman) (snapshot : ContainerStatuses) (resyncSignal : Bool) (table : Table) :
    (start podman snapshot resyncSignal table : ReconcileSys config).Recorded :=
  ⟨Ledger.ok_empty, Ledger.ok_empty⟩

theorem Recorded.step {s s' : ReconcileSys config} {op : ReconcileOp} (hs : s.Recorded)
    (h : step toLowercase s op = some s') : s'.Recorded := by
  cases step_sound h with
  | podman podman => exact ⟨hs.statuses, hs.endpoints⟩
  | request => exact ⟨hs.statuses, hs.endpoints⟩
  | call => exact ⟨hs.statuses.spawn rfl, hs.endpoints.spawn rfl⟩
  | listStatuses i allContainers hpc => exact ⟨hs.statuses.observe hpc rfl, hs.endpoints.move hpc rfl⟩
  | updateSnapshot i seen hpc => exact ⟨hs.statuses.write hpc rfl rfl, hs.endpoints.move hpc rfl⟩
  | listEndpoints i desired hpc => exact ⟨hs.statuses.move hpc rfl, hs.endpoints.observe hpc rfl⟩
  | readCorrosion i seen hpc => exact ⟨hs.statuses.move hpc rfl, hs.endpoints.move hpc rfl⟩
  | transaction i nowMs seen current hpc => exact ⟨hs.statuses.move hpc rfl, hs.endpoints.write hpc rfl rfl⟩

/-- Once the calls have finished, a store that shows the newest observation written shows the last one made. -/
private theorem Fresh.upToDate {s : ReconcileSys config} (hf : s.Fresh) (hs : s.Recorded) (hdone : s.Finished) :
    s.UpToDate where
  statuses statuses hlast := by
    have hnone : ∀ pc ∈ s.calls, pc.statuses = none := by
      intro pc hpc
      have := hdone pc hpc
      cases pc with
      | finished => rfl
      | _ => cases this
    obtain ⟨w, hw, rfl⟩ := hs.statuses.written_of_last hnone hlast
    exact hf.statuses w hw
  endpoints desired hlast := by
    have hnone : ∀ pc ∈ s.calls, pc.endpoints = none := by
      intro pc hpc
      have := hdone pc hpc
      cases pc with
      | finished => rfl
      | _ => cases this
    obtain ⟨w, hw, rfl⟩ := hs.endpoints.written_of_last hnone hlast
    exact hf.endpoints w hw

/-! ### Steps in order -/

section InOrder

variable {s : ReconcileSys config}

/-- After an update the snapshot is what the call saw, so an older call must have seen what the snapshot shows. -/
private theorem shows_updateSnapshot_iff {seen : Observed ContainerStatuses} {rows : String → Option ContainerStatus}
    (hf : s.Fresh) (hrows : rows = fun id => seen.value.map.lookup id) :
    (s.statuses.write seen).Shows (fun statuses id => statuses.map.lookup id) rows ↔
      s.statuses.Newest seen ∨ ∀ id, s.statusRows id = seen.value.map.lookup id := by
  rw [Ledger.shows_write_iff hf.statuses, hrows]
  split
  · rename_i hnew
    exact ⟨fun _ => Or.inl hnew, fun _ => rfl⟩
  · rename_i hnew
    rw [or_iff_right hnew, eq_comm, funext_iff]

/-- After a transaction a row is as the call saw it where it read something else, and as it was elsewhere. -/
private theorem shows_transaction_iff {seen : Observed (HostEndpoints config.hostMgmtIp)}
    {current : Dict String Endpoint} {rows : String → Option Endpoint} (hf : s.Fresh)
    (hrows : rows = fun id => if seen.value.map.lookup id = current.lookup id then s.endpointRows id
      else seen.value.map.lookup id) :
    (s.endpoints.write seen).Shows (fun desired id => desired.map.lookup id) rows ↔
      s.TransactionInOrder seen current := by
  rw [Ledger.shows_write_iff hf.endpoints, hrows, TransactionInOrder]
  split
  · rw [funext_iff]
    refine forall_congr' fun id => ?_
    by_cases heq : seen.value.map.lookup id = current.lookup id
    · rw [if_pos heq, heq, forall_prop_of_true rfl]
    · rw [if_neg heq, forall_prop_of_false heq]
      exact iff_of_true rfl trivial
  · rw [funext_iff]
    refine forall_congr' fun id => ?_
    by_cases heq : seen.value.map.lookup id = current.lookup id
    · rw [if_pos heq, forall_prop_of_false (not_not_intro heq)]
      exact iff_of_true rfl trivial
    · rw [if_neg heq, forall_prop_of_true heq, eq_comm]

/-- A step keeps the stores fresh exactly when it is in order. -/
private theorem fresh_step_iff {s' : ReconcileSys config} {op : ReconcileOp} (hf : s.Fresh)
    (h : step toLowercase s op = some s') : s'.Fresh ↔ s.InOrder op := by
  -- only the two steps that write can spoil a store
  cases step_sound h with
  | podman podman => exact iff_of_true ⟨hf.statuses, hf.endpoints⟩ trivial
  | request => exact iff_of_true ⟨hf.statuses, hf.endpoints⟩ trivial
  | call => exact iff_of_true ⟨hf.statuses, hf.endpoints⟩ trivial
  | listStatuses i allContainers hpc => exact iff_of_true ⟨hf.statuses, hf.endpoints⟩ trivial
  | listEndpoints i desired hpc => exact iff_of_true ⟨hf.statuses, hf.endpoints⟩ trivial
  | readCorrosion i seen hpc => exact iff_of_true ⟨hf.statuses, hf.endpoints⟩ trivial
  | updateSnapshot i seen hpc =>
    have hshows := shows_updateSnapshot_iff hf
      (funext (lookup_snapshot_of_accepted s.snapshot seen.value s.resyncSignal config.hostMgmtIp))
    constructor
    · intro hf' seen' hseen
      rw [hpc] at hseen
      cases hseen
      exact hshows.1 hf'.statuses
    · intro hin
      exact ⟨hshows.2 (hin seen (by rw [hpc]; rfl)), hf.endpoints⟩
  | transaction i nowMs seen current hpc =>
    have hrows : ∀ id, ((s.table.applyAll (reconcileStatements nowMs seen.value current)).snapshotForHost
        config.hostMgmtIp).lookup id = if seen.value.map.lookup id = current.lookup id then s.endpointRows id
          else seen.value.map.lookup id :=
      lookup_snapshotForHost_applyAll (.refl _)
    have hshows := shows_transaction_iff hf (funext hrows)
    constructor
    · intro hf' c hc
      rw [hpc] at hc
      cases hc
      exact hshows.1 hf'.endpoints
    · intro hin
      exact ⟨hf.statuses, hshows.2 (hin (seen, current) (by rw [hpc]; rfl))⟩

end InOrder

/-- Any number of calls, interleaved in any way while Podman changes: no call ever overwrites the result of a newer one
exactly when every update and every transaction of the run is in order, and then, once all calls have finished, the
snapshot and the rows of the host show the last observation that a call made. -/
theorem reconciles_never_regress (toLowercase : String → String) {config : SyncConfig} (podman : Podman)
    (snapshot : ContainerStatuses) (resyncSignal : Bool) (table : Table) {tr : List ReconcileOp}
    {s : ReconcileSys config}
    (hr : Lts.run (step toLowercase) (start podman snapshot resyncSignal table) tr = some s) :
    (Lts.Always (step toLowercase) Fresh (start podman snapshot resyncSignal table : ReconcileSys config) tr ↔
      Lts.Along (step toLowercase) InOrder (start podman snapshot resyncSignal table : ReconcileSys config) tr) ∧
    (Lts.Along (step toLowercase) InOrder (start podman snapshot resyncSignal table : ReconcileSys config) tr →
      s.Finished → s.UpToDate) := by
  have hrec : (start podman snapshot resyncSignal table : ReconcileSys config).Recorded :=
    recorded_start podman snapshot resyncSignal table
  have hfresh : (start podman snapshot resyncSignal table : ReconcileSys config).Fresh :=
    ⟨fun w hw => (nomatch hw), fun w hw => (nomatch hw)⟩
  have hiff := Lts.always_iff_along_of_step (fun _ _ _ hf h => fresh_step_iff hf h) hfresh hr
  refine ⟨hiff, fun hin hdone => ?_⟩
  have hrec' : s.Recorded := Lts.invariant_of_step (fun _ _ _ hs h => hs.step h) hrec hr
  exact ((hiff.2 hin).last hr).upToDate hrec' hdone

/-! ### Two calls -/

/-- Podman without containers. -/
def noContainers : Podman := ⟨[], fun _ => none⟩

/-- No call yet, nothing sent and no row. -/
def idle : ReconcileSys dualConfig := start (onePodman prodFirst) .empty false .empty

/-- The container goes away between the listings of two calls, and each call writes before the other one reads. -/
def politeTrace : List ReconcileOp :=
  [.call, .call, .listStatuses 0, .podman noContainers, .listStatuses 1, .updateSnapshot 0, .updateSnapshot 1,
    .podman (onePodman prodFirst), .listEndpoints 0, .podman noContainers, .listEndpoints 1,
    .readCorrosion 0, .transaction 0 1, .readCorrosion 1, .transaction 1 2]

theorem polite_calls_up_to_date : ∃ s, Lts.run (step id) idle politeTrace = some s ∧ s.Finished ∧ s.UpToDate := by
  obtain ⟨s, hs⟩ : ∃ s, Lts.run (step id) idle politeTrace = some s :=
    Option.isSome_iff_exists.1 (by decide)
  have hdone : ∀ s ∈ Lts.run (step id) idle politeTrace, s.Finished := by decide
  have hin : Lts.Along (step id) InOrder idle politeTrace := by decide
  exact ⟨s, hs, hdone s hs, (reconciles_never_regress id _ _ _ _ hs).2 hin (hdone s hs)⟩

/-- The container goes away between the listings of two calls, and the first call writes last. -/
def overtakenTrace : List ReconcileOp :=
  [.call, .call, .listStatuses 0, .podman noContainers, .listStatuses 1, .updateSnapshot 1, .updateSnapshot 0,
    .podman (onePodman prodFirst), .listEndpoints 0, .readCorrosion 0, .podman noContainers, .listEndpoints 1,
    .readCorrosion 1, .transaction 1 1, .transaction 0 2]

/-- Both calls have finished and the last listings were empty, but the container is in the snapshot and in the table. -/
theorem removed_container_reappears :
    ∃ s ∈ Lts.run (step id) idle overtakenTrace, s.Finished ∧
      (∃ statuses ∈ s.statuses.made.getLast?, statuses.map.lookup "c1" = none ∧ s.statusRows "c1" ≠ none) ∧
      ∃ desired ∈ s.endpoints.made.getLast?, desired.map.lookup "c1" = none ∧ s.endpointRows "c1" ≠ none := by
  decide

end ReconcileSys

end Coold.Agent
