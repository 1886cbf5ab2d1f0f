import Coold.Agent.Model

/-!
# The endpoint table

`service_endpoints` is a table with the container id as its primary key, replicated between the hosts.  A
reconciliation reads the rows of its own host (`snapshotForHost`), compares them with the endpoints that Podman shows
and applies one statement for every difference (`buildStatements`).  The two maps of the comparison are iterated in
any order, so the statements come in any order.

The statements name distinct containers, and each one decides the row of the container it names, so that their order
does not matter: `Table.lookup_applyAll_of_mem` and `Table.lookup_applyAll_of_notMem` are all that is used of it.
-/

namespace Coold.Agent

/-- A row of `service_endpoints`. -/
structure Row where
  endpoint : Endpoint
  updatedAt : Int
  deriving DecidableEq

/-- The table, with the container id as its primary key. -/
structure Table where
  rows : Dict String Row
  keyed : ∀ id row, rows.lookup id = some row → row.endpoint.containerId = id

def Table.empty : Table := ⟨∅, by simp⟩

/-- The two statements of `build_statements`: an insertion that replaces the row of the same container, and a deletion
by container id. -/
inductive Statement where
  | upsert (endpoint : Endpoint) (updatedAt : Int)
  | delete (containerId : String)
  deriving DecidableEq

def Statement.containerId : Statement → String
  | .upsert endpoint _ => endpoint.containerId
  | .delete containerId => containerId

/-- One statement for each delta, all with the same time. -/
def buildStatements (nowMs : Int) (deltas : List Delta) : List Statement :=
  deltas.map fun
    | .upsert endpoint => .upsert endpoint nowMs
    | .delete containerId => .delete containerId

/-- The row that a statement leaves for its container. -/
def Statement.row : Statement → Option Row
  | .upsert endpoint updatedAt => some ⟨endpoint, updatedAt⟩
  | .delete _ => none

namespace Table

def apply (table : Table) : Statement → Table
  | .upsert endpoint updatedAt =>
    { rows := table.rows.insert endpoint.containerId ⟨endpoint, updatedAt⟩
      keyed := by
        intro id row h
        rw [Dict.lookup_insert_ite] at h
        split at h
        · rename_i hid
          rw [hid, ← Option.some.inj h]
        · exact table.keyed id row h }
  | .delete containerId =>
    { rows := table.rows.erase containerId
      keyed := by
        intro id row h
        rw [Dict.lookup_erase_ite] at h
        split at h
        · cases h
        · exact table.keyed id row h }

/-- A transaction. -/
def applyAll (table : Table) (statements : List Statement) : Table := statements.foldl apply table

theorem lookup_apply (table : Table) (statement : Statement) (id : String) :
    (table.apply statement).rows.lookup id =
      if id = statement.containerId then statement.row else table.rows.lookup id := by
  cases statement with
  | upsert endpoint updatedAt => exact Dict.lookup_insert_ite _ _ _ _
  | delete containerId => exact Dict.lookup_erase_ite _ _ _

/-- A transaction decides the rows it names, in the way of `applyUpdates`. -/
private theorem lookup_applyAll (table : Table) (statements : List Statement) (id : String) :
    (table.applyAll statements).rows.lookup id =
      Dict.applyUpdates (fun id => table.rows.lookup id) (statements.map fun s => (s.containerId, s.row)) id := by
  induction statements generalizing table with
  | nil => rfl
  | cons statement statements ih =>
    have hstep : (fun id => (table.apply statement).rows.lookup id) =
        Function.update (fun id => table.rows.lookup id) statement.containerId statement.row := by
      funext id
      rw [lookup_apply, Function.update_apply]
    exact (ih (table.apply statement)).trans (by rw [hstep]; rfl)

theorem lookup_applyAll_of_notMem {table : Table} {statements : List Statement} {id : String}
    (h : id ∉ statements.map Statement.containerId) :
    (table.applyAll statements).rows.lookup id = table.rows.lookup id := by
  rw [lookup_applyAll]
  exact Dict.applyUpdates_of_notMem _ (by rwa [List.map_map])

theorem lookup_applyAll_of_mem {table : Table} {statements : List Statement} {statement : Statement}
    (hnd : (statements.map Statement.containerId).Nodup) (h : statement ∈ statements) :
    (table.applyAll statements).rows.lookup statement.containerId = statement.row := by
  rw [lookup_applyAll]
  exact Dict.applyUpdates_of_mem _ (by rwa [List.map_map]) (List.mem_map.2 ⟨statement, h, rfl⟩)

/-- The rows of one host, keyed by their container id. -/
def snapshotForHost (table : Table) (host : String) : Dict String Endpoint :=
  Dict.collect (((table.rows.retain fun _ row => row.endpoint.hostMgmtIp = host).entries).map
    fun e => (e.2.endpoint.containerId, e.2.endpoint))

theorem nodup_containerIds (table : Table) (host : String) :
    ((((table.rows.retain fun _ row => row.endpoint.hostMgmtIp = host).entries).map
      fun e => (e.2.endpoint.containerId, e.2.endpoint)).map Prod.fst).Nodup := by
  have hkeys : (((table.rows.retain fun _ row => row.endpoint.hostMgmtIp = host).entries).map
      fun e => (e.2.endpoint.containerId, e.2.endpoint)).map Prod.fst =
      (table.rows.retain fun _ row => row.endpoint.hostMgmtIp = host).keys := by
    rw [List.map_map]
    refine List.map_congr_left fun e he => ?_
    have hrow : table.rows.lookup e.1 = some e.2 :=
      Dict.lookup_eq_some_iff_mem.2 (List.mem_filter.1 he).1
    exact table.keyed e.1 e.2 hrow
  rw [hkeys]
  exact AList.keys_nodup _

/-- The snapshot of a host has the endpoint of every row of the host, and no other. -/
private theorem lookup_snapshotForHost {table : Table} {host id : String} {endpoint : Endpoint} :
    (table.snapshotForHost host).lookup id = some endpoint ↔
      endpoint.hostMgmtIp = host ∧ ∃ updatedAt, table.rows.lookup id = some ⟨endpoint, updatedAt⟩ := by
  rw [snapshotForHost, Dict.lookup_collect_eq_some_iff (nodup_containerIds table host), List.mem_map]
  constructor
  · rintro ⟨⟨id', row⟩, hmem, heq⟩
    obtain ⟨hid, rfl⟩ := Prod.mk.inj heq
    have hrow : (table.rows.retain fun _ row => row.endpoint.hostMgmtIp = host).lookup id' = some row :=
      Dict.lookup_eq_some_iff_mem.2 hmem
    rw [Dict.lookup_retain, Option.filter_eq_some_iff] at hrow
    rw [table.keyed id' row hrow.1] at hid
    subst hid
    exact ⟨of_decide_eq_true hrow.2, row.updatedAt, hrow.1⟩
  · rintro ⟨hhost, updatedAt, hrow⟩
    refine ⟨⟨id, ⟨endpoint, updatedAt⟩⟩, ?_, ?_⟩
    · refine Dict.lookup_eq_some_iff_mem.1 ?_
      rw [Dict.lookup_retain, Option.filter_eq_some_iff]
      exact ⟨hrow, decide_eq_true hhost⟩
    · rw [table.keyed id _ hrow]

end Table

/-- The endpoints of one host, keyed by their container id, as `desired_endpoints` builds them. -/
structure HostEndpoints (host : String) where
  map : Dict String Endpoint
  keyed : ∀ id endpoint, map.lookup id = some endpoint → endpoint.containerId = id
  owned : ∀ id endpoint, map.lookup id = some endpoint → endpoint.hostMgmtIp = host

namespace HostEndpoints

def empty (host : String) : HostEndpoints host := ⟨∅, by simp, by simp⟩

/-- Record an endpoint of the host under its container id. -/
def insert {host : String} (out : HostEndpoints host) (endpoint : Endpoint) (h : endpoint.hostMgmtIp = host) :
    HostEndpoints host where
  map := out.map.insert endpoint.containerId endpoint
  keyed id endpoint' h' := by
    rw [Dict.lookup_insert_ite] at h'
    split at h'
    · rename_i hid
      rw [hid, ← Option.some.inj h']
    · exact out.keyed id endpoint' h'
  owned id endpoint' h' := by
    rw [Dict.lookup_insert_ite] at h'
    split at h'
    · rw [← Option.some.inj h', h]
    · exact out.owned id endpoint' h'

theorem lookup_insert {host : String} (out : HostEndpoints host) (endpoint : Endpoint) (h : endpoint.hostMgmtIp = host)
    (id : String) :
    (out.insert endpoint h).map.lookup id =
      if id = endpoint.containerId then some endpoint else out.map.lookup id :=
  Dict.lookup_insert_ite _ _ _ _

end HostEndpoints

/-! ### The statements of a reconciliation -/

/-- The statements that turn the rows of a host into the desired ones. -/
def reconcileStatements {host : String} (nowMs : Int) (desired : HostEndpoints host) (current : Dict String Endpoint) :
    List Statement :=
  buildStatements nowMs (diff desired.map current)

section Statements

variable {host : String} {nowMs : Int} {desired : HostEndpoints host} {current : Dict String Endpoint}

private theorem mem_reconcileStatements {statement : Statement} :
    statement ∈ reconcileStatements nowMs desired current ↔
      (∃ endpoint, statement = .upsert endpoint nowMs ∧ desired.map.lookup endpoint.containerId = some endpoint ∧
        current.lookup endpoint.containerId ≠ some endpoint) ∨
      (∃ id endpoint, statement = .delete id ∧ current.lookup id = some endpoint ∧ desired.map.lookup id = none) := by
  rw [reconcileStatements, buildStatements, List.mem_map]
  simp only [diff, Dict.mem_diff]
  constructor
  · rintro ⟨delta, ⟨id, endpoint, hd, hc, rfl⟩ | ⟨id, endpoint, hc, hd, rfl⟩, rfl⟩
    · obtain rfl := desired.keyed id endpoint hd
      exact Or.inl ⟨endpoint, rfl, hd, hc⟩
    · exact Or.inr ⟨id, endpoint, rfl, hc, hd⟩
  · rintro (⟨endpoint, rfl, hd, hc⟩ | ⟨id, endpoint, rfl, hc, hd⟩)
    · exact ⟨.upsert endpoint, Or.inl ⟨_, endpoint, hd, hc, rfl⟩, rfl⟩
    · exact ⟨.delete id, Or.inr ⟨id, endpoint, hc, hd, rfl⟩, rfl⟩

/-- A container occurs in at most one statement. -/
private theorem nodup_reconcileStatements :
    ((reconcileStatements nowMs desired current).map Statement.containerId).Nodup := by
  rw [reconcileStatements, buildStatements, List.map_map]
  refine Dict.nodup_map_key_diff _ ?_ fun _ => rfl
  exact fun id endpoint h => desired.keyed id endpoint h

/-- There is nothing to do exactly when the two maps agree. -/
theorem reconcileStatements_eq_nil_iff :
    reconcileStatements nowMs desired current = [] ↔ ∀ id, desired.map.lookup id = current.lookup id := by
  rw [reconcileStatements, buildStatements, List.map_eq_nil_iff, diff, Dict.diff_eq_nil_iff]

end Statements

section Transaction

variable {host : String} {nowMs : Int} {desired : HostEndpoints host} {current : Dict String Endpoint} {table : Table}
  {statements : List Statement} (hp : statements.Perm (reconcileStatements nowMs desired current))

include hp

private theorem nodup_statements : (statements.map Statement.containerId).Nodup :=
  (hp.map Statement.containerId).nodup_iff.2 nodup_reconcileStatements

/-- No statement names a container that was read as it is desired. -/
private theorem notMem_containerIds {id : String} (h : desired.map.lookup id = current.lookup id) :
    id ∉ statements.map Statement.containerId := by
  intro hid
  obtain ⟨statement, hs, rfl⟩ := List.mem_map.1 hid
  rcases mem_reconcileStatements.1 (hp.mem_iff.1 hs) with ⟨endpoint, rfl, hd, hc⟩ | ⟨id, endpoint, rfl, hc, hd⟩
  · exact hc (h ▸ hd)
  · exact absurd (hd.symm.trans (h.trans hc)) (by simp)

/-- A transaction on any table, with its statements in any order: it writes the rows that were not read as desired and
leaves the others as they are now. -/
private theorem lookup_applyAll_statements (id : String) :
    (table.applyAll statements).rows.lookup id =
      if desired.map.lookup id = current.lookup id then table.rows.lookup id
      else (desired.map.lookup id).map fun endpoint => ⟨endpoint, nowMs⟩ := by
  by_cases heq : desired.map.lookup id = current.lookup id
  · rw [if_pos heq]
    exact Table.lookup_applyAll_of_notMem (notMem_containerIds hp heq)
  · rw [if_neg heq]
    cases hd : desired.map.lookup id with
    | some endpoint =>
      obtain rfl := desired.keyed id endpoint hd
      have hs : Statement.upsert endpoint nowMs ∈ statements :=
        hp.mem_iff.2 (mem_reconcileStatements.2 (Or.inl ⟨endpoint, rfl, hd, fun hc => heq (hd.trans hc.symm)⟩))
      exact Table.lookup_applyAll_of_mem (nodup_statements hp) hs
    | none =>
      cases hc : current.lookup id with
      | none => exact absurd (hd.trans hc.symm) heq
      | some endpoint =>
        have hs : Statement.delete id ∈ statements :=
          hp.mem_iff.2 (mem_reconcileStatements.2 (Or.inr ⟨id, endpoint, rfl, hc, hd⟩))
        exact Table.lookup_applyAll_of_mem (nodup_statements hp) hs

/-- The rows of the host after a transaction on any table: desired where it was not read so, and as they were in the
table elsewhere. -/
theorem lookup_snapshotForHost_applyAll (id : String) :
    ((table.applyAll statements).snapshotForHost host).lookup id =
      if desired.map.lookup id = current.lookup id then (table.snapshotForHost host).lookup id
      else desired.map.lookup id := by
  refine Option.ext fun endpoint => ?_
  rw [Table.lookup_snapshotForHost, lookup_applyAll_statements hp]
  split
  · rw [Table.lookup_snapshotForHost]
  · constructor
    · rintro ⟨-, updatedAt, hrow⟩
      obtain ⟨endpoint', hd, heq⟩ := Option.map_eq_some_iff.1 hrow
      rw [hd, ← (Row.mk.inj heq).1]
    · intro hd
      exact ⟨desired.owned id endpoint hd, nowMs, by rw [hd]; rfl⟩

end Transaction

section Reconciliation

variable {host : String} {nowMs : Int} {desired : HostEndpoints host} {table : Table} {statements : List Statement}
  (hp : statements.Perm (reconcileStatements nowMs desired (table.snapshotForHost host)))

include hp

/-- The rows of the host after the statements, applied in any order: the desired ones. -/
theorem snapshotForHost_applyAll (id : String) :
    ((table.applyAll statements).snapshotForHost host).lookup id = desired.map.lookup id := by
  rw [lookup_snapshotForHost_applyAll hp]
  split
  · rename_i heq
    exact heq.symm
  · rfl

/-- A row of another host stays, unless its container is one of the desired ones. -/
private theorem lookup_of_other {id : String} {row : Row} (hrow : table.rows.lookup id = some row)
    (hhost : row.endpoint.hostMgmtIp ≠ host) (hd : desired.map.lookup id = none) :
    (table.applyAll statements).rows.lookup id = some row := by
  have hc : (table.snapshotForHost host).lookup id = none := by
    rw [Option.eq_none_iff_forall_ne_some]
    intro endpoint hc
    obtain ⟨hhost', updatedAt, hrow'⟩ := Table.lookup_snapshotForHost.1 hc
    rw [hrow] at hrow'
    cases hrow'
    exact hhost hhost'
  rw [lookup_applyAll_statements hp, if_pos (hd.trans hc.symm), hrow]

private theorem eq_nil_iff :
    statements = [] ↔ ∀ id, desired.map.lookup id = (table.snapshotForHost host).lookup id := by
  have hnil : reconcileStatements nowMs desired (table.snapshotForHost host) = [] ↔ _ := reconcileStatements_eq_nil_iff
  rw [← hnil]
  constructor
  · rintro rfl
    exact hp.nil_eq.symm
  · intro h
    rw [h] at hp
    exact hp.eq_nil

end Reconciliation

/-- A reconciliation of any table, with its statements applied in any order: the rows of the host are the desired
endpoints, every row of another host whose container is not desired is unchanged, a container occurs in at most one
statement, and there is no statement exactly when the rows of the host were the desired ones before. -/
theorem endpoint_table_reconciled {host : String} {nowMs : Int} {desired : HostEndpoints host} {table : Table}
    {statements : List Statement}
    (hp : statements.Perm (buildStatements nowMs (diff desired.map (table.snapshotForHost host)))) :
    (∀ id, ((table.applyAll statements).snapshotForHost host).lookup id = desired.map.lookup id) ∧
      (∀ id row, table.rows.lookup id = some row → row.endpoint.hostMgmtIp ≠ host → desired.map.lookup id = none →
        (table.applyAll statements).rows.lookup id = some row) ∧
      (statements.map Statement.containerId).Nodup ∧
      (statements = [] ↔ ∀ id, desired.map.lookup id = (table.snapshotForHost host).lookup id) :=
  ⟨snapshotForHost_applyAll hp, fun _ _ => lookup_of_other hp, nodup_statements hp, eq_nil_iff hp⟩

/-- A running container of a host. -/
def sampleEndpoint (id host ip : String) : Endpoint := ⟨id, "web", "prod", host, ip, "running", "healthy"⟩

/-- A host with an old address for `a` and a container `b` that is gone, and a row of another host. -/
def sampleTable : Table :=
  Table.applyAll .empty
    [.upsert (sampleEndpoint "a" "h" "10.0.0.1") 1, .upsert (sampleEndpoint "b" "h" "10.0.0.2") 1,
      .upsert (sampleEndpoint "c" "other" "10.0.1.3") 1, .upsert (sampleEndpoint "d" "other" "10.0.1.4") 1]

/-- Container `d` has moved to the host. -/
def sampleDesired : HostEndpoints "h" :=
  ((HostEndpoints.empty "h").insert (sampleEndpoint "a" "h" "10.0.0.9") rfl).insert
    (sampleEndpoint "d" "h" "10.0.0.4") rfl

theorem endpoint_table_reconciled_reversed :
    let table := sampleTable.applyAll
      [.delete "b", .upsert (sampleEndpoint "a" "h" "10.0.0.9") 2, .upsert (sampleEndpoint "d" "h" "10.0.0.4") 2]
    (∀ id, (table.snapshotForHost "h").lookup id = sampleDesired.map.lookup id) ∧
      table.rows.lookup "c" = some ⟨sampleEndpoint "c" "other" "10.0.1.3", 1⟩ := by
  have hp : List.Perm
      [.delete "b", .upsert (sampleEndpoint "a" "h" "10.0.0.9") 2, .upsert (sampleEndpoint "d" "h" "10.0.0.4") 2]
      (buildStatements 2 (diff sampleDesired.map (sampleTable.snapshotForHost "h"))) := by
    decide
  obtain ⟨hrows, hother, -⟩ := endpoint_table_reconciled hp
  exact ⟨hrows, hother "c" _ (by decide) (by decide) (by decide)⟩

end Coold.Agent
