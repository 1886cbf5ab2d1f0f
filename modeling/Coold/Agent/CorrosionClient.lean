import Coold.Agent.Endpoints
import Coold.Agent.OwnedRows
import Coold.Lib.Exchange

/-!
# The client of Corrosion

The client posts statements of SQL with their parameters, and reads rows from lines of JSON (`parseValueRows`,
`parseRows`).  Behind it is a server that keeps a table: the server executes the two statements of `buildStatements`
(`execute`) and answers the query of a host with the rows of the host, in any order and among other lines.

`parseRows_endpoints` says that the snapshot is read back, and `reconcile_over_wire` that a reconciliation that is done
through such a server leaves the desired endpoints in its table.
-/

namespace Coold.Agent.Corrosion

open Exchange Firewall

structure SqlStatement where
  sql : String
  params : List Json.Value

inductive Request
  | query (statement : SqlStatement)
  | transaction (statements : List SqlStatement)

structure Response where
  success : Bool
  status : String
  bytes : Except String (List UInt8)

inductive Error
  | post (cause : String)
  | read (cause : String)
  | status (status : String) (body : List UInt8)
  | column (idx : Nat)

structure Env where
  answer : List Request → Request → Except String Response
  fromSlice : List UInt8 → Option Frame

abbrev Call (α : Type) := Exchange Request Error α

/-! ### Rows -/

/-- The values of a row: an id, and an array of them. -/
def valuesOfFrame (frame : Frame) : Option (List Json.Value) :=
  match frame.row with
  | some [_, .array values] => some values
  | _ => none

section Parse

variable (fromSlice : List UInt8 → Option Frame)

def valuesOfLine (line : List UInt8) : Option (List Json.Value) :=
  if line = [] then none else (fromSlice line).bind valuesOfFrame

def parseValueRows (bytes : List UInt8) : List (List Json.Value) :=
  (bytes.splitOn newline).filterMap (valuesOfLine fromSlice)

def stringAt (values : List Json.Value) (idx : Nat) : Except Error String :=
  match values[idx]?.bind Json.Value.asString with
  | some s => .ok s
  | none => .error (.column idx)

def endpointAt (values : List Json.Value) : Except Error Endpoint := do
  let containerId ← stringAt values 0
  let containerName ← stringAt values 1
  let namespace_ ← stringAt values 2
  let hostMgmtIp ← stringAt values 3
  let containerIp ← stringAt values 4
  let state ← stringAt values 5
  let health ← stringAt values 6
  return { containerId, containerName, namespace_, hostMgmtIp, containerIp, state, health }

/-- A row that is too short is skipped; one with something else than a string in it is an error. -/
def insertRow (out : Dict String Endpoint) (values : List Json.Value) : Except Error (Dict String Endpoint) :=
  if values.length < 7 then .ok out
  else do
    let endpoint ← endpointAt values
    return out.insert endpoint.containerId endpoint

def parseRows (bytes : List UInt8) : Except Error (Dict String Endpoint) :=
  (parseValueRows fromSlice bytes).foldlM insertRow ∅

end Parse

/-! ### Calls -/

def upsertSql : String :=
  "INSERT INTO service_endpoints " ++
  "(container_id, container_name, namespace, host_mgmt_ip, container_ip, state, health, updated_at) " ++
  "VALUES (?, ?, ?, ?, ?, ?, ?, ?) " ++
  "ON CONFLICT(container_id) DO UPDATE SET " ++
  "container_name = excluded.container_name, " ++
  "namespace      = excluded.namespace, " ++
  "host_mgmt_ip   = excluded.host_mgmt_ip, " ++
  "container_ip   = excluded.container_ip, " ++
  "state          = excluded.state, " ++
  "health         = excluded.health, " ++
  "updated_at     = excluded.updated_at"

def deleteSql : String := "DELETE FROM service_endpoints WHERE container_id = ?"

def snapshotSql : String :=
  "SELECT container_id, container_name, namespace, host_mgmt_ip, container_ip, state, health " ++
  "FROM service_endpoints WHERE host_mgmt_ip = ?"

/-- The statement as it is sent. -/
def toSql : Statement → SqlStatement
  | .upsert ep nowMs => ⟨upsertSql, [.string ep.containerId, .string ep.containerName, .string ep.namespace_,
      .string ep.hostMgmtIp, .string ep.containerIp, .string ep.state, .string ep.health, .number (.int nowMs)]⟩
  | .delete containerId => ⟨deleteSql, [.string containerId]⟩

section Client

variable (env : Env)

def post (r : Request) : Call (List UInt8) := do
  let res ← request (fun sent r => (env.answer sent r).mapError .post) r
  let bytes ← ofExcept (res.bytes.mapError .read)
  if !res.success then throw (.status res.status bytes)
  return bytes

def snapshotQuery (hostMgmtIp : String) : SqlStatement := ⟨snapshotSql, [.string hostMgmtIp]⟩

def snapshotForHost (hostMgmtIp : String) : Call (Dict String Endpoint) := do
  let bytes ← post env (.query (snapshotQuery hostMgmtIp))
  ofExcept (parseRows env.fromSlice bytes)

def queryValues (sql : String) (params : List Json.Value) : Call (List (List Json.Value)) := do
  let bytes ← post env (.query ⟨sql, params⟩)
  return parseValueRows env.fromSlice bytes

def transaction (statements : List SqlStatement) : Call Unit := do
  if statements = [] then return ()
  let _ ← post env (.transaction statements)

/-- The part of `reconcile_once` that concerns the endpoints, once the desired ones are known.  The differences come in
any order. -/
def reconcileEndpoints (order : List Delta → List Delta) (nowMs : Int) (hostMgmtIp : String)
    (desired : Dict String Endpoint) : Call Nat := do
  let current ← snapshotForHost env hostMgmtIp
  let deltas := order (diff desired current)
  transaction env ((buildStatements nowMs deltas).map toSql)
  return deltas.length

end Client

/-! ### The server -/

/-- What the server does with the two statements; others are refused. -/
def execute (table : Table) (statement : SqlStatement) : Option Table :=
  if statement.sql = upsertSql then
    match statement.params with
    | [.string containerId, .string containerName, .string namespace_, .string hostMgmtIp, .string containerIp,
        .string state, .string health, .number (.int updatedAt)] =>
      some (table.apply (.upsert ⟨containerId, containerName, namespace_, hostMgmtIp, containerIp, state, health⟩
        updatedAt))
    | _ => none
  else if statement.sql = deleteSql then
    match statement.params with
    | [.string containerId] => some (table.apply (.delete containerId))
    | _ => none
  else none

/-- A transaction is executed as a whole. -/
def executeAll (table : Table) (statements : List SqlStatement) : Option Table := statements.foldlM execute table

def hostEndpoints (table : Table) (host : String) : List Endpoint :=
  (table.rows.retain fun _ row => row.endpoint.hostMgmtIp = host).entries.map fun e => e.2.endpoint

/-- The columns of the query of a host. -/
def rowValues (e : Endpoint) : List Json.Value :=
  [.string e.containerId, .string e.containerName, .string e.namespace_, .string e.hostMgmtIp, .string e.containerIp,
    .string e.state, .string e.health]

/-- The answer to a query: ended lines, of which those that are rows have the given values. -/
def IsAnswer (fromSlice : List UInt8 → Option Frame) (bytes : List UInt8) (rows : List (List Json.Value)) : Prop :=
  ∃ lines : List (List UInt8), bytes = lines.flatMap (· ++ [newline]) ∧ (∀ line ∈ lines, newline ∉ line ∧ line ≠ []) ∧
    rows = lines.filterMap fun line => (fromSlice line).bind valuesOfFrame

structure Answers (env : Env) (result : Except String Response) (rows : List (List Json.Value)) : Prop where
  answered : ∃ res bytes, result = .ok res ∧ res.success = true ∧ res.bytes = .ok bytes ∧
    IsAnswer env.fromSlice bytes rows

/-- What a request does to the table; a transaction that is refused does nothing. -/
def afterRequest (table : Table) : Request → Table
  | .query _ => table
  | .transaction statements => (executeAll table statements).getD table

/-- A server whose table is `tableAt sent` after the requests `sent`.  It answers the query of a host with its rows, in
any order; other hosts may write rows of theirs between the requests, but nobody else writes those of the host. -/
structure Serves (env : Env) (host : String) (tableAt : List Request → Table) (sent : List Request) : Prop where
  rows : ∃ es : List Endpoint, es.Perm (hostEndpoints (tableAt sent) host) ∧
    Answers env (env.answer sent (.query (snapshotQuery host))) (es.map rowValues)
  own : ∀ before r id, ((tableAt (before ++ [r])).snapshotForHost host).lookup id =
    ((afterRequest (tableAt before) r).snapshotForHost host).lookup id

/-! ### Reading -/

section Reading

variable {fromSlice : List UInt8 → Option Frame}

private theorem splitOn_lines {lines : List (List UInt8)} (h : ∀ line ∈ lines, newline ∉ line) :
    (lines.flatMap (· ++ [newline])).splitOn newline = lines ++ [[]] := by
  induction lines with
  | nil => rfl
  | cons line lines ih =>
    have hline : line.splitOn newline = [line] := List.splitOn_eq_singleton (h line List.mem_cons_self)
    rw [List.flatMap_cons, List.append_assoc, List.singleton_append, List.splitOn_append_cons_self, hline,
      ih fun l hl => h l (List.mem_cons_of_mem line hl)]
    rfl

/-- The values of the rows of an answer are read back. -/
theorem parseValueRows_of_isAnswer {bytes : List UInt8} {rows : List (List Json.Value)}
    (h : IsAnswer fromSlice bytes rows) : parseValueRows fromSlice bytes = rows := by
  obtain ⟨lines, rfl, hlines, rfl⟩ := h
  rw [parseValueRows, splitOn_lines fun line hline => (hlines line hline).1, List.filterMap_append]
  have hend : [[]].filterMap (valuesOfLine fromSlice) = [] := rfl
  rw [hend, List.append_nil]
  refine List.filterMap_congr fun line hline => ?_
  rw [valuesOfLine, if_neg (hlines line hline).2]

private theorem insertRow_rowValues (out : Dict String Endpoint) (e : Endpoint) :
    insertRow out (rowValues e) = .ok (out.insert e.containerId e) := rfl

private theorem foldlM_insertRow (out : Dict String Endpoint) (es : List Endpoint) :
    (es.map rowValues).foldlM insertRow out = .ok (es.foldl (fun out e => out.insert e.containerId e) out) := by
  induction es generalizing out with
  | nil => rfl
  | cons e es ih =>
    rw [List.map_cons, List.foldlM_cons, insertRow_rowValues]
    exact ih _

private theorem parseRows_of_isAnswer {bytes : List UInt8} {es : List Endpoint}
    (h : IsAnswer fromSlice bytes (es.map rowValues)) :
    parseRows fromSlice bytes = .ok (Dict.collect (es.map fun e => (e.containerId, e))) := by
  rw [parseRows, parseValueRows_of_isAnswer h, foldlM_insertRow, Dict.collect, List.foldl_map]

/-- In whatever order the rows of a host are read, they are the snapshot of the host. -/
private theorem lookup_collect_hostEndpoints {table : Table} {host : String} {es : List Endpoint}
    (h : es.Perm (hostEndpoints table host)) (id : String) :
    (Dict.collect (es.map fun e => (e.containerId, e))).lookup id = (table.snapshotForHost host).lookup id := by
  have hperm : (es.map fun e => (e.containerId, e)).Perm
      ((table.rows.retain fun _ row => row.endpoint.hostMgmtIp = host).entries.map
        fun e => (e.2.endpoint.containerId, e.2.endpoint)) := by
    have hmap := h.map fun e : Endpoint => (e.containerId, e)
    rwa [hostEndpoints, List.map_map] at hmap
  have hnodup := Table.nodup_containerIds table host
  refine Option.ext fun e => ?_
  rw [Table.snapshotForHost, Dict.lookup_collect_eq_some_iff ((hperm.map Prod.fst).nodup_iff.2 hnodup),
    Dict.lookup_collect_eq_some_iff hnodup]
  exact hperm.mem_iff

end Reading

/-! ### Writing -/

private theorem execute_toSql (table : Table) (statement : Statement) :
    execute table (toSql statement) = some (table.apply statement) := by
  cases statement with
  | upsert ep nowMs => exact if_pos rfl
  | delete containerId =>
    have hne : deleteSql ≠ upsertSql := by decide
    exact (if_neg hne).trans (if_pos rfl)

private theorem executeAll_map_toSql (table : Table) (statements : List Statement) :
    executeAll table (statements.map toSql) = some (table.applyAll statements) := by
  induction statements generalizing table with
  | nil => rfl
  | cons statement statements ih =>
    rw [executeAll, List.map_cons, List.foldlM_cons, execute_toSql]
    exact ih (table.apply statement)

section Calls

variable {env : Env} {sent sent' : List Request}

private theorem mapError_eq_ok_iff {α ε ε' : Type} {f : ε → ε'} {x : Except ε α} {a : α} :
    x.mapError f = .ok a ↔ x = .ok a := by
  cases x with
  | ok b => rw [Except.mapError, Except.ok.injEq, Except.ok.injEq]
  | error e => exact iff_of_false (fun h => by cases h) (fun h => by cases h)

theorem returns_post_iff {r : Request} {bytes : List UInt8} : Returns (post env r) sent bytes sent' ↔
    ∃ res, env.answer sent r = .ok res ∧ res.bytes = .ok bytes ∧ res.success = true ∧ sent' = sent ++ [r] := by
  rw [post, returns_bind_iff]
  constructor
  · rintro ⟨res, sent₁, hrequest, h⟩
    obtain ⟨hres, rfl⟩ := returns_request_iff.1 hrequest
    obtain ⟨bytes', sent₂, hread, h⟩ := returns_bind_iff.1 h
    obtain ⟨hbytes, rfl⟩ := returns_ofExcept_iff.1 hread
    obtain ⟨hsuccess, h⟩ := returns_check_iff.1 h
    obtain ⟨rfl, rfl⟩ := returns_pure_iff.1 h
    rw [Bool.not_eq_true', Bool.not_eq_false] at hsuccess
    exact ⟨res, mapError_eq_ok_iff.1 hres, mapError_eq_ok_iff.1 hbytes, hsuccess, rfl⟩
  · rintro ⟨res, hres, hbytes, hsuccess, rfl⟩
    refine ⟨res, _, returns_request_iff.2 ⟨mapError_eq_ok_iff.2 hres, rfl⟩, ?_⟩
    refine returns_bind_iff.2 ⟨bytes, _, returns_ofExcept_iff.2 ⟨mapError_eq_ok_iff.2 hbytes, rfl⟩, ?_⟩
    refine returns_check_iff.2 ⟨?_, returns_pure_iff.2 ⟨rfl, rfl⟩⟩
    rw [hsuccess]
    exact Bool.false_ne_true

/-- What is read from a server is the snapshot of the host. -/
private theorem returns_snapshotForHost_of_serves {host : String} {tableAt : List Request → Table}
    (h : Serves env host tableAt sent) : ∃ current : Dict String Endpoint,
      (∀ id, current.lookup id = ((tableAt sent).snapshotForHost host).lookup id) ∧
        ∀ m sent', Returns (snapshotForHost env host) sent m sent' ↔
          m = current ∧ sent' = sent ++ [.query (snapshotQuery host)] := by
  obtain ⟨es, hperm, ⟨res, bytes, hres, hsuccess, hbytes, hanswer⟩⟩ := h.rows
  refine ⟨Dict.collect (es.map fun e => (e.containerId, e)), lookup_collect_hostEndpoints hperm, fun m sent' => ?_⟩
  rw [snapshotForHost, returns_bind_iff]
  constructor
  · rintro ⟨bytes', sent₁, hpost, h⟩
    obtain ⟨res', hres', hbytes', -, rfl⟩ := returns_post_iff.1 hpost
    obtain rfl := Except.ok.inj (hres.symm.trans hres')
    obtain rfl := Except.ok.inj (hbytes.symm.trans hbytes')
    obtain ⟨hrows, rfl⟩ := returns_ofExcept_iff.1 h
    rw [parseRows_of_isAnswer hanswer] at hrows
    exact ⟨(Except.ok.inj hrows).symm, rfl⟩
  · rintro ⟨rfl, rfl⟩
    refine ⟨bytes, _, returns_post_iff.2 ⟨res, hres, hbytes, hsuccess, rfl⟩, ?_⟩
    exact returns_ofExcept_iff.2 ⟨parseRows_of_isAnswer hanswer, rfl⟩

/-- A transaction without statements is not sent. -/
private theorem returns_transaction_iff {statements : List SqlStatement} {u : Unit} :
    Returns (transaction env statements) sent u sent' ↔
      (statements = [] ∧ sent' = sent) ∨
      (statements ≠ [] ∧ (∃ bytes, Returns (post env (.transaction statements)) sent bytes sent')) := by
  rw [transaction]
  by_cases hnil : statements = []
  · rw [if_pos hnil]
    refine returns_pure_iff.trans ⟨fun h => Or.inl ⟨hnil, h.2⟩, fun h => ?_⟩
    rcases h with h | h
    · exact ⟨rfl, h.2⟩
    · exact absurd hnil h.1
  · rw [if_neg hnil, returns_bind_iff]
    constructor
    · rintro ⟨bytes, sent₁, hpost, h⟩
      obtain ⟨-, rfl⟩ := returns_pure_iff.1 h
      exact Or.inr ⟨hnil, bytes, hpost⟩
    · rintro (h | ⟨-, bytes, hpost⟩)
      · exact absurd h.1 hnil
      · exact ⟨bytes, _, hpost, returns_pure_iff.2 ⟨rfl, rfl⟩⟩

/-- The statements of a reconciliation, in the order in which they are sent. -/
private theorem perm_statements {host : String} {order : List Delta → List Delta} (horder : ∀ ds, (order ds).Perm ds)
    (nowMs : Int) (desired : HostEndpoints host) (current : Dict String Endpoint) :
    (buildStatements nowMs (order (diff desired.map current))).Perm (reconcileStatements nowMs desired current) :=
  (horder _).map _

section Wire

variable {host : String} {tableAt : List Request → Table} {nowMs : Int} {desired : HostEndpoints host}
  {current : Dict String Endpoint} {deltas : List Delta}

/-- The query changes nothing of the host. -/
private theorem snapshot_after_query (hserves : Serves env host tableAt sent) (statement : SqlStatement) (id : String) :
    ((tableAt (sent ++ [.query statement])).snapshotForHost host).lookup id =
      ((tableAt sent).snapshotForHost host).lookup id := hserves.own sent (.query statement) id

/-- The rows of the host after the query and the transaction. -/
private theorem snapshot_after_transaction (hserves : Serves env host tableAt sent)
    (hcurrent : ∀ id, current.lookup id = ((tableAt sent).snapshotForHost host).lookup id)
    (hperm : (buildStatements nowMs deltas).Perm (reconcileStatements nowMs desired current)) (id : String) :
    ((tableAt (sent ++ [.query (snapshotQuery host)] ++
        [.transaction ((buildStatements nowMs deltas).map toSql)])).snapshotForHost host).lookup id =
      desired.map.lookup id := by
  rw [hserves.own, afterRequest, executeAll_map_toSql, Option.getD_some, lookup_snapshotForHost_applyAll hperm,
    snapshot_after_query hserves, ← hcurrent]
  by_cases heq : desired.map.lookup id = current.lookup id
  · rw [if_pos heq, heq]
  · rw [if_neg heq]

private theorem deltas_eq_nil_iff
    (hcurrent : ∀ id, current.lookup id = ((tableAt sent).snapshotForHost host).lookup id)
    (hperm : (buildStatements nowMs deltas).Perm (reconcileStatements nowMs desired current)) :
    deltas = [] ↔ ∀ id, desired.map.lookup id = ((tableAt sent).snapshotForHost host).lookup id := by
  have hbuilt : buildStatements nowMs deltas = [] ↔ deltas = [] := by rw [buildStatements, List.map_eq_nil_iff]
  have hnil : buildStatements nowMs deltas = [] ↔ reconcileStatements nowMs desired current = [] := by
    refine ⟨fun h => ?_, fun h => ?_⟩
    · rw [h] at hperm
      exact hperm.symm.eq_nil
    · rw [h] at hperm
      exact hperm.eq_nil
  rw [← hbuilt, hnil, reconcileStatements_eq_nil_iff]
  exact forall_congr' fun id => by rw [hcurrent]

end Wire

/-- A reconciliation through a server that nobody else uses to write rows of the host: when it ends well, the rows of the
host in the table are the desired endpoints, and it has sent a transaction exactly if they were not before; and it does
end well if the server takes every transaction. -/
theorem reconcile_over_wire (env : Env) (host : String) (tableAt : List Request → Table) (sent : List Request)
    (hserves : Serves env host tableAt sent) (order : List Delta → List Delta) (horder : ∀ ds, (order ds).Perm ds)
    (nowMs : Int) (desired : HostEndpoints host) :
    (∀ n sent', Returns (reconcileEndpoints env order nowMs host desired.map) sent n sent' →
      (∀ id, ((tableAt sent').snapshotForHost host).lookup id = desired.map.lookup id) ∧
        (n = 0 ↔ ∀ id, desired.map.lookup id = ((tableAt sent).snapshotForHost host).lookup id) ∧
        (n = 0 ↔ sent' = sent ++ [.query (snapshotQuery host)])) ∧
      ((∀ sent statements, ∃ bytes sent', Returns (post env (.transaction statements)) sent bytes sent') →
        ∃ n sent', Returns (reconcileEndpoints env order nowMs host desired.map) sent n sent') := by
  obtain ⟨current, hcurrent, hreturns⟩ := returns_snapshotForHost_of_serves hserves
  have hperm := perm_statements horder nowMs desired current
  have hnil := deltas_eq_nil_iff hcurrent hperm
  constructor
  · intro n sent' h
    obtain ⟨m, sent₁, hread, h⟩ := returns_bind_iff.1 h
    obtain ⟨rfl, rfl⟩ := (hreturns m sent₁).1 hread
    obtain ⟨u, sent₂, hwrite, h⟩ := returns_bind_iff.1 h
    obtain ⟨rfl, rfl⟩ := returns_pure_iff.1 h
    rw [List.length_eq_zero_iff]
    rcases returns_transaction_iff.1 hwrite with ⟨hempty, rfl⟩ | ⟨hsome, bytes, hpost⟩
    · have hdeltas : order (diff desired.map m) = [] := by
        rwa [buildStatements, List.map_eq_nil_iff, List.map_eq_nil_iff] at hempty
      refine ⟨fun id => ?_, hnil, iff_of_true hdeltas rfl⟩
      rw [snapshot_after_query hserves, (hnil.1 hdeltas) id]
    · have hdeltas : order (diff desired.map m) ≠ [] := by
        rwa [ne_eq, buildStatements, List.map_eq_nil_iff, List.map_eq_nil_iff] at hsome
      obtain ⟨res, -, -, -, rfl⟩ := returns_post_iff.1 hpost
      refine ⟨snapshot_after_transaction hserves hcurrent hperm, hnil, iff_of_false hdeltas fun hsent => ?_⟩
      have hlength := congrArg List.length hsent
      rw [List.length_append, List.length_singleton] at hlength
      omega
  · intro htakes
    obtain ⟨deltas, hdeltas⟩ : ∃ deltas, deltas = order (diff desired.map current) := ⟨_, rfl⟩
    have hwrite : ∃ sent', Returns (transaction env ((buildStatements nowMs deltas).map toSql))
        (sent ++ [.query (snapshotQuery host)]) () sent' := by
      by_cases hempty : (buildStatements nowMs deltas).map toSql = []
      · exact ⟨_, returns_transaction_iff.2 (Or.inl ⟨hempty, rfl⟩)⟩
      · obtain ⟨bytes, sent', hpost⟩ := htakes (sent ++ [.query (snapshotQuery host)])
          ((buildStatements nowMs deltas).map toSql)
        exact ⟨sent', returns_transaction_iff.2 (Or.inr ⟨hempty, bytes, hpost⟩)⟩
    obtain ⟨sent', hwrite⟩ := hwrite
    refine ⟨deltas.length, sent', returns_bind_iff.2 ⟨current, _, (hreturns _ _).2 ⟨rfl, rfl⟩, ?_⟩⟩
    rw [← hdeltas]
    exact returns_bind_iff.2 ⟨(), sent', hwrite, returns_pure_iff.2 ⟨rfl, rfl⟩⟩

end Calls

section Sample

def quoted (s : String) : String := "\"" ++ s ++ "\""

def sampleRow (e : Endpoint) : List UInt8 :=
  Str.asBytes ("\x7b\"row\":[1,[" ++ ",".intercalate ([e.containerId, e.containerName, e.namespace_, e.hostMgmtIp,
    e.containerIp, e.state, e.health].map quoted) ++ "]]\x7d")

def sampleEoq : List UInt8 := Str.asBytes "\x7b\"eoq\":\x7b\x7d\x7d"

def sampleRows : List Endpoint := [sampleEndpoint "b" "h" "10.0.0.2", sampleEndpoint "a" "h" "10.0.0.1"]

def sampleLines : List (List UInt8) := sampleRows.map sampleRow ++ [sampleEoq]

/-- What the lines of the answer are. -/
def sampleFrame (line : List UInt8) : Option Frame :=
  if line = sampleEoq then some ⟨none⟩
  else (sampleRows.find? fun e => sampleRow e = line).map fun e => ⟨some [.number (.int 1), .array (rowValues e)]⟩

def sampleEnv : Env where
  answer _ r := match r with
    | .query _ => .ok ⟨true, "200 OK", .ok (sampleLines.flatMap (· ++ [newline]))⟩
    | .transaction _ => .ok ⟨true, "200 OK", .ok []⟩
  fromSlice := sampleFrame

def sampleTableAt (sent : List Request) : Table := sent.foldl afterRequest sampleTable

private theorem serves_sampleEnv : Serves sampleEnv "h" sampleTableAt [] := by
  refine ⟨⟨sampleRows, by decide, ⟨_, _, rfl, rfl, rfl, sampleLines, rfl, ?_, ?_⟩⟩, fun before r id => ?_⟩
  · have hall : (sampleLines.all fun line => !line.contains newline && !line.isEmpty) = true := by decide
    intro line hline
    have hgood := List.all_eq_true.1 hall line hline
    rw [Bool.and_eq_true, Bool.not_eq_true', Bool.not_eq_true'] at hgood
    refine ⟨fun hmem => ?_, List.isEmpty_eq_false_iff.1 hgood.2⟩
    rw [List.contains_iff_mem.2 hmem] at hgood
    cases hgood.1
  · rfl
  · rw [sampleTableAt, List.foldl_append]
    rfl

/-- Host `h` moves the address of `a`, drops `b` and takes over `d`. -/
theorem reconcile_over_wire_sample : ∃ n sent',
    Returns (reconcileEndpoints sampleEnv id 2 "h" sampleDesired.map) [] n sent' ∧
      ∀ id, ((sampleTableAt sent').snapshotForHost "h").lookup id = sampleDesired.map.lookup id := by
  obtain ⟨hends, htakes⟩ := reconcile_over_wire sampleEnv "h" sampleTableAt [] serves_sampleEnv id (fun ds => .refl ds) 2
    sampleDesired
  obtain ⟨n, sent', h⟩ := htakes fun sent statements =>
    ⟨[], _, returns_post_iff.2 ⟨⟨true, "200 OK", .ok []⟩, rfl, rfl, rfl, rfl⟩⟩
  exact ⟨n, sent', h, (hends n sent' h).1⟩

end Sample

end Coold.Agent.Corrosion
