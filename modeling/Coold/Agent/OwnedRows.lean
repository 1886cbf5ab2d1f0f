import Coold.Agent.Firewall
import Coold.Lib.Json

/-!
# The rows behind a destination

Corrosion answers the query for a container with lines of JSON, some of which hold a row (`parseEndpointRows`).  The
rows are gossip of all hosts of the mesh.  With the owner check the destination of a rule is resolved from the rows of
this host and from nothing else of the answer: two answers with the same rows of this host give the same result
(`resolveDst_ownedRows`), and lines of other hosts may be added anywhere (`resolveDst_addLines`).
-/

namespace Coold.Agent.Firewall

/-! ### The answer to a query -/

/-- What a line of an answer is read as. -/
structure Frame where
  row : Option (List Json.Value)

structure QueryResponse where
  success : Bool
  bytes : List UInt8

def newline : UInt8 := 10

/-- A row is an id and the values of its columns, of which the first two are read. -/
def endpointOfRow : List Json.Value → Option ServiceEndpoint
  | [_, .array values] => do
    let ip ← values[0]?.bind Json.Value.asString
    let owner ← values[1]?.bind Json.Value.asString
    return ⟨ip, owner⟩
  | _ => none

section Query

variable (fromSlice : List UInt8 → Option Frame)

/-- The rows of an answer; lines that are not rows are skipped. -/
def parseEndpointRows (bytes : List UInt8) : List ServiceEndpoint :=
  ((bytes.splitOn newline).filter fun line => line ≠ []).filterMap fun line =>
    (fromSlice line).bind fun frame => frame.row.bind endpointOfRow

/-- There are no rows if the request cannot be sent or is not successful. -/
def queryEndpointsByName (response : Option QueryResponse) : Option (List ServiceEndpoint) :=
  match response with
  | none => none
  | some r => if r.success then some (parseEndpointRows fromSlice r.bytes) else none

/-- What is looked up when Corrosion answers with these bytes. -/
def answered (bytes : List UInt8) (inspect : Option String) : Lookup :=
  ⟨queryEndpointsByName fromSlice (some ⟨true, bytes⟩), inspect⟩

private theorem parseEndpointRows_append (before after : List UInt8) :
    parseEndpointRows fromSlice (before ++ newline :: after) =
      parseEndpointRows fromSlice before ++ parseEndpointRows fromSlice after := by
  unfold parseEndpointRows
  rw [List.splitOn_append_cons_self, List.filter_append, List.filterMap_append]

end Query

/-! ### The destination -/

/-- The resolution of the destination in `resolveFirewallRule`. -/
def resolveDst (check : EndpointOwnerCheck) (rule : FirewallRule) (dst : Lookup) : Except String String :=
  resolveFirewallEndpoint rule.dst rule.namespace_ s!"coolify-{rule.namespace_}-mesh" dst check.dstOwner

private theorem resolveFirewallRule_eq_bind (check : EndpointOwnerCheck) (rule : FirewallRule) (src dst : Lookup) :
    resolveFirewallRule check rule src dst = do
      let srcIp ← resolveFirewallEndpoint rule.src rule.namespace_ s!"coolify-{rule.namespace_}-mesh" src none
      let dstIp ← resolveDst check rule dst
      return { rule with src := srcIp, dst := dstIp } := rfl

/-- The rows that a host claims. -/
def ownedRows (host : String) (rows : List ServiceEndpoint) : List ServiceEndpoint :=
  rows.filter fun row => row.hostMgmtIp = host

section Owned

variable {fromSlice : List UInt8 → Option Frame} {check : EndpointOwnerCheck} {rule : FirewallRule}
  {inspect : Option String}

private theorem dstOwner_of_strict (hstrict : check.strict = true) : check.dstOwner = some check.hostMgmtIp :=
  if_pos hstrict

private theorem selectEndpointIps_some (rows : List ServiceEndpoint) (host : String) :
    selectEndpointIps rows (some host) = (ownedRows host rows).map ServiceEndpoint.containerIp := rfl

private theorem ownedRows_ownedRows (host : String) (rows : List ServiceEndpoint) :
    ownedRows host (ownedRows host rows) = ownedRows host rows := by
  simp [ownedRows]

/-- Rows of other hosts are not seen, wherever they stand. -/
private theorem ownedRows_eq_nil {host : String} {rows : List ServiceEndpoint}
    (h : ∀ row ∈ rows, row.hostMgmtIp ≠ host) :
    ownedRows host rows = [] := by
  simpa [ownedRows] using h

/-- With the owner check the rows of this host and the local container decide. -/
private theorem resolveDst_congr (hstrict : check.strict = true) {rows rows' : List ServiceEndpoint}
    (h : ownedRows check.hostMgmtIp rows = ownedRows check.hostMgmtIp rows') :
    resolveDst check rule ⟨some rows, inspect⟩ = resolveDst check rule ⟨some rows', inspect⟩ := by
  have hips : selectEndpointIps rows check.dstOwner = selectEndpointIps rows' check.dstOwner := by
    rw [dstOwner_of_strict hstrict, selectEndpointIps_some, selectEndpointIps_some, h]
  unfold resolveDst resolveFirewallEndpoint
  simp only [hips]

/-- The two errors of a lookup that Corrosion has answered are told apart by their first letter. -/
private theorem error_ne (value namespace_ network : String) :
    s!"resolve firewall endpoint {value} on {network}" ≠
      s!"firewall endpoint {value} in namespace {namespace_} resolved to multiple IPs" := by
  intro h
  have hlist := congrArg String.toList h
  simp [toString] at hlist

/-- A destination with several addresses has several rows of this host. -/
private theorem two_le_of_multiple (hstrict : check.strict = true) {rows : List ServiceEndpoint}
    (h : resolveDst check rule ⟨some rows, inspect⟩ =
      .error s!"firewall endpoint {rule.dst} in namespace {rule.namespace_} resolved to multiple IPs") :
    2 ≤ (ownedRows check.hostMgmtIp rows).length := by
  unfold resolveDst resolveFirewallEndpoint at h
  split at h
  · cases h
  · simp only [dstOwner_of_strict hstrict, selectEndpointIps_some] at h
    match hrows : ownedRows check.hostMgmtIp rows with
    | [] =>
      simp only [hrows, List.map_nil, firewallEndpointIp] at h
      split at h
      · exact absurd (Except.error.inj h) (error_ne _ _ _)
      · cases h
    | [row] =>
      simp only [hrows, List.map_cons, List.map_nil, firewallEndpointIp] at h
      cases h
    | row :: row' :: rest => simp

/-- Lines of other hosts that are added to an answer change nothing. -/
theorem resolveDst_addLines (hstrict : check.strict = true) {forged : List UInt8}
    (hforged : ∀ row ∈ parseEndpointRows fromSlice forged, row.hostMgmtIp ≠ check.hostMgmtIp)
    (before after : List UInt8) :
    resolveDst check rule (answered fromSlice (before ++ newline :: (forged ++ newline :: after)) inspect) =
      resolveDst check rule (answered fromSlice (before ++ newline :: after) inspect) := by
  refine resolveDst_congr hstrict ?_
  have hnil := ownedRows_eq_nil hforged
  unfold ownedRows at hnil ⊢
  simp only [parseEndpointRows_append, List.filter_append, hnil, List.nil_append]

end Owned

/-- With the owner check the destination of a rule depends on the rows of this host and on the local container alone.
The rows of other hosts change neither an address nor an error, and they are no reason for several addresses. -/
theorem resolveDst_ownedRows (fromSlice : List UInt8 → Option Frame) (check : EndpointOwnerCheck)
    (hstrict : check.strict = true) (rule : FirewallRule) (inspect : Option String) {bytes bytes' : List UInt8}
    (h : ownedRows check.hostMgmtIp (parseEndpointRows fromSlice bytes) =
      ownedRows check.hostMgmtIp (parseEndpointRows fromSlice bytes')) :
    resolveDst check rule (answered fromSlice bytes inspect) =
        resolveDst check rule (answered fromSlice bytes' inspect) ∧
      (∀ src, resolveFirewallRule check rule src (answered fromSlice bytes inspect) =
        resolveFirewallRule check rule src (answered fromSlice bytes' inspect)) ∧
      resolveDst check rule (answered fromSlice bytes inspect) =
        resolveDst check rule ⟨some (ownedRows check.hostMgmtIp (parseEndpointRows fromSlice bytes)), inspect⟩ ∧
      (resolveDst check rule (answered fromSlice bytes inspect) =
          .error s!"firewall endpoint {rule.dst} in namespace {rule.namespace_} resolved to multiple IPs" →
        2 ≤ (ownedRows check.hostMgmtIp (parseEndpointRows fromSlice bytes)).length) := by
  have hdst : resolveDst check rule (answered fromSlice bytes inspect) =
      resolveDst check rule (answered fromSlice bytes' inspect) := resolveDst_congr hstrict h
  refine ⟨hdst, fun src => ?_, ?_, two_le_of_multiple hstrict⟩
  · rw [resolveFirewallRule_eq_bind, resolveFirewallRule_eq_bind, hdst]
  · exact resolveDst_congr hstrict (ownedRows_ownedRows _ _).symm

/-! ### A forged row -/

/-- The row of this host. -/
def ownLine : List UInt8 := Str.asBytes "\x7b\"row\":[1,[\"10.210.0.4\",\"100.64.0.5\"]]\x7d"

/-- A row that another host claims. -/
def forgedLine : List UInt8 := Str.asBytes "\x7b\"row\":[2,[\"10.9.9.9\",\"100.64.0.9\"]]\x7d"

/-- What `serde_json` makes of these lines and of one that ends too early. -/
def sampleFrame (line : List UInt8) : Option Frame :=
  if line = ownLine then some ⟨some [.number (.int 1), .array [.string "10.210.0.4", .string "100.64.0.5"]]⟩
  else if line = forgedLine then some ⟨some [.number (.int 2), .array [.string "10.9.9.9", .string "100.64.0.9"]]⟩
  else none

def webRule : FirewallRule := ⟨"r", "default", "10.210.1.7", "web", "tcp", 80⟩

/-- Two forged rows and a broken line around the row of this host. -/
theorem resolveDst_ownedRows_forged :
    resolveDst ⟨"100.64.0.5", true⟩ webRule
        (answered sampleFrame (forgedLine ++ newline :: (ownLine ++ newline :: (forgedLine ++ newline :: [123]))) none) =
      .ok "10.210.0.4" := by
  have howned : ownedRows "100.64.0.5" (parseEndpointRows sampleFrame
      (forgedLine ++ newline :: (ownLine ++ newline :: (forgedLine ++ newline :: [123])))) =
      ownedRows "100.64.0.5" (parseEndpointRows sampleFrame ownLine) := by decide
  rw [(resolveDst_ownedRows sampleFrame ⟨"100.64.0.5", true⟩ rfl webRule none howned).1]
  decide

end Coold.Agent.Firewall
