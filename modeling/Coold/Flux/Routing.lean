import Coold.Flux.Streams
import Coold.Lib.Json
import Coold.Proto

/-!
# Envelopes and routing

A `DispatchEnvelope` is what Laravel posts to the UDS bridge, a `ResponseBody` what it gets back.  `routeCoold`
turns an envelope into a message for the stream of its host, after checking that the host is connected and that its
stream is authorized for the command.
-/

namespace Coold.Flux

/-- The commands of the bridge, after deserialization. -/
inductive CommandPayload where
  | imagesPull (reference : String)
  | imagesList
  | imagesDelete (reference : String) (force : Bool)
  | containersCreate (req : ContainersCreateReq)
  | containersStart (id : String)
  | containersStop (id : String) (timeoutSeconds : Nat)
  | containersRestart (id : String) (timeoutSeconds : Nat)
  | containersDelete (id : String) (force : Bool)
  | containersInspect (id : String)
  | containersList
  | containersLogs (id : String) (tail : Nat) (stdout stderr : Bool)
  | containersExec (id : String) (command : List String)
  | containersHealthcheckRun (id : String)
  | applyIngress (kind config : String) (apps : List IngressAppConfig) (meshNetwork : String)
  | stopIngress (kind : String)
  | firewallAllow (id namespace_ src dst proto : String) (port : Nat)
  | firewallRevoke (id : String)
  | firewallList (namespace_ : String)
  | firewallReconcile
  | cooldLogs (tail : Nat)
  | corrosionTables (limit : Nat)
  | hostJwtSet (jwt : String)
  deriving DecidableEq

structure DispatchEnvelope where
  hostId : String
  requestId : String
  command : CommandPayload
  deriving DecidableEq

def requiredCapability : CommandPayload → String
  | .imagesPull _ => "images.pull"
  | .imagesList => "images.list"
  | .imagesDelete _ _ => "images.delete"
  | .containersCreate _ => "containers.create"
  | .containersStart _ => "containers.start"
  | .containersStop _ _ => "containers.stop"
  | .containersRestart _ _ => "containers.restart"
  | .containersDelete _ _ => "containers.delete"
  | .containersInspect _ => "containers.inspect"
  | .containersList => "containers.list"
  | .containersLogs _ _ _ _ => "containers.logs"
  | .containersExec _ _ => "containers.exec"
  | .containersHealthcheckRun _ => "containers.healthcheck.run"
  | .applyIngress _ _ _ _ => "ingress.apply"
  | .stopIngress _ => "ingress.stop"
  | .firewallAllow _ _ _ _ _ _ => "firewall.allow"
  | .firewallRevoke _ => "firewall.revoke"
  | .firewallList _ => "firewall.list"
  | .firewallReconcile => "firewall.reconcile"
  | .cooldLogs _ => "coold.logs"
  | .corrosionTables _ => "corrosion.tables"
  | .hostJwtSet _ => "host.jwt.set"

/-- The command on the wire. -/
def CommandPayload.toCommand : CommandPayload → Command
  | .imagesPull reference => .imagesPull reference
  | .imagesList => .imagesList
  | .imagesDelete reference force => .imagesDelete reference force
  | .containersCreate req => .containersCreate req
  | .containersStart id => .containersStart id
  | .containersStop id timeoutSeconds => .containersStop id timeoutSeconds
  | .containersRestart id timeoutSeconds => .containersRestart id timeoutSeconds
  | .containersDelete id force => .containersDelete id force
  | .containersInspect id => .containersInspect id
  | .containersList => .containersList
  | .containersLogs id tail stdout stderr => .containersLogs id tail stdout stderr
  | .containersExec id command => .containersExec id command
  | .containersHealthcheckRun id => .containersHealthcheckRun id
  | .applyIngress kind config apps meshNetwork => .ingressApply kind config meshNetwork apps
  | .stopIngress kind => .ingressStop kind
  | .firewallAllow id namespace_ src dst proto port =>
    .firewallAllow (some { id := id, namespace_ := namespace_, src := src, dst := dst, proto := proto, port := port })
  | .firewallRevoke id => .firewallRevoke id
  | .firewallList namespace_ => .firewallList namespace_
  | .firewallReconcile => .firewallReconcile
  | .cooldLogs tail => .cooldLogs tail
  | .corrosionTables limit => .corrosionTables limit
  | .hostJwtSet jwt => .hostJwtSet jwt

inductive RouteOutcome where
  | sendCoold (hostId : String) (msg : ServerMsg)
  | pushError (code : Nat) (message : String)
  deriving DecidableEq

def routeCoold (streams : Streams) (env : DispatchEnvelope) : RouteOutcome :=
  match streams.get env.hostId with
  | none => .pushError 404 "host not connected"
  | some stream =>
    let capability := requiredCapability env.command
    if capability ∉ stream.caps then
      if capability ∈ stream.advertisedCaps then
        .pushError 403 ("capability " ++ capability ++ " is not authorized for this host token")
      else .pushError 501 ("primitive " ++ capability ++ " is not supported by host")
    else .sendCoold env.hostId { requestId := env.requestId, command := some env.command.toCommand }

/-- A command is routed only to a connected host whose stream is authorized for it. -/
theorem routeCoold_eq_sendCoold {streams : Streams} {env : DispatchEnvelope} {hostId : String} {msg : ServerMsg}
    (h : routeCoold streams env = .sendCoold hostId msg) :
    hostId = env.hostId ∧ msg = { requestId := env.requestId, command := some env.command.toCommand } ∧
      ∃ handle, streams.get env.hostId = some handle ∧ requiredCapability env.command ∈ handle.caps := by
  unfold routeCoold at h
  cases hs : streams.get env.hostId with
  | none => simp [hs] at h
  | some handle =>
    simp only [hs] at h
    by_cases hc : requiredCapability env.command ∈ handle.caps
    · rw [if_neg (not_not_intro hc)] at h
      obtain ⟨rfl, rfl⟩ := RouteOutcome.sendCoold.injEq .. ▸ h
      exact ⟨rfl, rfl, handle, rfl, hc⟩
    · rw [if_pos hc] at h
      split at h <;> cases h

/-- The capability that a command on the wire needs; a ping needs none. -/
def commandCapability : Command → Option String
  | .ping => none
  | .imagesPull _ => some "images.pull"
  | .imagesList => some "images.list"
  | .imagesDelete _ _ => some "images.delete"
  | .containersCreate _ => some "containers.create"
  | .containersStart _ => some "containers.start"
  | .containersStop _ _ => some "containers.stop"
  | .containersRestart _ _ => some "containers.restart"
  | .containersDelete _ _ => some "containers.delete"
  | .containersInspect _ => some "containers.inspect"
  | .containersList => some "containers.list"
  | .containersLogs _ _ _ _ => some "containers.logs"
  | .containersExec _ _ => some "containers.exec"
  | .containersHealthcheckRun _ => some "containers.healthcheck.run"
  | .ingressApply _ _ _ _ => some "ingress.apply"
  | .ingressStop _ => some "ingress.stop"
  | .firewallAllow _ => some "firewall.allow"
  | .firewallRevoke _ => some "firewall.revoke"
  | .firewallList _ => some "firewall.list"
  | .firewallReconcile => some "firewall.reconcile"
  | .cooldLogs _ => some "coold.logs"
  | .corrosionTables _ => some "corrosion.tables"
  | .hostJwtSet _ => some "host.jwt.set"

theorem commandCapability_toCommand (c : CommandPayload) :
    commandCapability c.toCommand = some (requiredCapability c) := by
  cases c <;> rfl

/-! ### Answers -/

inductive ResponseBody where
  | ok (data : Json.Value)
  | error (code : Nat) (message : String)

def outputData (output : String) : Json.Value := .object [("output", .string output)]

def stringsData (l : List String) : Json.Value := .array (l.map .string)

/-- Convert a response of coold; `fromStr` is `serde_json::from_str`. -/
def ResponseBody.tryFromProto (fromStr : String → Option Json.Value) (resp : Response) : Option ResponseBody :=
  match resp.body with
  | some (.containersList containers) =>
    some (.ok (.array (containers.map fun c =>
      .object [("id", .string c.id), ("name", .string c.name), ("image", .string c.image),
        ("state", .string c.state), ("networks", stringsData c.networks)])))
  | some (.imagesPull digest output) => some (.ok (.object [("digest", .string digest), ("output", .string output)]))
  | some (.imagesList images) =>
    some (.ok (.array (images.map fun image =>
      .object [("id", .string image.id), ("repo_tags", stringsData image.repoTags),
        ("repo_digests", stringsData image.repoDigests), ("size", .number (.int image.size)),
        ("created", .string image.created)])))
  | some (.imagesDelete output) => some (.ok (outputData output))
  | some (.containersCreate id) => some (.ok (.object [("id", .string id)]))
  | some (.containersStart output) => some (.ok (outputData output))
  | some (.containersStop output) => some (.ok (outputData output))
  | some (.containersRestart output) => some (.ok (outputData output))
  | some (.containersDelete output) => some (.ok (outputData output))
  | some (.containersInspect json) => some (.ok ((fromStr json).getD (.object [("raw", .string json)])))
  | some (.containersLogs output) => some (.ok (outputData output))
  | some (.containersExec exitCode output) =>
    some (.ok (.object [("exit_code", .number (.int exitCode)), ("output", .string output)]))
  | some (.containersHealthcheckRun output) => some (.ok (outputData output))
  | some (.ingressApply output) => some (.ok (outputData output))
  | some (.ingressStop output) => some (.ok (outputData output))
  | some (.firewallAllow id output) => some (.ok (.object [("id", .string id), ("output", .string output)]))
  | some (.firewallRevoke output) => some (.ok (outputData output))
  | some (.firewallList rules) =>
    some (.ok (.array (rules.map fun rule =>
      .object [("id", .string rule.id), ("namespace", .string rule.namespace_), ("src", .string rule.src),
        ("dst", .string rule.dst), ("proto", .string rule.proto), ("port", .number (.int rule.port))])))
  | some (.firewallReconcile output) => some (.ok (outputData output))
  | some (.cooldLogs output) => some (.ok (outputData output))
  | some (.corrosionTables output) => some (.ok (outputData output))
  | some (.hostJwtSet applied) => some (.ok (.object [("applied", .bool applied)]))
  | some (.error code message) => some (.error code message)
  | none => some (.error 500 "empty response body")

/-- Every response converts. -/
theorem ResponseBody.isSome_tryFromProto (fromStr : String → Option Json.Value) (resp : Response) :
    (ResponseBody.tryFromProto fromStr resp).isSome := by
  unfold tryFromProto
  split <;> rfl

end Coold.Flux
