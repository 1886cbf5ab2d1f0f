import Mathlib.Logic.Basic

/-!
# The `Agent.Stream` messages

The messages of `proto/agent.proto`: coold opens the stream, sends a `Hello` and then answers and status updates
(`ClientMsg`); flux sends commands (`ServerMsg`).  A `oneof` that is not set is `none`.
-/

namespace Coold

/-! ### From coold to flux -/

structure Hello where
  hostMgmtIp : String
  cooldVersion : String
  schemaMin : Nat
  schemaMax : Nat
  capabilities : List String
  deriving DecidableEq

structure Pong where
  requestId : String
  deriving DecidableEq

structure ResourceStatusUpdate where
  resourceType : String
  hostId : String
  containerId : String
  containerName : String
  status : String
  statusMessage : String
  deriving DecidableEq

structure ImageSummary where
  id : String
  repoTags : List String
  repoDigests : List String
  size : Int
  created : String
  deriving DecidableEq

structure ContainerSummary where
  id : String
  name : String
  image : String
  state : String
  networks : List String
  deriving DecidableEq

/-- A firewall rule, as commands and answers carry it. -/
structure FirewallRule where
  namespace_ : String
  src : String
  dst : String
  proto : String
  port : Nat
  id : String
  deriving DecidableEq

/-- The `body` of a `Response`. -/
inductive ResponseBodyMsg where
  | imagesPull (digest output : String)
  | imagesList (images : List ImageSummary)
  | imagesDelete (output : String)
  | containersCreate (id : String)
  | containersStart (output : String)
  | containersStop (output : String)
  | containersRestart (output : String)
  | containersDelete (output : String)
  | containersInspect (json : String)
  | containersList (containers : List ContainerSummary)
  | containersLogs (output : String)
  | containersExec (exitCode : Int) (output : String)
  | containersHealthcheckRun (output : String)
  | ingressApply (output : String)
  | ingressStop (output : String)
  | firewallAllow (id output : String)
  | firewallRevoke (output : String)
  | firewallList (rules : List FirewallRule)
  | firewallReconcile (output : String)
  | cooldLogs (output : String)
  | corrosionTables (output : String)
  | hostJwtSet (applied : Bool)
  | error (code : Nat) (message : String)
  deriving DecidableEq

structure Response where
  requestId : String
  body : Option ResponseBodyMsg
  deriving DecidableEq

inductive ClientPayload where
  | hello (hello : Hello)
  | response (resp : Response)
  | resourceStatusUpdate (update : ResourceStatusUpdate)
  | pong (pong : Pong)
  deriving DecidableEq

structure ClientMsg where
  payload : Option ClientPayload
  deriving DecidableEq

/-! ### From flux to coold -/

structure PortMapping where
  hostIp : String
  hostPort : Nat
  containerPort : Nat
  protocol : String
  deriving DecidableEq

structure IngressAppConfig where
  name : String
  config : String
  deriving DecidableEq

structure ContainersCreateReq where
  name : String
  image : String
  command : List String
  env : List String
  networks : List String
  volumes : List String
  ports : List PortMapping
  dns : List String
  dnsSearch : List String
  networkAliases : List String
  restartPolicy : String
  privileged : Bool
  networkMode : String
  capabilities : List String
  deriving DecidableEq

inductive Command where
  | ping
  | imagesPull (reference : String)
  | imagesList
  | imagesDelete (reference : String) (force : Bool)
  | containersCreate (req : ContainersCreateReq)
  | containersStart (id : String)
  | containersStop (id : String) (timeoutSeconds : Nat)
  | containersRestart (id : String) (timeoutSeconds : Nat)
  | containersDelete (id : String) (force : Bool)
  | containersInspect (id : String)
  | containersList
  | containersLogs (id : String) (tail : Nat) (stdout stderr : Bool)
  | containersExec (id : String) (command : List String)
  | containersHealthcheckRun (id : String)
  | ingressApply (kind config meshNetwork : String) (apps : List IngressAppConfig)
  | ingressStop (kind : String)
  | firewallAllow (rule : Option FirewallRule)
  | firewallRevoke (id : String)
  | firewallList (namespace_ : String)
  | firewallReconcile
  | cooldLogs (tail : Nat)
  | corrosionTables (limit : Nat)
  | hostJwtSet (jwt : String)
  deriving DecidableEq

structure ServerMsg where
  requestId : String
  command : Option Command
  deriving DecidableEq

end Coold
