import Coold.Agent.DesiredEndpoints
import Coold.Agent.Firewall
import Coold.Agent.Mounts

/-!
# The command handlers

`handle` turns a command of flux into the response that coold sends for it.  What podman, Corrosion, the firewall, the
ingress and the programs of the host answer is the parameter `Primitives`; what the handlers make of it is here.

A response carries the id of its command, and its body is of the kind of the command or an error with code 500
(`handle_eq_some`); only a ping, which is answered before it gets here, has none.
-/

namespace Coold.Agent.Handlers

/-! ### What is called -/

/-- What a program left behind; the texts are lossy. -/
structure CommandOutput where
  success : Bool
  status : String
  stdout : String
  stderr : String

/-- What the handlers call. -/
structure Primitives where
  pullImage : String → Except String (String × String)
  listImages : Except String (List ImageSummary)
  deleteImage : String → Bool → Except String String
  createContainer : CreateContainerInput → Except String String
  startContainer : String → Except String String
  stopContainer : String → Nat → Except String String
  restartContainer : String → Nat → Except String String
  deleteContainer : String → Bool → Except String String
  inspectContainerJson : String → Except String String
  podmanContainers : Except String (List Container)
  inspectContainer : String → Except String ContainerInspect
  containerLogs : String → Nat → Bool → Bool → Except String String
  execContainer : String → List String → Except String (Int × String)
  runHealthcheck : String → Except String String
  output : String → List String → Except String CommandOutput
  tablesJson : Nat → Except String String
  applyCaddyIngress : String → List IngressAppConfig → String → Except String String
  firewallAllow : Firewall.FirewallRule → Except String (String × String)
  firewallRevoke : String → Except String String
  loadFirewallRules : Except String (List Firewall.FirewallRule)
  firewallReconcile : Except String String
  applyHostJwt : String → Except String Unit

def context {α : Type} (what : String) : Except String α → Except String α
  | .ok a => .ok a
  | .error e => .error (what ++ ": " ++ e)

section Handlers

variable (p : Primitives)

/-! ### Programs -/

def joinNonEmpty (parts : List String) : String := Str.join '\n' (parts.filter (· ≠ ""))

def runCommand (program : String) (args : List String) : Except String String := do
  let output ← context "run command" (p.output program args)
  let combined := joinNonEmpty [Str.trim output.stdout, Str.trim output.stderr]
  if !output.success then
    throw (if combined = "" then "command exited with " ++ output.status else combined)
  return combined

def stopCaddyIngress : Except String String := do
  let output ← context "stop Caddy ingress" (runCommand p "podman" ["rm", "-f", "coolify-v5-caddy"])
  return if Str.trim output = "" then "Caddy ingress stopped." else output

def stopIngress (kind : String) : Except String String :=
  if kind = "caddy" then stopCaddyIngress p else .error ("unsupported ingress kind: " ++ kind)

def applyIngress (kind config : String) (apps : List IngressAppConfig) (meshNetwork : String) :
    Except String String :=
  if kind = "caddy" then p.applyCaddyIngress config apps meshNetwork
  else .error ("unsupported ingress kind: " ++ kind)

/-- The number of lines is between 1 and 1000. -/
def cooldLogs (tail : Nat) : Except String String := do
  let tail := toString (min (max tail 1) 1000)
  let output ← context "read coold journal logs"
    (p.output "journalctl" ["--unit", "coold", "--no-pager", "--output", "short-iso", "--lines", tail])
  let combined := joinNonEmpty (Str.lines output.stdout ++ Str.lines output.stderr)
  if !output.success then
    throw (if combined = "" then "journalctl exited with " ++ output.status else combined)
  return combined

def inspectMeshNetworkValue (meshNetwork format valueName : String) : Except String String := do
  let value ← context ("inspect Caddy " ++ valueName)
    (runCommand p "podman" ["network", "inspect", meshNetwork, "--format", format])
  if Str.trim value = "" then throw (valueName ++ " is empty")
  return Str.trim value

def meshNetworkGateway (meshNetwork : String) : Except String String :=
  inspectMeshNetworkValue p meshNetwork "\x7b\x7b(index .Subnets 0).Gateway\x7d\x7d" "mesh network gateway"

/-! ### Containers -/

/-- `strip_suffix`. -/
def stripSuffix (pattern s : String) : Option String :=
  (List.isPrefixOf? pattern.toList.reverse s.toList.reverse).map fun rest => String.ofList rest.reverse

def meshDnsSearchDomain (meshNetwork : String) : Except String String :=
  match ((Str.strip "coolify-" meshNetwork).bind (stripSuffix "-mesh")).filter (· ≠ "") with
  | none => .error "invalid mesh network name"
  | some namespace_ => .ok (namespace_ ++ ".coolify.internal")

def isMeshNetwork (network : String) : Bool :=
  "coolify-".toList.isPrefixOf network.toList && "-mesh".toList.isSuffixOf network.toList

/-- A container on a mesh network asks the resolver of its host, in the domain of its namespace, if it does not say
otherwise. -/
def applyMeshDnsDefaults (input : CreateContainerInput) : Except String CreateContainerInput :=
  match input.networks.find? isMeshNetwork with
  | none => .ok input
  | some network => do
    let dns ← if input.dns = [] then (meshNetworkGateway p network).map fun gateway => [gateway] else .ok input.dns
    let dnsSearch ←
      if input.dnsSearch = [] then (meshDnsSearchDomain network).map fun domain => [domain] else .ok input.dnsSearch
    return { input with dns, dnsSearch }

def createInput (req : ContainersCreateReq) : CreateContainerInput where
  name := req.name
  image := req.image
  command := req.command
  env := req.env
  networks := req.networks
  volumes := req.volumes
  ports := req.ports.map fun port =>
    ⟨port.hostIp, UInt32.ofNat port.hostPort, UInt32.ofNat port.containerPort, port.protocol⟩
  dns := req.dns
  dnsSearch := req.dnsSearch
  networkAliases := req.networkAliases
  restartPolicy := req.restartPolicy
  privileged := req.privileged
  networkMode := req.networkMode
  capabilities := req.capabilities

/-- A container that cannot be inspected is listed without networks. -/
def containerSummary (c : Container) : ContainerSummary where
  id := c.id
  name := trimSlashes (c.names.head?.getD "")
  image := c.image
  state := c.state
  networks :=
    match p.inspectContainer c.id with
    | .ok inspect => (inspect.networkSettings.map fun networks => networks.entries.map Sigma.fst).getD []
    | .error _ => []

def containersList : Except String (List ContainerSummary) :=
  p.podmanContainers.map fun containers => containers.map (containerSummary p)

/-! ### Firewall -/

def firewallList (namespace_ : String) : Except String (List Firewall.FirewallRule) :=
  p.loadFirewallRules.map fun rules =>
    if namespace_ = "" then rules else rules.filter fun rule => rule.namespace_ = namespace_

def firewallRuleToProto (rule : Firewall.FirewallRule) : FirewallRule where
  namespace_ := rule.namespace_
  src := rule.src
  dst := rule.dst
  proto := rule.proto
  port := rule.port.toNat
  id := rule.id

/-! ### The dispatch -/

def errorBody (e : String) : ResponseBodyMsg := .error 500 e

/-- The body for what was computed. -/
def bodyOf {α : Type} (ok : α → ResponseBodyMsg) : Except String α → ResponseBodyMsg
  | .ok a => ok a
  | .error e => errorBody e

/-- The body of the response to a command; a ping is ignored. -/
def responseBody (command : Command) : Option ResponseBodyMsg :=
  match command with
  | .ping => none
  | .imagesPull reference => some (bodyOf (fun pulled => .imagesPull pulled.1 pulled.2) (p.pullImage reference))
  | .imagesList => some (bodyOf .imagesList p.listImages)
  | .imagesDelete reference force => some (bodyOf .imagesDelete (p.deleteImage reference force))
  | .containersCreate req =>
    some (bodyOf .containersCreate (applyMeshDnsDefaults p (createInput req) >>= p.createContainer))
  | .containersStart id => some (bodyOf .containersStart (p.startContainer id))
  | .containersStop id timeoutSeconds => some (bodyOf .containersStop (p.stopContainer id timeoutSeconds))
  | .containersRestart id timeoutSeconds => some (bodyOf .containersRestart (p.restartContainer id timeoutSeconds))
  | .containersDelete id force => some (bodyOf .containersDelete (p.deleteContainer id force))
  | .containersInspect id => some (bodyOf .containersInspect (p.inspectContainerJson id))
  | .containersList => some (bodyOf .containersList (containersList p))
  | .containersLogs id tail stdout stderr => some (bodyOf .containersLogs (p.containerLogs id tail stdout stderr))
  | .cooldLogs tail => some (bodyOf .cooldLogs (cooldLogs p tail))
  | .corrosionTables limit => some (bodyOf .corrosionTables (p.tablesJson limit))
  | .containersExec id command =>
    some (bodyOf (fun done => .containersExec done.1 done.2) (p.execContainer id command))
  | .containersHealthcheckRun id => some (bodyOf .containersHealthcheckRun (p.runHealthcheck id))
  | .ingressApply kind config meshNetwork apps =>
    some (bodyOf .ingressApply (applyIngress p kind config apps meshNetwork))
  | .ingressStop kind => some (bodyOf .ingressStop (stopIngress p kind))
  | .firewallAllow rule =>
    some (match rule with
      | some rule =>
        bodyOf (fun applied => .firewallAllow applied.1 applied.2) (p.firewallAllow (Firewall.FirewallRule.ofProto rule))
      | none => errorBody "missing firewall rule")
  | .firewallRevoke id => some (bodyOf .firewallRevoke (p.firewallRevoke id))
  | .firewallList namespace_ =>
    some (bodyOf (fun rules => .firewallList (rules.map firewallRuleToProto)) (firewallList p namespace_))
  | .firewallReconcile => some (bodyOf .firewallReconcile p.firewallReconcile)
  | .hostJwtSet jwt => some (bodyOf (fun _ => .hostJwtSet true) (p.applyHostJwt jwt))

def handle (requestId : String) (command : Command) : Option Response :=
  (responseBody p command).map fun body => ⟨requestId, some body⟩

end Handlers

/-! ### Kinds -/

def commandType : Command → String
  | .ping => "ping"
  | .imagesPull _ => "images.pull"
  | .imagesList => "images.list"
  | .imagesDelete _ _ => "images.delete"
  | .containersCreate _ => "containers.create"
  | .containersStart _ => "containers.start"
  | .containersStop _ _ => "containers.stop"
  | .containersRestart _ _ => "containers.restart"
  | .containersDelete _ _ => "containers.delete"
  | .containersInspect _ => "containers.inspect"
  | .containersList => "containers.list"
  | .containersLogs _ _ _ _ => "containers.logs"
  | .containersExec _ _ => "containers.exec"
  | .containersHealthcheckRun _ => "containers.healthcheck.run"
  | .ingressApply _ _ _ _ => "ingress.apply"
  | .ingressStop _ => "ingress.stop"
  | .firewallAllow _ => "firewall.allow"
  | .firewallRevoke _ => "firewall.revoke"
  | .firewallList _ => "firewall.list"
  | .firewallReconcile => "firewall.reconcile"
  | .cooldLogs _ => "coold.logs"
  | .corrosionTables _ => "corrosion.tables"
  | .hostJwtSet _ => "host.jwt.set"

def responseBodyType : Option ResponseBodyMsg → String
  | some (.imagesPull _ _) => "images.pull"
  | some (.imagesList _) => "images.list"
  | some (.imagesDelete _) => "images.delete"
  | some (.containersCreate _) => "containers.create"
  | some (.containersStart _) => "containers.start"
  | some (.containersStop _) => "containers.stop"
  | some (.containersRestart _) => "containers.restart"
  | some (.containersDelete _) => "containers.delete"
  | some (.containersInspect _) => "containers.inspect"
  | some (.containersList _) => "containers.list"
  | some (.containersLogs _) => "containers.logs"
  | some (.containersExec _ _) => "containers.exec"
  | some (.containersHealthcheckRun _) => "containers.healthcheck.run"
  | some (.ingressApply _) => "ingress.apply"
  | some (.ingressStop _) => "ingress.stop"
  | some (.firewallAllow _ _) => "firewall.allow"
  | some (.firewallRevoke _) => "firewall.revoke"
  | some (.firewallList _) => "firewall.list"
  | some (.firewallReconcile _) => "firewall.reconcile"
  | some (.cooldLogs _) => "coold.logs"
  | some (.corrosionTables _) => "corrosion.tables"
  | some (.hostJwtSet _) => "host.jwt.set"
  | some (.error _ _) => "error"
  | none => "none"

/-- The body is of a kind, or an error of coold. -/
def Answers (kind : String) (body : ResponseBodyMsg) : Prop :=
  responseBodyType (some body) = kind ∨ ∃ message, body = .error 500 message

private theorem answers_bodyOf {α : Type} {kind : String} {ok : α → ResponseBodyMsg}
    (h : ∀ a, responseBodyType (some (ok a)) = kind) (x : Except String α) : Answers kind (bodyOf ok x) := by
  cases x with
  | ok a => exact Or.inl (h a)
  | error e => exact Or.inr ⟨e, rfl⟩

/-- Every command but a ping gets a body of its own kind, or an error. -/
private theorem responseBody_answers (p : Primitives) {command : Command} (h : command ≠ .ping) :
    ∃ body, responseBody p command = some body ∧ Answers (commandType command) body := by
  cases command with
  | ping => exact absurd rfl h
  | firewallAllow rule =>
    cases rule with
    | none => exact ⟨_, rfl, Or.inr ⟨_, rfl⟩⟩
    | some rule =>
      refine ⟨_, rfl, answers_bodyOf ?_ _⟩
      intro applied
      rfl
  | _ =>
    refine ⟨_, rfl, answers_bodyOf ?_ _⟩
    intro a
    rfl

/-- A response has the id of the command, and a body that answers it. -/
theorem handle_eq_some {p : Primitives} {requestId : String} {command : Command} {response : Response}
    (h : handle p requestId command = some response) : command ≠ .ping ∧ response.requestId = requestId ∧
      ∃ body, response.body = some body ∧ Answers (commandType command) body := by
  obtain ⟨body, hbody, rfl⟩ := Option.map_eq_some_iff.1 h
  have hne : command ≠ .ping := by
    rintro rfl
    cases hbody
  obtain ⟨body', hbody', hanswers⟩ := responseBody_answers p hne
  obtain rfl := Option.some.inj (hbody.symm.trans hbody')
  exact ⟨hne, rfl, body, rfl, hanswers⟩

theorem handle_isSome (p : Primitives) (requestId : String) {command : Command} (h : command ≠ .ping) :
    (handle p requestId command).isSome := by
  obtain ⟨body, hbody, -⟩ := responseBody_answers p h
  rw [handle, hbody]
  rfl

end Coold.Agent.Handlers
