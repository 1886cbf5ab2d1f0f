import Coold.Cli.Plan
import Coold.Cli.WgConfig

/-!
# Carrying out a plan

`applyMesh` plans and then works in three phases.  Each visits its hosts and runs on every one of them a row of commands
until one fails; a command belongs to an action and is run only if the plan has this action.  The first phase installs
packages and keys.  Then all hosts are probed again, the addresses are allocated anew from what the probes report, and
the second phase writes the WireGuard configurations, networks and firewalls; the third, if nothing has failed,
installs the agents.

`Env` is what the remote side makes of it: which command of a phase fails on a host, and what the second probe reports
after the commands that were run.  The commands of different hosts may be run at the same time, so the log of a run keeps
the order of the commands of one host only.
-/

namespace Coold.Cli

/-! ### The commands -/

inductive Cmd where
  | aptWg
  | genkey
  | aptPodman
  | enablePodman
  | enableIpForward
  | writeConfig (iface : String) (mgmtIp : Ipv4Addr) (listenPort : UInt16) (peers : List PeerConfig)
  | reloadWg (iface : String)
  | enableWg (iface : String)
  | createNetwork (net ns : String) (sn : Ipv4Net) (gw : Ipv4Addr)
  | recreateNetwork (net ns : String) (sn : Ipv4Net) (gw : Ipv4Addr)
  | installFirewall (iface : String) (namespaces : List String) (subnets : List Ipv4Net) (defaultDeny : Bool)
  | installCorrosion (version : String) (sha256 : Option String)
  | installCoold (version : String) (sha256 : Option String)
  | writeCorrosionConfig (cfg : String) (gossipTls : Option SelfSignedCert)
  | writeCorrosionSchema
  | installCorrosionService (iface : String)
  | installCooldService (mgmtIp : Ipv4Addr) (ns : List CooldService.CooldNamespace) (flux : Option FluxConfig)
      (fluxTls : Option SelfSignedCert)
  deriving DecidableEq

open Shell

/-- The script of a command that writes files and drives services; the others have none. -/
def Cmd.script : Cmd → Script
  | .installFirewall iface namespaces subnets defaultDeny =>
    Firewall.installFirewallScript iface namespaces subnets defaultDeny
  | .writeCorrosionConfig cfg gossipTls =>
    let tlsProvision : Script :=
      match gossipTls with
      | none => []
      | some tls =>
        andThen [[.mkdir [Corrosion.gossipTlsDir]]]
          (andThen (heredoc Corrosion.gossipTlsCertPath tls.certPem "0644")
            (heredoc Corrosion.gossipTlsKeyPath tls.keyPem "0600"))
    andThen [[.mkdir ["/etc/corrosion"]]] (andThen tlsProvision (heredoc Corrosion.configPath cfg "0644"))
  | .writeCorrosionSchema =>
    andThen [[.mkdir ["/etc/corrosion/schemas"]]] (heredoc Corrosion.schemaPath Corrosion.coolifySchemaSql "0644")
  | .installCorrosionService iface =>
    andThen (heredoc Corrosion.unitPath (Corrosion.serviceUnit iface) "0644")
      [[.daemonReload, .enableNow ["corrosion"]]]
  | .installCooldService mgmtIp ns flux fluxTls =>
    let fluxPin : Script :=
      match fluxTls with
      | none => []
      | some tls => heredoc fluxPinPath tls.certPem "0644"
    andThen [[.mkdir ["/etc/coolify", "/data/coolify"]]]
      (andThen fluxPin
        (andThen [[.rm "/etc/systemd/resolved.conf.d/coolify-internal.conf"]]
          (andThen (heredoc CooldService.meshDnsAnchorPath (CooldService.meshDnsAnchorUnit ns) "0644")
            (andThen (heredoc CooldService.meshDnsResolverPath (CooldService.meshDnsResolverUnit ns) "0644")
              (andThen (heredoc CooldService.unitPath (CooldService.serviceUnit mgmtIp ns flux) "0644")
                [[.daemonReload, .enableNow [CooldService.meshDnsAnchorService, CooldService.meshDnsResolverService,
                  "coold"]]])))))
  | _ => []

/-- A command with the action it belongs to. -/
structure Step where
  actionType : ActionType
  ns : String
  cmd : Cmd
  deriving DecidableEq

/-- A step that is taken if a test says so. -/
def stepIf (test : Bool) (t : ActionType) (ns : String) (cmd : Cmd) : List Step := if test then [⟨t, ns, cmd⟩] else []

/-! ### The phases -/

section Phases

variable (d : DesiredMesh) (planned : Plan) (host : String)

def phase1 (current : MeshState) : List Step :=
  let st := current.server host
  stepIf (!st.installed && shouldRun planned host .installWg "") .installWg "" .aptWg ++
  stepIf (!st.keysExist && shouldRun planned host .genKeyPair "") .genKeyPair "" .genkey ++
  if d.isNode host && d.installPodman then
    stepIf (!st.podmanInstalled && shouldRun planned host .installPodman "") .installPodman "" .aptPodman ++
    stepIf (!st.podmanSocketActive && shouldRun planned host .enablePodmanSocket "") .enablePodmanSocket ""
      .enablePodman ++
    stepIf (!st.ipForwardEnabled && shouldRun planned host .enableIpForward "") .enableIpForward "" .enableIpForward
  else []

variable (mgmt : Dict String Ipv4Addr) (subnets : Subnets)

/-- A host as a peer of the others, if its key is known. -/
def peerOf (fresh : MeshState) (p : String) : Option PeerConfig :=
  ((fresh.servers.lookup p).filter fun s => !s.publicKey.isEmpty).map fun s =>
    { endpoint := d.endpointFor p
      publicKey := s.publicKey
      mgmtIp := mgmtOf mgmt p
      containerSubnets := if d.isNode p then hostSubnets d subnets p else [] }

/-- The peers of a host in the order of the hosts. -/
def wgPeers (fresh : MeshState) : List PeerConfig := (d.others host).filterMap (peerOf d mgmt subnets fresh)

/-- The network of a namespace is created or recreated; with both planned it is recreated. -/
def networkSteps (ns : String) : List Step :=
  let create := shouldRun planned host .createPodmanNetwork ns
  let recreate := shouldRun planned host .recreatePodmanNetwork ns
  let net := podmanNetworkFor ns
  let sn := subnetOf subnets ns host
  if recreate then [⟨.recreatePodmanNetwork, ns, .recreateNetwork net ns sn (machineIp sn)⟩]
  else stepIf create .createPodmanNetwork ns (.createNetwork net ns sn (machineIp sn))

def phase2 (fresh : MeshState) : List Step :=
  let active := ((fresh.servers.lookup host).map ServerState.active).getD false
  let svcAction := if active then ActionType.reloadService else .enableService
  stepIf (shouldRun planned host .writeConfig "") .writeConfig ""
    (.writeConfig d.interface (mgmtOf mgmt host) (d.listenPortFor host) (wgPeers d host mgmt subnets fresh)) ++
  stepIf (shouldRun planned host svcAction "") svcAction ""
    (if active then .reloadWg d.interface else .enableWg d.interface) ++
  if d.isNode host && d.installPodman then
    d.sortedNamespaces.flatMap (networkSteps planned host subnets) ++
    stepIf (shouldRun planned host .installFirewall "") .installFirewall ""
      (.installFirewall d.interface d.sortedNamespaces (hostSubnets d subnets host) d.defaultDenyContainers)
  else []

def phase3 : List Step :=
  let peers := (d.nodes.filter fun h => h ≠ host).map (mgmtOf mgmt)
  stepIf (shouldRun planned host .installCorrosion "") .installCorrosion ""
    (.installCorrosion d.corrosionVersion d.corrosionSha256) ++
  stepIf (shouldRun planned host .installCoold "") .installCoold "" (.installCoold d.cooldVersion d.cooldSha256) ++
  stepIf (shouldRun planned host .writeCorrosionConfig "") .writeCorrosionConfig ""
    (.writeCorrosionConfig
      (Corrosion.configText (mgmtOf mgmt host) d.corrosionGossipPort d.corrosionApiPort peers
        d.corrosionGossipTls.isSome)
      d.corrosionGossipTls) ++
  stepIf (shouldRun planned host .writeCorrosionSchema "") .writeCorrosionSchema "" .writeCorrosionSchema ++
  stepIf (shouldRun planned host .installCorrosionService "") .installCorrosionService ""
    (.installCorrosionService d.interface) ++
  stepIf (shouldRun planned host .installCooldService "") .installCooldService ""
    (.installCooldService (mgmtOf mgmt host) (nsConfigs d subnets host) d.cooldFluxConfig d.fluxTls)

end Phases

/-! ### A run -/

/-- The commands that were run, by host. -/
abbrev Log := List (String × Step)

/-- What the remote side makes of the commands: the number of the command of a phase that fails on a host, if one does,
and the report of the second probe. -/
structure Env where
  fails : (phase : Nat) → (host : String) → Option Nat
  reprobe : Log → MeshState

/-- The commands of a row that are run when the one of number `fail` fails. -/
def ran (fail : Option Nat) (steps : List Step) : List Step :=
  match fail with
  | none => steps
  | some k => steps.take (k + 1)

def failed (fail : Option Nat) (steps : List Step) : Bool :=
  match fail with
  | none => false
  | some k => k < steps.length

/-- The log of a phase, with whether one of its hosts has failed. -/
def forEachServer (hosts : List String) (fails : String → Option Nat) (steps : String → List Step) : Log × Bool :=
  (hosts.flatMap fun h => (ran (fails h) (steps h)).map fun s => (h, s), hosts.any fun h => failed (fails h) (steps h))

/-- A run: what was done, and the results of its steps or the error it ended with. -/
structure ApplyRun where
  log : Log
  result : Except CliError Log

/-- The phases after the second probe, from the addresses allocated anew. -/
def applyFresh (d : DesiredMesh) (planned : Plan) (env : Env) (log₁ : Log) (fresh : MeshState)
    (mgmt : Dict String Ipv4Addr) (subnets : Subnets) : ApplyRun :=
  let (log₂, failed₂) := forEachServer d.hosts (env.fails 2) fun h => phase2 d planned h mgmt subnets fresh
  if failed₂ then ⟨log₁ ++ log₂, .error (.bail "phase 2 failed")⟩
  else if !d.installCoold then ⟨log₁ ++ log₂, .ok (log₁ ++ log₂)⟩
  else
    let (log₃, failed₃) := forEachServer d.nodes (env.fails 3) fun h => phase3 d planned h mgmt subnets
    ⟨log₁ ++ log₂ ++ log₃,
      if failed₃ then .error (.bail "phase 3 failed") else .ok (log₁ ++ log₂ ++ log₃)⟩

def applyMesh (sha256Hex : List UInt8 → String) (d : DesiredMesh) (current : MeshState) (env : Env) : ApplyRun :=
  match buildPlan sha256Hex d current with
  | .error e => ⟨[], .error e⟩
  | .ok planned =>
    let (log₁, failed₁) := forEachServer d.hosts (env.fails 1) fun h => phase1 d planned h current
    if failed₁ then
      ⟨log₁, .error (.bail "phase 1 (install/keygen) failed on one or more mesh hosts; aborting")⟩
    else
      let fresh := env.reprobe log₁
      match allocateMgmtIps d.mgmtPool fresh.assignedMgmtIps d.hosts with
      | .error e => ⟨log₁, .error e⟩
      | .ok (mgmt, _) =>
        match allocateNamespaced d.containerPool d.containerPrefix fresh.assignedContainerSubnets d.namespaces
            d.nodes with
        | .error e => ⟨log₁, .error e⟩
        | .ok (subnets, _) => applyFresh d planned env log₁ fresh mgmt subnets

/-! ### What a log contains -/

/-- The action a command belongs to. -/
def Cmd.actionType : Cmd → ActionType
  | .aptWg => .installWg
  | .genkey => .genKeyPair
  | .aptPodman => .installPodman
  | .enablePodman => .enablePodmanSocket
  | .enableIpForward => .enableIpForward
  | .writeConfig .. => .writeConfig
  | .reloadWg _ => .reloadService
  | .enableWg _ => .enableService
  | .createNetwork .. => .createPodmanNetwork
  | .recreateNetwork .. => .recreatePodmanNetwork
  | .installFirewall .. => .installFirewall
  | .installCorrosion .. => .installCorrosion
  | .installCoold .. => .installCoold
  | .writeCorrosionConfig .. => .writeCorrosionConfig
  | .writeCorrosionSchema => .writeCorrosionSchema
  | .installCorrosionService _ => .installCorrosionService
  | .installCooldService .. => .installCooldService

/-- The phase that carries out an action; the allocations and the changes of peers have no commands of their own. -/
def ActionType.phase : ActionType → Nat
  | .installWg | .genKeyPair | .installPodman | .enablePodmanSocket | .enableIpForward => 1
  | .writeConfig | .reloadService | .enableService | .createPodmanNetwork | .recreatePodmanNetwork
  | .installFirewall => 2
  | .installCorrosion | .installCoold | .writeCorrosionConfig | .writeCorrosionSchema | .installCorrosionService
  | .installCooldService => 3
  | .allocateMgmtIp | .allocateContainerSubnet | .addPeer | .removePeer => 0

/-- The phase a command belongs to. -/
def Cmd.phase (c : Cmd) : Nat := c.actionType.phase

section Log

variable {sha256Hex : List UInt8 → String} {d : DesiredMesh} {current fresh : MeshState} {env : Env} {planned : Plan}
  {host : String} {mgmt : Dict String Ipv4Addr} {subnets : Subnets} {s : Step} {e : String × Step}

/-- A step is of the plan if the plan has the action of its command. -/
def Step.Planned (planned : Plan) (host : String) (s : Step) : Prop :=
  shouldRun planned host s.cmd.actionType s.ns = true

theorem mem_stepIf {test : Bool} {t : ActionType} {ns : String} {cmd : Cmd} :
    s ∈ stepIf test t ns cmd ↔ test = true ∧ s = ⟨t, ns, cmd⟩ := by
  cases test <;> simp [stepIf]

theorem planned_phase1 (hs : s ∈ phase1 d planned host current) : s.Planned planned host := by
  simp only [phase1, List.mem_append, mem_stepIf, Bool.and_eq_true, List.mem_ite_nil_right] at hs
  rcases hs with (⟨h, rfl⟩ | ⟨h, rfl⟩) | ⟨-, (⟨h, rfl⟩ | ⟨h, rfl⟩) | ⟨h, rfl⟩⟩ <;> exact h.2

private theorem planned_networkSteps {ns : String} (hs : s ∈ networkSteps planned host subnets ns) :
    s.Planned planned host := by
  unfold networkSteps at hs
  dsimp only at hs
  split at hs
  next h =>
    rw [List.mem_singleton] at hs
    subst hs
    exact h
  next =>
    obtain ⟨h, rfl⟩ := mem_stepIf.1 hs
    exact h

theorem planned_phase2 (hs : s ∈ phase2 d planned host mgmt subnets fresh) : s.Planned planned host := by
  unfold phase2 at hs
  simp only [List.mem_append, mem_stepIf, List.mem_ite_nil_right, List.mem_flatMap] at hs
  rcases hs with (⟨h, rfl⟩ | ⟨h, rfl⟩) | ⟨-, ⟨ns, -, hs⟩ | ⟨h, rfl⟩⟩
  · exact h
  · -- the command and the action are chosen by the same test
    cases hactive : ((fresh.servers.lookup host).map ServerState.active).getD false <;>
      simpa [Step.Planned, hactive, Cmd.actionType] using h
  · exact planned_networkSteps hs
  · exact h

theorem planned_phase3 (hs : s ∈ phase3 d planned host mgmt subnets) : s.Planned planned host := by
  simp only [phase3, List.mem_append, mem_stepIf] at hs
  rcases hs with ((((⟨h, rfl⟩ | ⟨h, rfl⟩) | ⟨h, rfl⟩) | ⟨h, rfl⟩) | ⟨h, rfl⟩) | ⟨h, rfl⟩ <;> exact h

theorem phase_of_mem_phase1 (hs : s ∈ phase1 d planned host current) : s.cmd.phase = 1 := by
  simp only [phase1, List.mem_append, mem_stepIf, Bool.and_eq_true, List.mem_ite_nil_right] at hs
  rcases hs with (⟨-, rfl⟩ | ⟨-, rfl⟩) | ⟨-, (⟨-, rfl⟩ | ⟨-, rfl⟩) | ⟨-, rfl⟩⟩ <;> rfl

theorem phase_of_mem_phase2 (hs : s ∈ phase2 d planned host mgmt subnets fresh) : s.cmd.phase = 2 := by
  unfold phase2 at hs
  simp only [List.mem_append, mem_stepIf, List.mem_ite_nil_right, List.mem_flatMap] at hs
  rcases hs with (⟨-, rfl⟩ | ⟨-, rfl⟩) | ⟨-, ⟨ns, -, hs⟩ | ⟨-, rfl⟩⟩
  · rfl
  · dsimp only
    split <;> rfl
  · unfold networkSteps at hs
    dsimp only at hs
    split at hs
    · rw [List.mem_singleton] at hs
      subst hs
      rfl
    · obtain ⟨-, rfl⟩ := mem_stepIf.1 hs
      rfl
  · rfl

/-- The configuration that is written on a host. -/
theorem writeConfig_mem_phase2 (hs : s ∈ phase2 d planned host mgmt subnets fresh) {iface : String} {ip : Ipv4Addr}
    {port : UInt16} {peers : List PeerConfig} (hcmd : s.cmd = .writeConfig iface ip port peers) :
    iface = d.interface ∧ ip = mgmtOf mgmt host ∧ port = d.listenPortFor host ∧
      peers = wgPeers d host mgmt subnets fresh := by
  unfold phase2 at hs
  simp only [List.mem_append, mem_stepIf, List.mem_ite_nil_right, List.mem_flatMap] at hs
  rcases hs with (⟨-, rfl⟩ | ⟨-, rfl⟩) | ⟨-, ⟨ns, -, hs⟩ | ⟨-, rfl⟩⟩
  · cases hcmd
    exact ⟨rfl, rfl, rfl, rfl⟩
  · dsimp only at hcmd
    split at hcmd <;> cases hcmd
  · unfold networkSteps at hs
    dsimp only at hs
    split at hs
    · rw [List.mem_singleton] at hs
      subst hs
      cases hcmd
    · obtain ⟨-, rfl⟩ := mem_stepIf.1 hs
      cases hcmd
  · cases hcmd

theorem phase_of_mem_phase3 (hs : s ∈ phase3 d planned host mgmt subnets) : s.cmd.phase = 3 := by
  simp only [phase3, List.mem_append, mem_stepIf] at hs
  rcases hs with ((((⟨-, rfl⟩ | ⟨-, rfl⟩) | ⟨-, rfl⟩) | ⟨-, rfl⟩) | ⟨-, rfl⟩) | ⟨-, rfl⟩ <;> rfl

private theorem mem_of_mem_ran {fail : Option Nat} {steps : List Step} (hs : s ∈ ran fail steps) : s ∈ steps := by
  cases fail with
  | none => exact hs
  | some k => exact List.mem_of_mem_take hs

theorem mem_forEachServer {hosts : List String} {fails : String → Option Nat} {steps : String → List Step}
    (he : e ∈ (forEachServer hosts fails steps).1) : e.1 ∈ hosts ∧ e.2 ∈ steps e.1 := by
  obtain ⟨h, hh, he⟩ := List.mem_flatMap.1 he
  obtain ⟨s, hs, rfl⟩ := List.mem_map.1 he
  exact ⟨hh, mem_of_mem_ran hs⟩

/-- A run that comes to the second probe and allocates the addresses that it reports. -/
structure Reached (sha256Hex : List UInt8 → String) (d : DesiredMesh) (current : MeshState) (env : Env)
    (planned : Plan) (log₁ : Log) (mgmt : Dict String Ipv4Addr) (subnets : Subnets) : Prop where
  plan : buildPlan sha256Hex d current = .ok planned
  first : forEachServer d.hosts (env.fails 1) (fun h => phase1 d planned h current) = (log₁, false)
  mgmt : ∃ w, allocateMgmtIps d.mgmtPool (env.reprobe log₁).assignedMgmtIps d.hosts = .ok (mgmt, w)
  subnets : ∃ w, allocateNamespaced d.containerPool d.containerPrefix (env.reprobe log₁).assignedContainerSubnets
    d.namespaces d.nodes = .ok (subnets, w)

/-- The steps before the second probe are those of the first phase. -/
theorem Reached.mem_phase1 {log₁ : Log} (hr : Reached sha256Hex d current env planned log₁ mgmt subnets)
    (he : e ∈ log₁) : e.1 ∈ d.hosts ∧ e.2 ∈ phase1 d planned e.1 current := by
  have hlog : log₁ = (forEachServer d.hosts (env.fails 1) fun h => phase1 d planned h current).1 := by rw [hr.first]
  rw [hlog] at he
  exact mem_forEachServer he

theorem Reached.phase_eq_one {log₁ : Log} (hr : Reached sha256Hex d current env planned log₁ mgmt subnets) :
    ∀ e ∈ log₁, e.2.cmd.phase = 1 :=
  fun _ he => phase_of_mem_phase1 (hr.mem_phase1 he).2

/-- A run fails before the second phase, with commands of the first phase at most, or it goes on after the probe. -/
theorem applyMesh_cases (sha256Hex : List UInt8 → String) (d : DesiredMesh) (current : MeshState) (env : Env) :
    (∃ err, buildPlan sha256Hex d current = .error err ∧ applyMesh sha256Hex d current env = ⟨[], .error err⟩) ∨
      (∃ planned err, buildPlan sha256Hex d current = .ok planned ∧ applyMesh sha256Hex d current env =
        ⟨(forEachServer d.hosts (env.fails 1) fun h => phase1 d planned h current).1, .error err⟩) ∨
      ∃ planned log₁ mgmt subnets, Reached sha256Hex d current env planned log₁ mgmt subnets ∧
        applyMesh sha256Hex d current env = applyFresh d planned env log₁ (env.reprobe log₁) mgmt subnets := by
  unfold applyMesh
  cases hplan : buildPlan sha256Hex d current with
  | error err => exact .inl ⟨err, rfl, rfl⟩
  | ok planned =>
    refine .inr ?_
    rcases hfirst : forEachServer d.hosts (env.fails 1) (fun h => phase1 d planned h current) with ⟨log₁, failed₁⟩
    cases failed₁ with
    | true => exact .inl ⟨planned, _, rfl, by simp [hfirst]; rfl⟩
    | false =>
      cases hmgmt : allocateMgmtIps d.mgmtPool (env.reprobe log₁).assignedMgmtIps d.hosts with
      | error err => exact .inl ⟨planned, err, rfl, by simp [hfirst, hmgmt]⟩
      | ok r =>
        cases hsub : allocateNamespaced d.containerPool d.containerPrefix
            (env.reprobe log₁).assignedContainerSubnets d.namespaces d.nodes with
        | error err => exact .inl ⟨planned, err, rfl, by simp [hfirst, hmgmt, hsub]⟩
        | ok r' =>
          exact .inr ⟨planned, log₁, r.1, r'.1, ⟨hplan, hfirst, ⟨r.2, hmgmt⟩, ⟨r'.2, hsub⟩⟩,
            by simp [hfirst, hmgmt, hsub]⟩

theorem Reached.applyMesh_eq {log₁ : Log} (hr : Reached sha256Hex d current env planned log₁ mgmt subnets) :
    applyMesh sha256Hex d current env = applyFresh d planned env log₁ (env.reprobe log₁) mgmt subnets := by
  obtain ⟨w, hmgmt⟩ := hr.mgmt
  obtain ⟨w', hsubnets⟩ := hr.subnets
  unfold applyMesh
  simp [hr.plan, hr.first, hmgmt, hsubnets]

/-- That a run succeeds is found by evaluation. -/
theorem result_ok (h : (applyMesh sha256Hex d current env).result.toOption.isSome = true) :
    ∃ log, (applyMesh sha256Hex d current env).result = .ok log := by
  cases hr : (applyMesh sha256Hex d current env).result with
  | ok log => exact ⟨log, rfl⟩
  | error e =>
    rw [hr] at h
    cases h

/-- The commands of the second phase follow those of the first, and then those of the third. -/
theorem log_applyFresh (d : DesiredMesh) (planned : Plan) (env : Env) (log₁ : Log) (fresh : MeshState)
    (mgmt : Dict String Ipv4Addr) (subnets : Subnets) :
    ∃ rest, (applyFresh d planned env log₁ fresh mgmt subnets).log =
      log₁ ++ ((forEachServer d.hosts (env.fails 2) fun h => phase2 d planned h mgmt subnets fresh).1 ++ rest) ∧
      ∀ e ∈ rest, e.1 ∈ d.nodes ∧ e.2 ∈ phase3 d planned e.1 mgmt subnets := by
  unfold applyFresh
  dsimp only
  split
  · exact ⟨[], by simp, by simp⟩
  · split
    · exact ⟨[], by simp, by simp⟩
    · exact ⟨_, by rw [List.append_assoc], fun e he => mem_forEachServer he⟩

/-- The commands after the second probe belong to the second or third phase. -/
private theorem mem_log_applyFresh {log₁ : Log} (he : e ∈ (applyFresh d planned env log₁ fresh mgmt subnets).log) :
    e ∈ log₁ ∨ (e.1 ∈ d.hosts ∧ e.2 ∈ phase2 d planned e.1 mgmt subnets fresh) ∨
      (e.1 ∈ d.nodes ∧ e.2 ∈ phase3 d planned e.1 mgmt subnets) := by
  obtain ⟨rest, hlog, hrest⟩ := log_applyFresh d planned env log₁ fresh mgmt subnets
  rw [hlog] at he
  rcases List.mem_append.1 he with he | he
  · exact .inl he
  · rcases List.mem_append.1 he with he | he
    · exact .inr (.inl (mem_forEachServer he))
    · exact .inr (.inr (hrest e he))

/-- A command of a run belongs to the first phase, or the run comes to the second probe and it belongs to a later one. -/
theorem mem_log_applyMesh (he : e ∈ (applyMesh sha256Hex d current env).log) :
    (∃ planned, buildPlan sha256Hex d current = .ok planned ∧ e.1 ∈ d.hosts ∧ e.2 ∈ phase1 d planned e.1 current) ∨
      ∃ planned log₁ mgmt subnets, Reached sha256Hex d current env planned log₁ mgmt subnets ∧
        ((e.1 ∈ d.hosts ∧ e.2 ∈ phase2 d planned e.1 mgmt subnets (env.reprobe log₁)) ∨
          (e.1 ∈ d.nodes ∧ e.2 ∈ phase3 d planned e.1 mgmt subnets)) := by
  rcases applyMesh_cases sha256Hex d current env with ⟨err, -, h⟩ | ⟨planned, err, hplan, h⟩ |
    ⟨planned, log₁, mgmt, subnets, hr, h⟩
  · rw [h] at he
    cases he
  · rw [h] at he
    exact .inl ⟨planned, hplan, mem_forEachServer he⟩
  · rw [h] at he
    rcases mem_log_applyFresh he with he | hs
    · exact .inl ⟨planned, hr.plan, hr.mem_phase1 he⟩
    · exact .inr ⟨planned, log₁, mgmt, subnets, hr, hs⟩

/-- The commands of the first phase are in the log of every run that has a plan. -/
theorem mem_log_of_phase1 (hplan : buildPlan sha256Hex d current = .ok planned)
    (he : e ∈ (forEachServer d.hosts (env.fails 1) fun h => phase1 d planned h current).1) :
    e ∈ (applyMesh sha256Hex d current env).log := by
  rcases applyMesh_cases sha256Hex d current env with ⟨err, herr, -⟩ | ⟨planned', err, hplan', h⟩ |
    ⟨planned', log₁, mgmt, subnets, hr, h⟩
  · rw [hplan] at herr
    cases herr
  · rw [hplan] at hplan'
    cases hplan'
    rwa [h]
  · have hplan' := hr.plan
    rw [hplan] at hplan'
    cases hplan'
    obtain ⟨rest, hlog, -⟩ := log_applyFresh d planned env log₁ (env.reprobe log₁) mgmt subnets
    rw [hr.first] at he
    rw [h, hlog]
    exact List.mem_append_left _ he

/-- Every command that is run is planned. -/
theorem planned_of_mem_log (he : e ∈ (applyMesh sha256Hex d current env).log) :
    ∃ planned, buildPlan sha256Hex d current = .ok planned ∧ e.2.Planned planned e.1 := by
  rcases mem_log_applyMesh he with ⟨planned, hplan, -, hs⟩ |
    ⟨planned, log₁, mgmt, subnets, hr, ⟨-, hs⟩ | ⟨-, hs⟩⟩
  · exact ⟨planned, hplan, planned_phase1 hs⟩
  · exact ⟨planned, hr.plan, planned_phase2 hs⟩
  · exact ⟨planned, hr.plan, planned_phase3 hs⟩

end Log

end Coold.Cli
