import Mathlib.Data.List.Dedup
import Coold.Cli.Intent
import Coold.Cli.Services

/-!
# The plan of a run

`buildPlan` compares the probed state of every host with what the mesh should be and lists what has to be done.  The
addresses are allocated first; then the hosts are visited in their order, and for each the actions of WireGuard, of
Podman and of the agents are listed where one of their tests finds a difference.  The hash function is a parameter.
-/

namespace Coold.Cli

/-- A version that is installed is kept only if it is the wanted one and does not move. -/
def binaryVersionDrift (want : String) (installed : Bool) (present : String) : Bool :=
  !installed || present.isEmpty || (want == "nightly" || want == "latest") || present != want

/-- A key is cut at a byte; there is no text if the byte is inside of a character. -/
def truncateKey (k : String) : Option String :=
  if k.utf8ByteSize ≤ 8 then some k else (Str.takeBytes 8 k).map fun s => s ++ "..."

/-- The planner's keys are of ASCII, but the configuration of a host may say anything. -/
example : truncateKey "AAAAAAA/peer-key" = some "AAAAAAA/..." ∧ truncateKey "AAAAAAAé" = none := by decide

/-- A set of keys in their order. -/
def keySet (keys : List String) : List String := keys.dedup.insertionSort fun a b => a ≤ b

theorem mem_keySet {keys : List String} {k : String} : k ∈ keySet keys ↔ k ∈ keys := by
  rw [keySet, List.mem_insertionSort, List.mem_dedup]

/-- `mgmt[host]`: every host of the mesh has an address. -/
def mgmtOf (mgmt : Dict String Ipv4Addr) (host : String) : Ipv4Addr := (mgmt.lookup host).getD 0

theorem lookup_mgmtOf {pool : Ipv4Net} {existing mgmt : Dict String Ipv4Addr} {hosts : List String} {w : List Warning}
    (h : allocateMgmtIps pool existing hosts = .ok (mgmt, w)) {host : String} (hhost : host ∈ hosts) :
    mgmt.lookup host = some (mgmtOf mgmt host) := by
  obtain ⟨ip, hip⟩ := Option.isSome_iff_exists.1 ((isSome_lookup_mgmt h host).2 hhost)
  rw [mgmtOf, hip, Option.getD_some]

/-- `subnets[ns][host]`: every node has a subnet for each namespace. -/
def subnetOf (subnets : Subnets) (ns host : String) : Ipv4Net :=
  (subnets.lookup (ns, host)).getD ⟨0, 0, Nat.zero_le 32⟩

/-- An action that is planned if a test says so. -/
def pushIf (test : Bool) (host ns : String) (t : ActionType) (detail : String) : List PlannedAction :=
  if test then [⟨host, ns, t, detail⟩] else []

section Host

variable (sha256Hex : List UInt8 → String) (d : DesiredMesh) (current : MeshState) (mgmt : Dict String Ipv4Addr)
  (subnets : Subnets) (host : String)

/-! ### WireGuard -/

/-- The keys of the peers in the configuration of the host. -/
def currentKeys : List String := keySet ((current.server host).peers.map Peer.publicKey)

/-- The known keys of the other hosts. -/
def desiredKeys : List String :=
  keySet (((d.others host).filterMap fun p => (current.servers.lookup p).map ServerState.publicKey).filter (· ≠ ""))

/-- The key of another host is not known yet. -/
def peerKeyPending : Bool :=
  d.hosts.any fun p => p ≠ host && ((current.servers.lookup p).map fun s => s.publicKey.isEmpty).getD true

def needsConfig : Bool :=
  let state := current.server host
  state.wireguardMgmtIp ≠ some (mgmtOf mgmt host) ||
    (desiredKeys d current host).any (fun k => k ∉ currentKeys current host) ||
    peerKeyPending d current host || !state.keysExist || !state.installed ||
    (decide (1 < d.hosts.length) && state.listenPort ≠ d.listenPortFor host)

/-- The keys that are listed as actions can be cut; a key that cannot makes the planner panic. -/
def keysCut : Bool :=
  let have' := currentKeys current host
  let want := desiredKeys d current host
  (want.filter fun k => k ∉ have').all (fun k => (truncateKey k).isSome) &&
    (have'.filter fun k => k ∉ want).all fun k => (truncateKey k).isSome

def wgActions : List PlannedAction :=
  let state := current.server host
  let have' := currentKeys current host
  let want := desiredKeys d current host
  let needs := needsConfig d current mgmt host
  pushIf (!state.installed) host "" .installWg "wireguard not installed" ++
  pushIf (!state.keysExist) host "" .genKeyPair "missing /etc/wireguard/privatekey" ++
  (want.filter fun k => k ∉ have').map (fun k => ⟨host, "", .addPeer, (truncateKey k).getD ""⟩) ++
  (have'.filter fun k => k ∉ want).map (fun k => ⟨host, "", .removePeer, (truncateKey k).getD ""⟩) ++
  pushIf needs host "" .writeConfig
    (d.interface ++ ".conf (" ++ toString (d.hosts.length - 1) ++ " peer(s))") ++
  pushIf (!state.active) host "" .enableService ("systemctl enable --now wg-quick@" ++ d.interface) ++
  pushIf (state.active && needs) host "" .reloadService
    ("systemctl reload wg-quick@" ++ d.interface ++ " (config changed)")

/-! ### Podman and the firewall -/

/-- The network of a namespace does not exist yet. -/
def networkMissing (ns : String) : Bool :=
  (((current.server host).namespaces.lookup ns).map fun s => !s.networkExists).getD true

/-- The network of a namespace exists and differs from what it should be. -/
def networkDrift (ns : String) : Bool :=
  match (current.server host).namespaces.lookup ns with
  | none => false
  | some nss => nss.dnsEnabled || nss.containerSubnet ≠ some (subnetOf subnets ns host) || nss.label ≠ ns

def networkActions (ns : String) : List PlannedAction :=
  let net := podmanNetworkFor ns
  let want := subnetOf subnets ns host
  pushIf (networkMissing current host ns) host ns .createPodmanNetwork
    (net ++ " subnet=" ++ toString want ++ " gateway=" ++ ipv4ToString (machineIp want)) ++
  pushIf (!networkMissing current host ns && networkDrift current subnets host ns) host ns .recreatePodmanNetwork
    (net ++ " — drift")

/-- The subnets of a host in the order of the namespaces. -/
def hostSubnets : List Ipv4Net := d.sortedNamespaces.map fun ns => subnetOf subnets ns host

/-- The unit of the firewall of a host. -/
def expectedFirewallUnit : String :=
  Firewall.firewallServiceUnit d.interface d.sortedNamespaces (hostSubnets d subnets host) d.defaultDenyContainers

def firewallDrift : Bool :=
  let state := current.server host
  !state.firewallActive || state.defaultDenyActive != d.defaultDenyContainers ||
    state.firewallUnitSha256 ≠ sha256Hex (Str.asBytes (expectedFirewallUnit d subnets host))

def podmanActions : List PlannedAction :=
  let state := current.server host
  pushIf (!state.podmanInstalled) host "" .installPodman "podman not installed" ++
  pushIf (!state.podmanSocketActive) host "" .enablePodmanSocket "systemctl enable --now podman.socket" ++
  pushIf (!state.ipForwardEnabled) host "" .enableIpForward "net.ipv4.ip_forward=1" ++
  d.sortedNamespaces.flatMap (networkActions current subnets host) ++
  pushIf (firewallDrift sha256Hex d current subnets host) host "" .installFirewall
    ("coolify-mesh-fw.service (" ++ d.interface ++ ", " ++ toString (hostSubnets d subnets host).length ++
      " namespace(s), default-deny=" ++ toString d.defaultDenyContainers ++ ")")

/-! ### The agents -/

def corrosionDrift : Bool :=
  binaryVersionDrift d.corrosionVersion (current.server host).corrosionInstalled (current.server host).corrosionVersion

def cooldDrift : Bool :=
  binaryVersionDrift d.cooldVersion (current.server host).cooldInstalled (current.server host).cooldVersion

/-- The other nodes by their addresses, as the planner lists them. -/
def corrosionPeers : List Ipv4Addr := (d.nodes.filter fun h => h ≠ host).filterMap fun h => mgmt.lookup h

/-- The configuration of Corrosion the planner expects. -/
def expectedCorrosionConfig : List UInt8 :=
  Corrosion.configBytes (mgmtOf mgmt host) d.corrosionGossipPort d.corrosionApiPort (corrosionPeers d mgmt host)
    d.corrosionGossipTls.isSome

def cfgDrift : Bool :=
  (current.server host).corrosionConfigHash ≠ sha256Hex (expectedCorrosionConfig d mgmt host)

def schemaHash : String := sha256Hex (Str.asBytes Corrosion.coolifySchemaSql)

def schemaDrift : Bool := (current.server host).corrosionSchemaSha256 ≠ schemaHash sha256Hex

/-- The namespaces with their networks and gateways on a host. -/
def nsConfigs : List CooldService.CooldNamespace :=
  d.sortedNamespaces.map fun ns =>
    { name := ns, network := podmanNetworkFor ns, bridgeGateway := machineIp (subnetOf subnets ns host) }

/-- The unit of coold on a host. -/
def expectedCooldUnit : String :=
  CooldService.serviceUnit (mgmtOf mgmt host) (nsConfigs d subnets host) d.cooldFluxConfig

def cooldUnitDrift : Bool :=
  (current.server host).cooldUnitSha256 ≠ sha256Hex (Str.asBytes (expectedCooldUnit d mgmt subnets host))

def cooldActions : List PlannedAction :=
  let state := current.server host
  let cfgDrift := cfgDrift sha256Hex d current mgmt host
  let schemaDrift := schemaDrift sha256Hex current host
  let corrosionDrift := corrosionDrift d current host
  let cooldDrift := cooldDrift d current host
  pushIf corrosionDrift host "" .installCorrosion
    ("corrosion " ++ d.corrosionVersion ++ " → /usr/local/bin/corrosion") ++
  pushIf cooldDrift host "" .installCoold ("coold " ++ d.cooldVersion ++ " → /usr/local/bin/coold") ++
  pushIf cfgDrift host "" .writeCorrosionConfig
    ("/etc/corrosion/config.toml (peers=" ++ toString (corrosionPeers d mgmt host).length ++ ")") ++
  pushIf (!state.corrosionSchemaExists || schemaDrift) host "" .writeCorrosionSchema
    (if schemaDrift && !state.corrosionSchemaSha256.isEmpty then
      "/etc/corrosion/schemas/coolify.sql [schema drift — DB will be reset]"
    else "/etc/corrosion/schemas/coolify.sql") ++
  pushIf (!state.corrosionActive || cfgDrift || corrosionDrift || schemaDrift) host "" .installCorrosionService
    "systemctl enable --now corrosion" ++
  pushIf (!state.cooldActive || cfgDrift || cooldDrift || cooldUnitDrift sha256Hex d current mgmt subnets host) host ""
    .installCooldService
    ("systemctl enable --now coold (mgmt=" ++ ipv4ToString (mgmtOf mgmt host) ++ ", namespaces=" ++
      toString (nsConfigs d subnets host).length ++ ")")

/-- The actions of one host. -/
def hostActions : List PlannedAction :=
  wgActions d current mgmt host ++
  (if d.isNode host && d.installPodman then podmanActions sha256Hex d current subnets host else []) ++
  (if d.isNode host && d.installCoold then cooldActions sha256Hex d current mgmt subnets host else [])

end Host

/-! ### The whole plan -/

/-- The message with which a mesh or a host is refused before anything is allocated. -/
def refusal (d : DesiredMesh) (current : MeshState) : Except CliError Unit :=
  if d.nodes ≠ [] ∧ d.defaultDenyContainers = true ∧ d.installPodman = false then
    .error (.bail "--default-deny requires --podman")
  else if d.nodes ≠ [] ∧ d.installCoold = true ∧ d.installPodman = false then
    .error (.bail "--install-coold requires --podman")
  else if d.nodes ≠ [] ∧ d.installPodman = true ∧ d.namespaces = [] then
    .error (.bail "at least one namespace is required")
  else
    match validateIntent d with
    | .error e => .error e
    | .ok () =>
      match d.nodes.find? fun h =>
          ((current.servers.lookup h).map fun s => d.defaultDenyContainers && !s.nftAvailable).getD false with
      | some host =>
        .error (.bail
          s!"host {host}: nft binary not available; install nftables or pass --skip-default-deny")
      | none => .ok ()

def buildPlan (sha256Hex : List UInt8 → String) (d : DesiredMesh) (current : MeshState) : Except CliError Plan :=
  match refusal d current with
  | .error e => .error e
  | .ok () =>
    match allocateMgmtIps d.mgmtPool current.assignedMgmtIps d.hosts with
    | .error e => .error e
    | .ok (mgmt, warnings) =>
      match allocateNamespaced d.containerPool d.containerPrefix current.assignedContainerSubnets d.namespaces
          d.nodes with
      | .error e => .error e
      | .ok (subnets, contWarnings) =>
        if d.hosts.all (keysCut d current) then
          .ok (filterByIntent
            { actions := d.hosts.flatMap (hostActions sha256Hex d current mgmt subnets)
              mgmtAssignments := mgmt
              subnetAssignments := subnets
              warnings := warnings ++ contWarnings
              skipped := [] } d)
        else .error .panics

/-- A mesh of these nodes with the values of the planner's test, to be set up with released versions. -/
def meshOf (nodes : List String) : DesiredMesh where
  hosts := nodes
  nodes := nodes
  nodes_subset := fun _ h => h
  interface := "wg0"
  mgmtPool := ⟨0x64400000, 16, by decide⟩
  containerPool := ⟨0x0AD20000, 16, by decide⟩
  containerPrefix := 24
  listenPort := 51820
  listenPortOverrides := ∅
  endpointOverrides := ∅
  installPodman := true
  namespaces := ["default"]
  defaultDenyContainers := false
  installCoold := true
  cooldVersion := "v1"
  corrosionVersion := "v1"
  corrosionGossipPort := 8787
  corrosionApiPort := 8080
  cooldSha256 := none
  corrosionSha256 := none
  corrosionGossipTls := none
  fluxTls := none
  fluxTlsUrl := none
  intent := .bootstrap
  newNodes := []
  allowReplace := false
  allowNightly := false

/-- The planner's test: an upgrade rejects a version that moves. -/
example : (buildPlan (fun _ => "") { meshOf ["h"] with cooldVersion := "nightly", intent := .upgrade } ⟨∅⟩).toOption =
    none := by
  rfl

/-! ### The tests behind the actions -/

section Tests

variable (sha256Hex : List UInt8 → String) (d : DesiredMesh) (current : MeshState) (mgmt : Dict String Ipv4Addr)
  (subnets : Subnets) (host : String)

/-- The test for the actions of a type. -/
def hostTest : ActionType → Bool
  | .installWg => !(current.server host).installed
  | .genKeyPair => !(current.server host).keysExist
  | .allocateMgmtIp | .allocateContainerSubnet => false
  | .writeConfig => needsConfig d current mgmt host
  | .enableService => !(current.server host).active
  | .reloadService => (current.server host).active && needsConfig d current mgmt host
  | .addPeer => (desiredKeys d current host).any fun k => k ∉ currentKeys current host
  | .removePeer => (currentKeys current host).any fun k => k ∉ desiredKeys d current host
  | .installPodman => podman && !(current.server host).podmanInstalled
  | .enablePodmanSocket => podman && !(current.server host).podmanSocketActive
  | .enableIpForward => podman && !(current.server host).ipForwardEnabled
  | .createPodmanNetwork => podman && d.sortedNamespaces.any (networkMissing current host)
  | .recreatePodmanNetwork =>
    podman && d.sortedNamespaces.any fun ns =>
      !networkMissing current host ns && networkDrift current subnets host ns
  | .installFirewall => podman && firewallDrift sha256Hex d current subnets host
  | .installCorrosion => agents && corrosionDrift d current host
  | .installCoold => agents && cooldDrift d current host
  | .writeCorrosionConfig => agents && cfgDrift sha256Hex d current mgmt host
  | .writeCorrosionSchema =>
    agents && (!(current.server host).corrosionSchemaExists || schemaDrift sha256Hex current host)
  | .installCorrosionService =>
    agents && (!(current.server host).corrosionActive || cfgDrift sha256Hex d current mgmt host ||
      corrosionDrift d current host || schemaDrift sha256Hex current host)
  | .installCooldService =>
    agents && (!(current.server host).cooldActive || cfgDrift sha256Hex d current mgmt host ||
      cooldDrift d current host || cooldUnitDrift sha256Hex d current mgmt subnets host)
where
  podman := d.isNode host && d.installPodman
  agents := d.isNode host && d.installCoold

/-- The schema is written over another one. -/
def resetsDb : Bool := schemaDrift sha256Hex current host && !(current.server host).corrosionSchemaSha256.isEmpty

/-- Whether an extension drops the actions of a type on an existing host. -/
def extensionDrops : ActionType → Bool
  | .recreatePodmanNetwork => !d.allowReplace
  | .installCorrosion | .installCoold => true
  | .writeCorrosionSchema => resetsDb sha256Hex current host
  | _ => false

def upgradeDrops : ActionType → Bool
  | .installCorrosion | .installCoold | .installCorrosionService | .installCooldService => false
  | _ => true

/-- Whether the intent drops the actions of a type on a host. -/
def dropsType (t : ActionType) : Bool :=
  match d.intent with
  | .bootstrap => false
  | .extend => decide (host ∉ d.newNodes) && extensionDrops sha256Hex d current host t
  | .upgrade => upgradeDrops t

end Tests

section HostActions

variable {sha256Hex : List UInt8 → String} {d : DesiredMesh} {current : MeshState} {mgmt : Dict String Ipv4Addr}
  {subnets : Subnets} {host : String}

@[simp] theorem any_pushIf {test : Bool} {ns : String} {t : ActionType} {detail : String} {p : PlannedAction → Bool} :
    (pushIf test host ns t detail).any p = (test && p ⟨host, ns, t, detail⟩) := by
  cases test <;> simp [pushIf]

@[simp] theorem forall_mem_pushIf {test : Bool} {ns : String} {t : ActionType} {detail : String}
    {p : PlannedAction → Prop} :
    (∀ a ∈ pushIf test host ns t detail, p a) ↔ (test = true → p ⟨host, ns, t, detail⟩) := by
  cases test <;> simp [pushIf]

private theorem any_ite {α : Type} {c : Bool} {l : List α} {p : α → Bool} :
    (if c = true then l else []).any p = (c && l.any p) := by
  cases c <;> simp

private theorem any_false {α : Type} (l : List α) : (l.any fun _ => false) = false := by
  simp

/-- A host has an action of a type if and only if the test for the type says so. -/
private theorem any_hostActions (t : ActionType) :
    ((hostActions sha256Hex d current mgmt subnets host).any fun a => decide (a.actionType = t)) =
      hostTest sha256Hex d current mgmt subnets host t := by
  unfold hostActions wgActions podmanActions networkActions cooldActions
  simp only [List.any_append, any_ite, any_pushIf, List.any_map, List.any_filter, List.any_flatMap]
  cases t <;> simp [any_false, hostTest, hostTest.podman, hostTest.agents]

private theorem forall_mem_ite {α : Type} {c : Bool} {l : List α} {p : α → Prop} :
    (∀ a ∈ if c = true then l else [], p a) ↔ (c = true → ∀ a ∈ l, p a) := by
  cases c <;> simp

theorem host_of_mem_hostActions {a : PlannedAction} (ha : a ∈ hostActions sha256Hex d current mgmt subnets host) :
    a.host = host := by
  suffices h : ∀ a ∈ hostActions sha256Hex d current mgmt subnets host, a.host = host from h a ha
  unfold hostActions wgActions podmanActions networkActions cooldActions
  simp only [List.forall_mem_append, forall_mem_ite, forall_mem_pushIf, List.forall_mem_map, List.forall_mem_flatMap,
    implies_true, and_self]

/-- Writing a schema over another one is announced as a reset of the database. -/
private theorem categorize_schema {a : PlannedAction} (ha : a ∈ hostActions sha256Hex d current mgmt subnets host)
    (ht : a.actionType = .writeCorrosionSchema) :
    categorize a = if resetsDb sha256Hex current host = true then .wipeDb else .schemaFirstWrite := by
  suffices h : ∀ a ∈ hostActions sha256Hex d current mgmt subnets host, a.actionType = .writeCorrosionSchema →
      categorize a = if resetsDb sha256Hex current host = true then .wipeDb else .schemaFirstWrite from h a ha ht
  have hdetail : containsText (if resetsDb sha256Hex current host = true then
        "/etc/corrosion/schemas/coolify.sql [schema drift — DB will be reset]"
      else "/etc/corrosion/schemas/coolify.sql") "DB will be reset" = resetsDb sha256Hex current host := by
    cases resetsDb sha256Hex current host <;> decide
  unfold hostActions wgActions podmanActions networkActions cooldActions
  simp only [List.forall_mem_append, forall_mem_ite, forall_mem_pushIf, List.forall_mem_map, List.forall_mem_flatMap]
  simp only [reduceCtorEq, false_implies, implies_true, true_and, and_true, true_implies, categorize]
  intro _ _
  rw [resetsDb] at hdetail
  rw [hdetail]
  rfl

/-- The action for the schema is dropped as a reset of the database, every other one by its type. -/
private theorem isSome_decideAction {a : PlannedAction} (ha : a ∈ hostActions sha256Hex d current mgmt subnets host) :
    (decideAction a d).isSome = dropsType sha256Hex d current host a.actionType := by
  have hhost := host_of_mem_hostActions ha
  have hschema := fun ht => categorize_schema ha ht
  unfold decideAction dropsType
  rw [hhost]
  cases d.intent with
  | bootstrap => rfl
  | extend =>
    by_cases hnew : host ∈ d.newNodes
    · simp [hnew]
    · simp only [hnew, if_false, not_false_eq_true, decide_true, Bool.true_and]
      unfold extensionDrops
      cases ht : a.actionType with
      | writeCorrosionSchema =>
        rw [hschema ht]
        cases resetsDb sha256Hex current host <;> rfl
      | recreatePodmanNetwork =>
        simp only [categorize, ht]
        cases d.allowReplace <;> rfl
      | _ => simp only [categorize, ht, Option.isSome_none, Option.isSome_some]
  | upgrade =>
    unfold upgradeDrops
    cases ht : a.actionType with
    | writeCorrosionSchema =>
      simp only [hschema ht]
      cases resetsDb sha256Hex current host <;> rfl
    | _ => simp [categorize, ht]

theorem hostActions_eq_nil_iff :
    hostActions sha256Hex d current mgmt subnets host = [] ↔
      ∀ t, hostTest sha256Hex d current mgmt subnets host t = false := by
  constructor
  · intro h t
    rw [← any_hostActions, h, List.any_nil]
  · intro h
    rw [List.eq_nil_iff_forall_not_mem]
    intro a ha
    have hnone := h a.actionType
    rw [← any_hostActions, List.any_eq_false] at hnone
    exact hnone a ha (by simp)

end HostActions

/-- A plan of a mesh: nothing is refused, its addresses are the allocated ones, and the actions of all hosts are split
by the intent. -/
structure IsPlan (sha256Hex : List UInt8 → String) (d : DesiredMesh) (current : MeshState) (plan : Plan) : Prop where
  accepted : refusal d current = .ok ()
  mgmt : ∃ w, allocateMgmtIps d.mgmtPool current.assignedMgmtIps d.hosts = .ok (plan.mgmtAssignments, w)
  subnets : ∃ w, allocateNamespaced d.containerPool d.containerPrefix current.assignedContainerSubnets d.namespaces
    d.nodes = .ok (plan.subnetAssignments, w)
  actions : plan.actions =
    (d.hosts.flatMap (hostActions sha256Hex d current plan.mgmtAssignments plan.subnetAssignments)).filter
      fun a => (decideAction a d).isNone
  skipped : plan.skipped =
    (d.hosts.flatMap (hostActions sha256Hex d current plan.mgmtAssignments plan.subnetAssignments)).filterMap
      fun a => (decideAction a d).map fun reason => ⟨a, reason⟩

section BuildPlan

variable {sha256Hex : List UInt8 → String} {d : DesiredMesh} {current : MeshState} {plan : Plan} {host ns : String}
  {t : ActionType}

theorem assignments_filterByIntent (plan : Plan) (d : DesiredMesh) :
    (filterByIntent plan d).mgmtAssignments = plan.mgmtAssignments ∧
      (filterByIntent plan d).subnetAssignments = plan.subnetAssignments := by
  unfold filterByIntent
  split <;> exact ⟨rfl, rfl⟩

theorem isPlan_of_buildPlan (h : buildPlan sha256Hex d current = .ok plan) : IsPlan sha256Hex d current plan := by
  unfold buildPlan at h
  split at h
  · cases h
  next hrefuse =>
    split at h
    · cases h
    next mgmt w hmgmt =>
      split at h
      · cases h
      next subnets w' hsubnets =>
        split at h
        case isFalse => cases h
        cases h
        obtain ⟨ha, hs⟩ := filterByIntent_spec
          { actions := d.hosts.flatMap (hostActions sha256Hex d current mgmt subnets)
            mgmtAssignments := mgmt, subnetAssignments := subnets, warnings := w ++ w', skipped := [] } d
        obtain ⟨hm, hsub⟩ := assignments_filterByIntent
          { actions := d.hosts.flatMap (hostActions sha256Hex d current mgmt subnets)
            mgmtAssignments := mgmt, subnetAssignments := subnets, warnings := w ++ w', skipped := [] } d
        exact {
          accepted := hrefuse
          mgmt := ⟨w, by rw [hm]; exact hmgmt⟩
          subnets := ⟨w', by rw [hsub]; exact hsubnets⟩
          actions := by rw [hm, hsub]; exact ha
          skipped := by rw [hm, hsub]; exact hs }

/-- A plan is found by evaluation. -/
theorem exists_buildPlan {p : Plan → Bool} (h : (buildPlan sha256Hex d current).toOption.any p = true) :
    ∃ plan, buildPlan sha256Hex d current = .ok plan ∧ p plan = true := by
  cases hb : buildPlan sha256Hex d current with
  | error e => rw [hb] at h; cases h
  | ok plan => exact ⟨plan, rfl, by rw [hb] at h; exact h⟩

/-- The plan has an action if and only if it is one of its host that the intent lets pass. -/
theorem IsPlan.mem_actions (h : IsPlan sha256Hex d current plan) {a : PlannedAction} :
    a ∈ plan.actions ↔ a.host ∈ d.hosts ∧
      a ∈ hostActions sha256Hex d current plan.mgmtAssignments plan.subnetAssignments a.host ∧
      decideAction a d = none := by
  rw [h.actions, List.mem_filter, List.mem_flatMap, Option.isNone_iff_eq_none]
  constructor
  · rintro ⟨⟨host, hhost, ha⟩, hpass⟩
    rw [host_of_mem_hostActions ha]
    exact ⟨hhost, ha, hpass⟩
  · rintro ⟨hhost, ha, hpass⟩
    exact ⟨⟨a.host, hhost, ha⟩, hpass⟩

/-- Only the hosts of the mesh have actions, and only where a test says so. -/
theorem IsPlan.hostTest_of_shouldRun (h : IsPlan sha256Hex d current plan) (hrun : shouldRun plan host t ns = true) :
    host ∈ d.hosts ∧
      hostTest sha256Hex d current plan.mgmtAssignments plan.subnetAssignments host t = true := by
  obtain ⟨a, ha, rfl, rfl, -⟩ := shouldRun_iff.1 hrun
  obtain ⟨hhost, hmem, -⟩ := h.mem_actions.1 ha
  refine ⟨hhost, ?_⟩
  rw [← any_hostActions, List.any_eq_true]
  exact ⟨a, hmem, by simp⟩

/-- What the intent drops is not run. -/
theorem IsPlan.dropsType_of_shouldRun (h : IsPlan sha256Hex d current plan) (hrun : shouldRun plan host t ns = true) :
    dropsType sha256Hex d current host t = false := by
  obtain ⟨a, ha, rfl, rfl, -⟩ := shouldRun_iff.1 hrun
  obtain ⟨-, hmem, hpass⟩ := h.mem_actions.1 ha
  rw [← isSome_decideAction hmem, hpass, Option.isSome_none]

/-- Actions of a type are planned where the test says so and the intent does not drop them. -/
theorem IsPlan.shouldRun_eq_hostTest (h : IsPlan sha256Hex d current plan) (hhost : host ∈ d.hosts) :
    shouldRun plan host t "" =
      (hostTest sha256Hex d current plan.mgmtAssignments plan.subnetAssignments host t &&
        !dropsType sha256Hex d current host t) := by
  rw [Bool.eq_iff_iff, Bool.and_eq_true, Bool.not_eq_true']
  refine ⟨fun hrun => ⟨(h.hostTest_of_shouldRun hrun).2, h.dropsType_of_shouldRun hrun⟩, ?_⟩
  rintro ⟨htest, hpass⟩
  rw [← any_hostActions, List.any_eq_true] at htest
  obtain ⟨a, ha, ht⟩ := htest
  obtain rfl := host_of_mem_hostActions ha
  obtain rfl : a.actionType = t := by simpa using ht
  rw [← isSome_decideAction ha, Option.isSome_eq_false_iff, Option.isNone_iff_eq_none] at hpass
  exact shouldRun_iff.2 ⟨a, h.mem_actions.2 ⟨hhost, ha, hpass⟩, rfl, rfl, .inl rfl⟩

/-- A bootstrap does what the tests say. -/
theorem IsPlan.shouldRun_eq (h : IsPlan sha256Hex d current plan) (hb : d.intent = .bootstrap) (hhost : host ∈ d.hosts) :
    shouldRun plan host t "" = hostTest sha256Hex d current plan.mgmtAssignments plan.subnetAssignments host t := by
  rw [h.shouldRun_eq_hostTest hhost, dropsType, hb, Bool.not_false, Bool.and_true]

end BuildPlan

end Coold.Cli
