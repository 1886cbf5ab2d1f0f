import Coold.Cli.Subnet

/-!
# The probed and the desired state of a mesh

`ServerState` is what one probe of a host reports, `MeshState` what the probes of all hosts report; a host whose probe
failed is missing there.  `DesiredMesh` is what the operator asked for: `hosts` take part in the WireGuard mesh, and
`nodes`, which are among them, run Podman, the agents and the firewall.
-/

namespace Coold.Cli

/-- A peer section of the WireGuard configuration, with the handshake of the running interface. -/
structure Peer where
  publicKey : String := ""
  endpoint : String := ""
  allowedIps : List String := []
  latestHandshake : Int := 0
  persistentKeepalive : UInt16 := 0
  deriving DecidableEq

structure NamespaceServerState where
  networkExists : Bool := false
  containerSubnet : Option Ipv4Net := none
  dnsEnabled : Bool := false
  label : String := ""
  deriving DecidableEq

structure ServerState where
  installed : Bool := false
  keysExist : Bool := false
  publicKey : String := ""
  wireguardMgmtIp : Option Ipv4Addr := none
  listenPort : UInt16 := 0
  active : Bool := false
  peers : List Peer := []
  podmanInstalled : Bool := false
  podmanSocketActive : Bool := false
  namespaces : Dict String NamespaceServerState := ∅
  ipForwardEnabled : Bool := false
  firewallActive : Bool := false
  defaultDenyActive : Bool := false
  firewallUnitSha256 : String := ""
  nftAvailable : Bool := false
  corrosionInstalled : Bool := false
  corrosionActive : Bool := false
  corrosionConfigHash : String := ""
  corrosionSchemaExists : Bool := false
  corrosionSchemaSha256 : String := ""
  cooldInstalled : Bool := false
  cooldActive : Bool := false
  corrosionVersion : String := ""
  cooldVersion : String := ""
  cooldUnitSha256 : String := ""

structure MeshState where
  servers : Dict String ServerState

namespace MeshState

/-- The state of a host, or the state of a blank one. -/
def server (st : MeshState) (host : String) : ServerState := (st.servers.lookup host).getD {}

def assignedMgmtIps (st : MeshState) : Dict String Ipv4Addr := st.servers.filterMapVal ServerState.wireguardMgmtIp

/-- The subnets in use by namespace and host. -/
def assignedContainerSubnets (st : MeshState) (ns : String) : Dict String Ipv4Net :=
  st.servers.filterMapVal fun s => (s.namespaces.lookup ns).bind NamespaceServerState.containerSubnet

theorem lookup_assignedMgmtIps (st : MeshState) (host : String) :
    st.assignedMgmtIps.lookup host = (st.servers.lookup host).bind ServerState.wireguardMgmtIp :=
  Dict.lookup_filterMapVal _ _ _

theorem lookup_assignedContainerSubnets (st : MeshState) (ns host : String) :
    (st.assignedContainerSubnets ns).lookup host = (st.servers.lookup host).bind fun s =>
      (s.namespaces.lookup ns).bind NamespaceServerState.containerSubnet :=
  Dict.lookup_filterMapVal _ _ _

end MeshState

structure SelfSignedCert where
  certPem : String
  keyPem : String
  deriving DecidableEq

inductive Intent where
  | bootstrap
  | extend
  | upgrade
  deriving DecidableEq

structure DesiredMesh where
  hosts : List String
  nodes : List String
  nodes_subset : ∀ h ∈ nodes, h ∈ hosts
  interface : String
  mgmtPool : Ipv4Net
  containerPool : Ipv4Net
  containerPrefix : Nat
  listenPort : UInt16
  listenPortOverrides : Dict String UInt16
  endpointOverrides : Dict String String
  installPodman : Bool
  namespaces : List String
  defaultDenyContainers : Bool
  installCoold : Bool
  cooldVersion : String
  corrosionVersion : String
  corrosionGossipPort : UInt16
  corrosionApiPort : UInt16
  cooldSha256 : Option String
  corrosionSha256 : Option String
  corrosionGossipTls : Option SelfSignedCert
  fluxTls : Option SelfSignedCert
  fluxTlsUrl : Option String
  intent : Intent
  newNodes : List String
  allowReplace : Bool
  allowNightly : Bool

def fluxPinPath : String := "/etc/coolify/flux.pin"

def hostJwtPath : String := "/etc/coolify/host-jwt"

/-- What the unit of coold is told about flux. -/
structure FluxConfig where
  url : String
  jwtPath : String
  tlsPinPath : Option String
  deriving DecidableEq

namespace DesiredMesh

variable (d : DesiredMesh)

def isNode (host : String) : Bool := d.nodes.any fun h => h == host

/-- The flux configuration of the unit of coold, if the mesh has a flux URL. -/
def cooldFluxConfig : Option FluxConfig :=
  d.fluxTlsUrl.map fun url => { url := url, jwtPath := hostJwtPath, tlsPinPath := some fluxPinPath }

def sortedNamespaces : List String := d.namespaces.insertionSort fun a b => a ≤ b

def listenPortFor (host : String) : UInt16 := (d.listenPortOverrides.lookup host).getD d.listenPort

/-- The endpoint override of a host, or its name up to the first colon. -/
def endpointFor (host : String) : String :=
  (d.endpointOverrides.lookup host).getD (String.ofList (host.toList.takeWhile fun c => c ≠ ':'))

/-- The hosts of the mesh other than `host`. -/
def others (host : String) : List String := d.hosts.filter fun p => p ≠ host

theorem isNode_iff {host : String} : d.isNode host = true ↔ host ∈ d.nodes := by
  simp [isNode]

theorem mem_sortedNamespaces {ns : String} : ns ∈ d.sortedNamespaces ↔ ns ∈ d.namespaces :=
  List.mem_insertionSort _

theorem mem_others {host p : String} : p ∈ d.others host ↔ p ∈ d.hosts ∧ p ≠ host := by
  simp [others]

end DesiredMesh

end Coold.Cli
