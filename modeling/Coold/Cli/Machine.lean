import Coold.Cli.Apply

/-!
# The machines behind the probes and commands

`Machine` is what a host is made of: files and services (`Shell.Host`), the packages, the WireGuard configuration and
the networks of Podman.  `probe` is the report of a host that answers in full, and `Machine.effect` what a command does
when it has its intended effect: packages are installed, files are written as given, services are active and networks
are made.  The configuration of WireGuard is kept as the probe reads it back.

A run is carried out on all machines (`execLog`).  A command works on its own host only, so a machine sees the commands
of its host in their order, however the hosts take turns (`execLog_apply`).
-/

namespace Coold.Cli

open Shell

structure Network where
  subnet : Option Ipv4Net
  dnsEnabled : Bool
  label : String
  deriving DecidableEq

/-- A WireGuard configuration as it is read back. -/
structure WgConf where
  mgmtIp : Option Ipv4Addr
  listenPort : UInt16
  peers : List Peer
  deriving DecidableEq

structure Machine where
  host : Shell.Host
  wgInstalled : Bool
  conf : Option WgConf
  wgActive : Bool
  podmanInstalled : Bool
  podmanSocketActive : Bool
  ipForwardEnabled : Bool
  networks : Dict String Network
  defaultDenyActive : Bool
  nftAvailable : Bool

/-- A machine on which nothing has been installed. -/
def Machine.blank : Machine where
  host := ⟨0, fun _ => none, fun _ => none⟩
  wgInstalled := false
  conf := none
  wgActive := false
  podmanInstalled := false
  podmanSocketActive := false
  ipForwardEnabled := false
  networks := ∅
  defaultDenyActive := false
  nftAvailable := false

def privateKeyPath : String := "/etc/wireguard/privatekey"
def publicKeyPath : String := "/etc/wireguard/publickey"

/-- The place of a binary, and of the file with its version. -/
def binPath (name : String) : String := "/usr/local/bin/" ++ name
def versionPath (name : String) : String := "/usr/local/bin/" ++ name ++ ".version"

/-! ### The probe -/

namespace Machine

variable (m : Machine)

/-- `cat` of a file that may be missing. -/
def text (path : String) : String := ((m.host.files path).map File.content).getD ""

/-- `test -s`: there is something in the file. -/
def hasText (path : String) : Bool := !(m.text path).isEmpty

/-- `test -x` of an installed binary. -/
def hasFile (path : String) : Bool := (m.host.files path).isSome

def hash (sha256Hex : List UInt8 → String) (path : String) : String :=
  ((m.host.files path).map fun f => sha256Hex (Str.asBytes f.content)).getD ""

def isActive (unit : String) : Bool := (m.host.started unit).isSome

/-- The private and the public key are there. -/
def hasKeypair : Bool := m.hasText publicKeyPath && m.hasText privateKeyPath

end Machine

/-- The value of a line of the report: the rest of the line, without the white space around it. -/
def readField (s : String) : String := Str.trim ((Str.split '\n' s).headD "")

def probeNamespace (m : Machine) (ns : String) : NamespaceServerState :=
  match m.networks.lookup (podmanNetworkFor ns) with
  | none => {}
  | some net => { networkExists := true, containerSubnet := net.subnet, dnsEnabled := net.dnsEnabled, label := net.label }

/-- What a host reports. -/
def probe (sha256Hex : List UInt8 → String) (namespaces : List String) (m : Machine) : ServerState where
  installed := m.wgInstalled
  keysExist := m.hasKeypair
  publicKey := readField (m.text publicKeyPath)
  wireguardMgmtIp := m.conf.bind WgConf.mgmtIp
  listenPort := (m.conf.map WgConf.listenPort).getD 0
  active := m.wgActive
  peers := (m.conf.map WgConf.peers).getD []
  podmanInstalled := m.podmanInstalled
  podmanSocketActive := m.podmanSocketActive
  namespaces := Dict.collect (namespaces.map fun ns => (ns, probeNamespace m ns))
  ipForwardEnabled := m.ipForwardEnabled
  firewallActive := m.isActive Firewall.firewallServiceName
  defaultDenyActive := m.defaultDenyActive
  firewallUnitSha256 := m.hash sha256Hex Firewall.firewallUnitPath
  nftAvailable := m.nftAvailable
  corrosionInstalled := m.hasFile (binPath "corrosion")
  corrosionActive := m.isActive "corrosion"
  corrosionConfigHash := m.hash sha256Hex Corrosion.configPath
  corrosionSchemaExists := m.hasText Corrosion.schemaPath
  corrosionSchemaSha256 := m.hash sha256Hex Corrosion.schemaPath
  cooldInstalled := m.hasFile (binPath "coold")
  cooldActive := m.isActive "coold"
  corrosionVersion := readField (m.text (versionPath "corrosion"))
  cooldVersion := readField (m.text (versionPath "coold"))
  cooldUnitSha256 := m.hash sha256Hex CooldService.unitPath

/-- All machines by their hosts. -/
abbrev World := String → Machine

/-- The state that is put together from the answers; a host whose probe fails is left out. -/
def reconstruct (hosts : List String) (answer : String → Option ServerState) : MeshState where
  servers := Dict.collect (hosts.filterMap fun h => (answer h).map fun s => (h, s))

/-- The state where every host of the mesh answers. -/
def probeMesh (sha256Hex : List UInt8 → String) (d : DesiredMesh) (w : World) : MeshState :=
  reconstruct d.hosts fun h => some (probe sha256Hex d.namespaces (w h))

theorem lookup_reconstruct (hosts : List String) (answer : String → Option ServerState) (host : String) :
    (reconstruct hosts answer).servers.lookup host = if host ∈ hosts then answer host else none :=
  Dict.lookup_collect_self answer hosts host

theorem lookup_probeMesh (sha256Hex : List UInt8 → String) {d : DesiredMesh} (w : World) {host : String}
    (hhost : host ∈ d.hosts) :
    (probeMesh sha256Hex d w).servers.lookup host = some (probe sha256Hex d.namespaces (w host)) := by
  rw [probeMesh, lookup_reconstruct, if_pos hhost]

theorem server_probeMesh (sha256Hex : List UInt8 → String) {d : DesiredMesh} (w : World) {host : String}
    (hhost : host ∈ d.hosts) :
    (probeMesh sha256Hex d w).server host = probe sha256Hex d.namespaces (w host) := by
  rw [MeshState.server, lookup_probeMesh sha256Hex w hhost, Option.getD_some]

/-! ### What the commands do -/

/-- Put a text into a file. -/
def Machine.write (m : Machine) (path content : String) : Machine :=
  { m with host := { m.host with files := Function.update m.host.files path (some ⟨content, m.host.clock⟩) } }

/-- The time of one command. -/
def Machine.tick (m : Machine) : Machine := { m with host := { m.host with clock := m.host.clock + 1 } }

/-- The binary of a release, and the file with its version. -/
def Machine.installBinary (m : Machine) (name version : String) : Machine :=
  ((m.write (binPath name) (name ++ " " ++ version)).write (versionPath name) (version ++ "\n")).tick

private theorem binPath_ne_versionPath (name : String) : binPath name ≠ versionPath name := by
  intro h
  have hlist : (binPath name).toList = (binPath name).toList ++ ".version".toList := by
    rw [← String.toList_append]
    exact congrArg String.toList h
  exact absurd (List.self_eq_append_right.1 hlist) (by decide)

theorem files_installBinary (m : Machine) (name version : String) :
    (m.installBinary name version).host.files (binPath name) = some ⟨name ++ " " ++ version, m.host.clock⟩ ∧
      (m.installBinary name version).host.files (versionPath name) = some ⟨version ++ "\n", m.host.clock⟩ := by
  simp [Machine.installBinary, Machine.tick, Machine.write, binPath_ne_versionPath]

/-- What a command does on its host.  `keys` is the keypair that is generated there. -/
def Machine.effect (keys : String × String) (m : Machine) : Cmd → Machine
  | .aptWg => { m with wgInstalled := true }
  | .genkey => ((m.write privateKeyPath keys.1).write publicKeyPath keys.2).tick
  | .aptPodman => { m with podmanInstalled := true, nftAvailable := true }
  | .enablePodman => { m with podmanSocketActive := true }
  | .enableIpForward => { m with ipForwardEnabled := true }
  | .writeConfig _ mgmtIp listenPort peers =>
    { m with conf := some ⟨some mgmtIp, listenPort, peers.map fun p => p.toPeer listenPort⟩ }
  | .reloadWg _ => { m with wgActive := true }
  | .enableWg _ => { m with wgActive := true }
  | .createNetwork net ns sn _ =>
    if (m.networks.lookup net).isSome then m else { m with networks := m.networks.insert net ⟨some sn, false, ns⟩ }
  | .recreateNetwork net ns sn _ => { m with networks := m.networks.insert net ⟨some sn, false, ns⟩ }
  | .installFirewall iface namespaces subnets defaultDeny =>
    { m with host := run asGiven m.host (Firewall.installFirewallScript iface namespaces subnets defaultDeny),
             defaultDenyActive := defaultDeny }
  | .installCorrosion version _ => m.installBinary "corrosion" version
  | .installCoold version _ => m.installBinary "coold" version
  | .writeCorrosionConfig cfg gossipTls =>
    { m with host := run asGiven m.host (Cmd.writeCorrosionConfig cfg gossipTls).script }
  | .writeCorrosionSchema => { m with host := run asGiven m.host Cmd.writeCorrosionSchema.script }
  | .installCorrosionService iface =>
    { m with host := run asGiven m.host (Cmd.installCorrosionService iface).script }
  | .installCooldService mgmtIp ns flux fluxTls =>
    { m with host := run asGiven m.host (Cmd.installCooldService mgmtIp ns flux fluxTls).script }

/-- The machine after a row of commands. -/
def Machine.exec (keys : String × String) (m : Machine) (cmds : List Cmd) : Machine :=
  cmds.foldl (Machine.effect keys) m

/-- The machines after a log.  `keygen` gives the keypair that is generated on a host. -/
def execLog (keygen : String → String × String) (w : World) (log : Log) : World :=
  log.foldl (fun w e => Function.update w e.1 ((w e.1).effect (keygen e.1) e.2.cmd)) w

/-- The commands of a host in a log. -/
def cmdsOf (host : String) (log : Log) : List Cmd := (log.filter fun e => e.1 = host).map fun e => e.2.cmd

/-- A host sees its own commands in their order. -/
theorem execLog_apply (keygen : String → String × String) (w : World) (log : Log) (host : String) :
    execLog keygen w log host = (w host).exec (keygen host) (cmdsOf host log) := by
  induction log generalizing w with
  | nil => rfl
  | cons e log ih =>
    rw [execLog, List.foldl_cons, ← execLog, ih]
    by_cases h : e.1 = host
    · subst h
      simp [cmdsOf, Machine.exec]
    · rw [Function.update_of_ne (Ne.symm h)]
      simp [cmdsOf, h]

/-- What every command of a row leaves as it is, the row leaves as it is. -/
theorem exec_keeps {α : Type} {f : Machine → α} {keys : String × String} {cmds : List Cmd}
    (h : ∀ c ∈ cmds, ∀ m : Machine, f (m.effect keys c) = f m) (m : Machine) : f (m.exec keys cmds) = f m := by
  induction cmds generalizing m with
  | nil => rfl
  | cons c cmds ih =>
    rw [Machine.exec, List.foldl_cons, ← Machine.exec, ih fun c hc => h c (List.mem_cons_of_mem _ hc)]
    exact h c List.mem_cons_self m

/-- Only the command that writes it changes the configuration of WireGuard. -/
theorem conf_effect (keys : String × String) (m : Machine) {c : Cmd} (hc : c.actionType ≠ .writeConfig) :
    (m.effect keys c).conf = m.conf := by
  cases c
  case writeConfig => exact absurd rfl hc
  case createNetwork =>
    unfold Machine.effect
    dsimp only
    split <;> rfl
  all_goals rfl

theorem networks_effect (keys : String × String) (m : Machine) {c : Cmd} (hc : c.phase ≠ 2) :
    (m.effect keys c).networks = m.networks := by
  cases c
  case createNetwork | recreateNetwork => exact absurd rfl hc
  all_goals rfl

theorem mem_cmdsOf {host : String} {log : Log} {c : Cmd} : c ∈ cmdsOf host log ↔ ∃ s, (host, s) ∈ log ∧ s.cmd = c := by
  simp [cmdsOf]

end Coold.Cli
