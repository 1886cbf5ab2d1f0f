import Coold.Cli.State
import Coold.Lib.Shell

/-!
# The documents and scripts of the services

The configuration of Corrosion, the units of the services and of the firewall are texts made of lines.  They are written
by here-documents (`heredoc`, `installFirewallScript`), and their hashes tell the planner whether a host has them.
-/

namespace Coold.Cli

open Shell

/-- Write a file beside its place, set its mode and move it there. -/
def heredoc (path body mode : String) : Script :=
  [[.cat (path ++ ".tmp") "COOLIFY_CLI_EOF" body], [.chmod mode (path ++ ".tmp"), .mv (path ++ ".tmp") path]]

/-- The script of `heredoc` as it is handed to the shell. -/
theorem text_heredoc (path body mode : String) :
    text (heredoc path body mode) = "cat > " ++ path ++ ".tmp <<'COOLIFY_CLI_EOF'\n" ++ body ++
      "COOLIFY_CLI_EOF\nchmod " ++ mode ++ " " ++ path ++ ".tmp && mv " ++ path ++ ".tmp " ++ path := by
  have h1 : ".tmp <<'COOLIFY_CLI_EOF'\n" = ".tmp" ++ (" <<'" ++ ("COOLIFY_CLI_EOF" ++ ("'" ++ "\n"))) := by
    decide
  have h2 : "COOLIFY_CLI_EOF\nchmod " = "COOLIFY_CLI_EOF" ++ ("\n" ++ "chmod ") := by decide
  have h3 : ".tmp && mv " = ".tmp" ++ (" && " ++ "mv ") := by decide
  have h4 : ".tmp " = ".tmp" ++ " " := by decide
  have hcat : ∀ p m b, (Command.cat p m b).text = "cat > " ++ p ++ " <<'" ++ m ++ "'" := fun _ _ _ => rfl
  have hchmod : ∀ m p, (Command.chmod m p).text = "chmod " ++ m ++ " " ++ p := fun _ _ => rfl
  have hmv : ∀ p q, (Command.mv p q).text = "mv " ++ p ++ " " ++ q := fun _ _ => rfl
  rw [h1, h2, h3, h4]
  simp only [text, heredoc, lineText, hcat, hchmod, hmv, List.map_cons, List.map_nil, List.foldl_cons, List.foldl_nil,
    String.intercalate_cons_cons, String.intercalate_singleton, String.append_assoc]

/-- The file has the here-document, and its place next to it is free again. -/
theorem files_heredoc (doc : String → String → String) (h : Host) (path body mode : String) :
    (run doc h (heredoc path body mode)).files path = some ⟨doc "COOLIFY_CLI_EOF" body, h.clock + 2⟩ := by
  simp [run, heredoc, exec, effect]

def podmanNetworkFor (ns : String) : String := s!"coolify-{ns}-mesh"

/-! ### Corrosion -/

namespace Corrosion

def configPath : String := "/etc/corrosion/config.toml"
def schemaPath : String := "/etc/corrosion/schemas/coolify.sql"
def unitPath : String := "/etc/systemd/system/corrosion.service"
def gossipTlsDir : String := "/etc/corrosion/tls"
def gossipTlsCertPath : String := "/etc/corrosion/tls/gossip.pem"
def gossipTlsKeyPath : String := "/etc/corrosion/tls/gossip.key"

def coolifySchemaLines : List String :=
  ["CREATE TABLE service_endpoints (",
    "    container_id    TEXT NOT NULL DEFAULT '' PRIMARY KEY,",
    "    container_name  TEXT NOT NULL DEFAULT '',",
    "    namespace       TEXT NOT NULL DEFAULT '',",
    "    host_mgmt_ip    TEXT NOT NULL DEFAULT '',",
    "    container_ip    TEXT NOT NULL DEFAULT '',",
    "    state           TEXT NOT NULL DEFAULT '',",
    "    health          TEXT NOT NULL DEFAULT 'unknown',",
    "    updated_at      INTEGER NOT NULL DEFAULT 0",
    ");"]

def coolifySchemaSql : String := unlines coolifySchemaLines

/-- The gossip listener must not bind every interface: `config_bytes` panics for this address, which is not one that
is allocated (`assertMeshBind_mgmtOf`). -/
def assertMeshBind (bindAddr : Ipv4Addr) : Bool := bindAddr ≠ 0

def gossipTlsToml : List String :=
  ["plaintext = false", "[gossip.tls]", "cert_file = \"" ++ gossipTlsCertPath ++ "\"",
    "key_file = \"" ++ gossipTlsKeyPath ++ "\"", "insecure = true"]

def configLines (bindAddr : Ipv4Addr) (gossipPort apiPort : UInt16) (peers : List Ipv4Addr) (gossipTls : Bool) :
    List String :=
  let sorted := peers.insertionSort fun a b => a ≤ b
  let quoted (ip : Ipv4Addr) := "\"" ++ ipv4ToString ip ++ ":" ++ toString gossipPort.toNat ++ "\""
  ["# generated by coolify — do not edit", "[db]", "path = \"/var/lib/corrosion/corrosion.db\"",
    "schema_paths = [\"/etc/corrosion/schemas\"]", "", "[gossip]", "addr = " ++ quoted bindAddr,
    "bootstrap = [" ++ ", ".intercalate (sorted.map quoted) ++ "]"] ++
  (if gossipTls then gossipTlsToml else ["plaintext = true"]) ++
  ["", "[api]", "addr = \"127.0.0.1:" ++ toString apiPort.toNat ++ "\"", "", "[admin]",
    "path = \"/var/run/corrosion/admin.sock\""]

/-- The text whose bytes are `configBytes`. -/
def configText (bindAddr : Ipv4Addr) (gossipPort apiPort : UInt16) (peers : List Ipv4Addr) (gossipTls : Bool) :
    String :=
  unlines (configLines bindAddr gossipPort apiPort peers gossipTls)

def configBytes (bindAddr : Ipv4Addr) (gossipPort apiPort : UInt16) (peers : List Ipv4Addr) (gossipTls : Bool) :
    List UInt8 :=
  Str.asBytes (configText bindAddr gossipPort apiPort peers gossipTls)

def serviceUnitLines (iface : String) : List String :=
  ["[Unit]", "Description=Corrosion agent", s!"After=network-online.target wg-quick@{iface}.service",
    "Wants=network-online.target", s!"Requires=wg-quick@{iface}.service", "", "[Service]",
    "ExecStart=/usr/local/bin/corrosion agent --config /etc/corrosion/config.toml", "Restart=on-failure",
    "RestartSec=2s", "StateDirectory=corrosion", "WorkingDirectory=/var/lib/corrosion", "", "[Install]",
    "WantedBy=multi-user.target"]

def serviceUnit (iface : String) : String := unlines (serviceUnitLines iface)

end Corrosion

/-! ### coold -/

namespace CooldService

def unitPath : String := "/etc/systemd/system/coold.service"
def defaultCooldDnsZone : String := "coolify.internal"
def meshDnsAnchorService : String := "coolify-mesh-dns-anchor.service"
def meshDnsResolverService : String := "coolify-mesh-dns-resolver.service"
def meshDnsAnchorPath : String := "/etc/systemd/system/coolify-mesh-dns-anchor.service"
def meshDnsResolverPath : String := "/etc/systemd/system/coolify-mesh-dns-resolver.service"
def meshDnsAnchorImage : String := "docker.io/library/alpine:3.20"

structure CooldNamespace where
  name : String
  network : String
  bridgeGateway : Ipv4Addr
  deriving DecidableEq

def namespacesEnvValue (ns : List CooldNamespace) : String :=
  ",".intercalate (ns.map fun n => n.name ++ ":" ++ n.network ++ ":" ++ ipv4ToString n.bridgeGateway)

def hardeningDirectives : List String :=
  ["NoNewPrivileges=yes", "ProtectSystem=strict", "ProtectHome=yes", "PrivateTmp=yes",
    "ReadWritePaths=/etc/coolify /data/coolify /var/lib/containers",
    "ReadWritePaths=-/run/containers -/run/netavark -/run/libpod"]

def serviceUnitLines (mgmtIp : Ipv4Addr) (namespaces : List CooldNamespace) (flux : Option FluxConfig) :
    List String :=
  let nsEnv :=
    if namespaces.isEmpty then []
    else
      ["Environment=COOLIFY_COOLD_NAMESPACES=" ++ namespacesEnvValue namespaces,
        "Environment=COOLIFY_COOLD_DNS_ZONE=" ++ defaultCooldDnsZone]
  let fluxEnv :=
    match flux with
    | none => []
    | some s =>
      ["Environment=COOLIFY_COOLD_FLUX_URL=" ++ s.url, "Environment=COOLIFY_COOLD_HOST_JWT_PATH=" ++ s.jwtPath] ++
        (match s.tlsPinPath with
        | none => []
        | some p => ["Environment=COOLIFY_COOLD_FLUX_TLS_PIN_PATH=" ++ p])
  let meshDnsUnits :=
    if namespaces.isEmpty then "" else " " ++ meshDnsAnchorService ++ " " ++ meshDnsResolverService
  ["[Unit]", "Description=Coolify host agent", "Wants=corrosion.service" ++ meshDnsUnits,
    "After=corrosion.service network-online.target podman.socket coolify-mesh-fw.service" ++ meshDnsUnits, "",
    "[Service]", "Environment=COOLIFY_COOLD_HOST_MGMT_IP=" ++ ipv4ToString mgmtIp] ++ nsEnv ++ fluxEnv ++
  ["ExecStart=/usr/local/bin/coold", "AmbientCapabilities=CAP_NET_BIND_SERVICE CAP_NET_ADMIN CAP_NET_RAW"] ++
  hardeningDirectives ++ ["Restart=on-failure", "RestartSec=2s", "", "[Install]", "WantedBy=multi-user.target"]

def serviceUnit (mgmtIp : Ipv4Addr) (namespaces : List CooldNamespace) (flux : Option FluxConfig) : String :=
  unlines (serviceUnitLines mgmtIp namespaces flux)

def meshDnsAnchorContainerName (ns : String) : String := s!"coolify-mesh-dns-anchor-{ns}"

def meshDnsAnchorUnit (namespaces : List CooldNamespace) : String :=
  let starts := "; ".intercalate (namespaces.map fun n =>
    "podman run -d --replace --name " ++ meshDnsAnchorContainerName n.name ++ " --network " ++ n.network ++
      " --label io.coolify.managed=true --label io.coolify.role=mesh-dns-anchor --label io.coolify.namespace=" ++
      n.name ++ " " ++ meshDnsAnchorImage ++ " sleep infinity >/dev/null")
  let stops := "; ".intercalate (namespaces.map fun n =>
    "podman rm -f " ++ meshDnsAnchorContainerName n.name ++ " >/dev/null 2>&1 || true")
  unlines ["[Unit]", "Description=Coolify mesh DNS anchor containers",
    "After=network-online.target podman.socket", "Requires=podman.socket", "", "[Service]", "Type=oneshot",
    "RemainAfterExit=yes", "ExecStart=/bin/sh -eu -c '" ++ starts ++ "'", "ExecStop=/bin/sh -c '" ++ stops ++ "'", "",
    "[Install]", "WantedBy=multi-user.target"]

def meshDnsResolverUnit (namespaces : List CooldNamespace) : String :=
  let commands := "; ".intercalate (namespaces.map fun n =>
    "iface=$(podman network inspect " ++ n.network ++
      " --format '\x7b\x7b.NetworkInterface\x7d\x7d' 2>/dev/null || true); if [ -n \"$iface\" ]; then" ++
      " resolvectl dns \"$iface\" " ++ ipv4ToString n.bridgeGateway ++ " || true; resolvectl domain \"$iface\" '~" ++
      defaultCooldDnsZone ++ "' || true; resolvectl default-route \"$iface\" false || true; fi")
  unlines ["[Unit]", "Description=Configure Coolify mesh DNS resolver",
    "After=systemd-resolved.service " ++ meshDnsAnchorService,
    "Wants=systemd-resolved.service " ++ meshDnsAnchorService, "", "[Service]", "Type=oneshot",
    "ExecStart=/bin/sh -eu -c 'command -v resolvectl >/dev/null 2>&1 || exit 0; " ++ commands ++ "'", "", "[Install]",
    "WantedBy=multi-user.target"]

end CooldService

/-! ### The firewall -/

namespace Firewall

def allowRulesPath : String := "/etc/coolify/allow.rules"
def bridgeTableName : String := "coolify_bridge"
def bridgeAllowRulesPath : String := "/etc/coolify/allow.nft"
def bridgeScaffoldPath : String := "/etc/coolify/bridge-fw.nft"
def firewallUnitPath : String := "/etc/systemd/system/coolify-mesh-fw.service"
def firewallServiceName : String := "coolify-mesh-fw.service"

/-- A start command that is run by a shell. -/
def startSh (command : String) : String := "ExecStart=/bin/sh -c \"" ++ command ++ "\""

/-- Do `iptables -C` and, if it fails, the same with another command. -/
def orElse (table check command rule : String) : String :=
  startSh ("/usr/sbin/iptables " ++ table ++ check ++ " " ++ rule ++ " 2>/dev/null || /usr/sbin/iptables " ++ table ++
    command ++ " " ++ rule)

def orTrue (command : String) : String := startSh (command ++ " 2>/dev/null || true")

def natLines (iface : String) (subnet : Ipv4Net) : List String :=
  let sn := toString subnet
  let accept := "ip saddr " ++ sn ++ " oifname \\\"" ++ iface ++ "\\\" accept"
  [orElse "-t nat " "-C POSTROUTING" "-I POSTROUTING" ("-s " ++ sn ++ " -o " ++ iface ++ " -j RETURN"),
    startSh ("nft list chain inet netavark POSTROUTING >/dev/null 2>&1 && " ++
      "(nft list chain inet netavark POSTROUTING | grep -F '" ++ accept ++
      "' >/dev/null 2>&1 || nft insert rule inet netavark POSTROUTING " ++ accept ++ ") || true")]

def denyLines (subnets : List Ipv4Net) : List String :=
  "# Remove blanket ACCEPT from prior mode-A run." ::
  (subnets.flatMap fun sn =>
    [orTrue ("/usr/sbin/iptables -D FORWARD -s " ++ toString sn ++ " -j ACCEPT"),
      orTrue ("/usr/sbin/iptables -D FORWARD -d " ++ toString sn ++ " -j ACCEPT")]) ++
  ["", orTrue "/usr/sbin/iptables -N COOLIFY-ALLOW", orTrue "/usr/sbin/iptables -N COOLIFY-INTRA",
    "ExecStart=/usr/sbin/iptables -F COOLIFY-INTRA",
    "ExecStart=/usr/sbin/iptables -A COOLIFY-INTRA -j COOLIFY-ALLOW",
    "ExecStart=/usr/sbin/iptables -A COOLIFY-INTRA -j DROP",
    startSh ("[ -s " ++ allowRulesPath ++ " ] && /usr/sbin/iptables -F COOLIFY-ALLOW && " ++
      "/usr/sbin/iptables-restore --noflush < " ++ allowRulesPath ++ " || true"),
    orElse "" "-C FORWARD" "-I FORWARD 1" "-m conntrack --ctstate ESTABLISHED,RELATED -j ACCEPT"] ++
  (subnets.flatMap fun sn =>
    [orElse "" "-C FORWARD" "-A FORWARD" ("-d " ++ toString sn ++ " -j COOLIFY-INTRA"),
      orElse "" "-C FORWARD" "-A FORWARD" ("-s " ++ toString sn ++ " -j COOLIFY-INTRA")]) ++
  [startSh ("nft list table bridge " ++ bridgeTableName ++ " >/dev/null 2>&1 || nft add table bridge " ++
      bridgeTableName),
    orTrue ("nft add chain bridge " ++ bridgeTableName ++ " coolify_allow '\x7b \x7d'"),
    orTrue ("nft delete chain bridge " ++ bridgeTableName ++ " forward"),
    orTrue ("nft delete chain bridge " ++ bridgeTableName ++ " coolify_intra"),
    startSh ("nft -f " ++ bridgeScaffoldPath),
    startSh ("[ -s " ++ bridgeAllowRulesPath ++ " ] && nft -f " ++ bridgeAllowRulesPath ++ " || true")]

def permitLines (subnets : List Ipv4Net) : List String :=
  ["# Tear down default-deny scaffold from prior run.", orTrue "/usr/sbin/iptables -F COOLIFY-INTRA",
    orTrue "/usr/sbin/iptables -X COOLIFY-INTRA", orTrue ("nft delete table bridge " ++ bridgeTableName)] ++
  (subnets.flatMap fun sn =>
    [orElse "" "-C FORWARD" "-I FORWARD" ("-s " ++ toString sn ++ " -j ACCEPT"),
      orElse "" "-C FORWARD" "-I FORWARD" ("-d " ++ toString sn ++ " -j ACCEPT")])

def firewallUnitLines (iface : String) (subnets : List Ipv4Net) (defaultDeny : Bool) : List String :=
  ["[Unit]", "Description=Coolify mesh firewall rules",
    s!"After=wg-quick@{iface}.service network-online.target", "Wants=network-online.target", "", "[Service]",
    "Type=oneshot", "RemainAfterExit=yes", ""] ++
  subnets.flatMap (natLines iface) ++ (if defaultDeny then denyLines subnets else permitLines subnets) ++
  ["", "[Install]", "WantedBy=multi-user.target"]

/-- The unit of the firewall; the namespaces it is given are not used. -/
def firewallServiceUnit (iface : String) (_namespaces : List String) (subnets : List Ipv4Net) (defaultDeny : Bool) :
    String :=
  unlines (firewallUnitLines iface subnets defaultDeny)

def renderBridgeScaffold (subnets : List Ipv4Net) : String :=
  let sorted := (subnets.map fun sn => toString sn).insertionSort fun a b => a ≤ b
  let set := "\x7b " ++ ", ".intercalate sorted ++ " \x7d"
  let chain := "bridge " ++ bridgeTableName
  unlines ["# Managed by coolify — do not edit manually.", "add table " ++ chain,
    "add chain " ++ chain ++ " coolify_intra", "flush chain " ++ chain ++ " coolify_intra",
    "add rule " ++ chain ++ " coolify_intra jump coolify_allow", "add rule " ++ chain ++ " coolify_intra drop",
    "add chain " ++ chain ++ " forward \x7b type filter hook forward priority -200; policy accept; \x7d",
    "flush chain " ++ chain ++ " forward", "add rule " ++ chain ++ " forward meta protocol != ip accept",
    "add rule " ++ chain ++ " forward ct state established,related accept",
    "add rule " ++ chain ++ " forward ip saddr " ++ set ++ " jump coolify_intra",
    "add rule " ++ chain ++ " forward ip daddr " ++ set ++ " jump coolify_intra"]

/-- Write the unit and the bridge scaffold, or remove the scaffold, and restart the service. -/
def installFirewallScript (iface : String) (namespaces : List String) (subnets : List Ipv4Net) (defaultDeny : Bool) :
    Script :=
  let unit := firewallServiceUnit iface namespaces subnets defaultDeny
  andThen [[.cat (firewallUnitPath ++ ".tmp") "COOLIFY_FW_EOF" unit],
      [.mv (firewallUnitPath ++ ".tmp") firewallUnitPath, .mkdir ["/etc/coolify"]]]
    (andThen
      (if defaultDeny then
        [[.cat (bridgeScaffoldPath ++ ".tmp") "COOLIFY_BR_EOF" (renderBridgeScaffold subnets)],
          [.mv (bridgeScaffoldPath ++ ".tmp") bridgeScaffoldPath]]
      else [[.rm bridgeScaffoldPath]])
      [[.daemonReload, .enable firewallServiceName, .restart firewallServiceName]])

end Firewall

end Coold.Cli
