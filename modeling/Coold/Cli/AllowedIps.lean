import Coold.Cli.Apply

/-!
# The routes of a configuration

WireGuard sends a packet to the peer in whose AllowedIPs its destination lies; a network that is given to two peers
belongs to the last of them.  The management addresses of a mesh are distinct, and its container subnets do not
intersect, so an address can be in the networks of two hosts only if it is one of both pools (`routes_apart`).  Nothing
keeps the operator from choosing pools with common addresses.

The subnets do intersect where the container pool reaches the last address there is and has fewer subnets than are asked
for: the search then stops at that address, which is used under a name of its own.
-/

namespace Coold.Cli

/-- The networks of a host: its management address and its container subnets. -/
def routesOf (mgmtIp : Ipv4Addr) (containerSubnets : List Ipv4Net) : List Ipv4Net :=
  ⟨mgmtIp, 32, le_rfl⟩ :: containerSubnets

/-- The networks that are routed to a peer. -/
def PeerConfig.routes (p : PeerConfig) : List Ipv4Net := routesOf p.mgmtIp p.containerSubnets

/-- The container subnets of a host; only nodes have some. -/
def containersOf (d : DesiredMesh) (subnets : Subnets) (host : String) : List Ipv4Net :=
  if d.isNode host then hostSubnets d subnets host else []

def covers (nets : List Ipv4Net) (ip : Ipv4Addr) : Bool := nets.any fun net => net.contains ip

/-- Apart from the `shared` addresses, no address is routed to two peers, or to a peer and not to the host itself. -/
structure RoutesApart (shared : Ipv4Addr → Prop) (own : List Ipv4Net) (peers : List PeerConfig) : Prop where
  distinct : peers.Pairwise fun p q => ∀ ip, covers p.routes ip = true → covers q.routes ip = true → shared ip
  own : ∀ p ∈ peers, ∀ ip, covers p.routes ip = true → covers own ip = true → shared ip

/-- The address of a mesh is routed to the host with this key and to no other. -/
def RoutedTo (peers : List PeerConfig) (ip : Ipv4Addr) (key : String) : Prop :=
  ∃ p, peers.filter (fun q => covers q.routes ip) = [p] ∧ p.publicKey = key

/-- The configurations that a run writes keep the routes of the peers and of the host itself apart, and an address of
another host, whose key the second probe reports, is routed to that host alone. -/
def ConfigsApart (shared : Ipv4Addr → Prop) (sha256Hex : List UInt8 → String) (d : DesiredMesh) (current : MeshState)
    (env : Env) : Prop :=
  ∀ e ∈ (applyMesh sha256Hex d current env).log, ∀ iface mgmtIp port peers,
    e.2.cmd = .writeConfig iface mgmtIp port peers →
    ∃ planned log₁ mgmt subnets, Reached sha256Hex d current env planned log₁ mgmt subnets ∧
      RoutesApart shared (routesOf mgmtIp (containersOf d subnets e.1)) peers ∧
      ∀ p ∈ d.others e.1, ((env.reprobe log₁).server p).publicKey ≠ "" →
        ∀ ip, covers (routesOf (mgmtOf mgmt p) (containersOf d subnets p)) ip = true → ¬ shared ip →
          RoutedTo peers ip ((env.reprobe log₁).server p).publicKey

/-- The AllowedIPs of a peer are its networks. -/
theorem allowedIps_eq (p : PeerConfig) : allowedIps p = p.routes.map fun net => toString net := by
  have hlen : "/32" = "/" ++ toString (32 : Nat) := by decide
  rw [allowedIps, hlen, ← String.append_assoc]
  rfl

private theorem covers_routesOf {mgmtIp ip : Ipv4Addr} {containerSubnets : List Ipv4Net} :
    covers (routesOf mgmtIp containerSubnets) ip = true ↔
      ip = mgmtIp ∨ ∃ net ∈ containerSubnets, net.contains ip = true := by
  simp [covers, routesOf, Ipv4Net.contains_host]

/-- What is routed to a peer and is not shared is routed to this one alone. -/
private theorem RoutesApart.filter_eq {shared : Ipv4Addr → Prop} {own : List Ipv4Net} {peers : List PeerConfig}
    (h : RoutesApart shared own peers) {p : PeerConfig} (hp : p ∈ peers) {ip : Ipv4Addr}
    (hip : covers p.routes ip = true) (hshared : ¬ shared ip) :
    peers.filter (fun q => covers q.routes ip) = [p] := by
  obtain ⟨l, r, rfl⟩ := List.append_of_mem hp
  obtain ⟨-, hr, hl⟩ := List.pairwise_append.1 h.distinct
  have hnone : ∀ q ∈ l ++ r, covers q.routes ip ≠ true := by
    intro q hq hcov
    rcases List.mem_append.1 hq with hq | hq
    · exact hshared (hl q hq p List.mem_cons_self ip hcov hip)
    · exact hshared ((List.pairwise_cons.1 hr).1 q hq ip hip hcov)
  have hleft : l.filter (fun q => covers q.routes ip) = [] :=
    List.filter_eq_nil_iff.2 fun q hq => hnone q (List.mem_append_left _ hq)
  have hright : r.filter (fun q => covers q.routes ip) = [] :=
    List.filter_eq_nil_iff.2 fun q hq => hnone q (List.mem_append_right _ hq)
  rw [List.filter_append, List.filter_cons, if_pos hip, hleft, hright, List.nil_append]

section Allocated

variable {d : DesiredMesh} {existing : Dict String Ipv4Addr} {existing' : String → Dict String Ipv4Net}
  {mgmt : Dict String Ipv4Addr} {subnets : Subnets} {w w' : List Warning}

/-- A container subnet of a host is the allocated one of a namespace. -/
private theorem of_mem_containersOf
    (h : allocateNamespaced d.containerPool d.containerPrefix existing' d.namespaces d.nodes = .ok (subnets, w'))
    {host : String} {net : Ipv4Net} (hnet : net ∈ containersOf d subnets host) :
    ∃ ns, subnets.lookup (ns, host) = some net := by
  unfold containersOf at hnet
  by_cases hnode : d.isNode host = true
  · rw [if_pos hnode] at hnet
    obtain ⟨ns, hns, rfl⟩ := List.mem_map.1 hnet
    obtain ⟨net, hlookup⟩ := Option.isSome_iff_exists.1
      ((isSome_lookup_subnets h (ns, host)).2 ⟨d.mem_sortedNamespaces.1 hns, d.isNode_iff.1 hnode⟩)
    exact ⟨ns, by rw [subnetOf, hlookup, Option.getD_some]⟩
  · rw [if_neg hnode] at hnet
    cases hnet

/-- The networks of two hosts have an address in common only where the pools have. -/
private theorem shared_of_covers (hmgmt : allocateMgmtIps d.mgmtPool existing d.hosts = .ok (mgmt, w))
    (hsubnets : allocateNamespaced d.containerPool d.containerPrefix existing' d.namespaces d.nodes =
      .ok (subnets, w'))
    (hfit : d.containerPool.broadcast.toNat < 2 ^ 32 - 1 ∨
      d.namespaces.length * d.nodes.length ≤ 2 ^ (d.containerPrefix - d.containerPool.prefixLen))
    {p q : String} (hp : p ∈ d.hosts) (hq : q ∈ d.hosts) (hne : p ≠ q) {ip : Ipv4Addr}
    (hpip : covers (routesOf (mgmtOf mgmt p) (containersOf d subnets p)) ip = true)
    (hqip : covers (routesOf (mgmtOf mgmt q) (containersOf d subnets q)) ip = true) :
    d.mgmtPool.contains ip = true ∧ d.containerPool.contains ip = true := by
  obtain ⟨hinside, hdistinct⟩ := mgmt_ok hmgmt
  obtain ⟨hle, hsize, hapart⟩ := subnets_ok hsubnets hfit
  have hmgmtPool : ∀ host ∈ d.hosts, d.mgmtPool.contains (mgmtOf mgmt host) = true := by
    intro host hhost
    have hin := hinside host _ (lookup_mgmtOf hmgmt hhost)
    exact Ipv4Net.contains_iff.2 ⟨hin.1.le, hin.2.le⟩
  have hcontainerPool : ∀ host, ∀ net ∈ containersOf d subnets host, net.contains ip = true →
      d.containerPool.contains ip = true := by
    intro host net hnet hin
    obtain ⟨ns, hlookup⟩ := of_mem_containersOf hsubnets hnet
    obtain ⟨hlen, hstart⟩ := hsize _ net hlookup
    exact Ipv4Net.contains_of_network (by rw [hlen]; exact hle) hstart hin
  rcases covers_routesOf.1 hpip with rfl | ⟨net, hnet, hin⟩ <;>
    rcases covers_routesOf.1 hqip with heq | ⟨net', hnet', hin'⟩
  · exact absurd (hdistinct p q _ (lookup_mgmtOf hmgmt hp) (by rw [heq, lookup_mgmtOf hmgmt hq])) hne
  · exact ⟨hmgmtPool p hp, hcontainerPool q net' hnet' hin'⟩
  · subst heq
    exact ⟨hmgmtPool q hq, hcontainerPool p net hnet hin⟩
  · -- subnets of two hosts never intersect
    obtain ⟨ns, hlookup⟩ := of_mem_containersOf hsubnets hnet
    obtain ⟨ns', hlookup'⟩ := of_mem_containersOf hsubnets hnet'
    have hlen : net.prefixLen = net'.prefixLen := (hsize _ net hlookup).1.trans (hsize _ net' hlookup').1.symm
    have hkey := hapart _ _ net net' hlookup hlookup' (Ipv4Net.network_eq_of_contains hlen hin hin')
    exact absurd (Prod.ext_iff.1 hkey).2 hne

end Allocated

section Peers

variable {d : DesiredMesh} {mgmt : Dict String Ipv4Addr} {subnets : Subnets} {fresh : MeshState} {host : String}

/-- A peer is routed the networks of its host. -/
private theorem routes_of_peerOf {p : PeerConfig} (h : peerOf d mgmt subnets fresh host = some p) :
    p.routes = routesOf (mgmtOf mgmt host) (containersOf d subnets host) := by
  unfold peerOf at h
  obtain ⟨s, -, rfl⟩ := Option.map_eq_some_iff.1 h
  rfl

/-- A host with a known key is a peer of the others. -/
private theorem exists_peerOf (hkey : (fresh.server host).publicKey ≠ "") :
    ∃ p, peerOf d mgmt subnets fresh host = some p ∧ p.publicKey = (fresh.server host).publicKey := by
  unfold MeshState.server at hkey ⊢
  cases hs : fresh.servers.lookup host with
  | none =>
    rw [hs] at hkey
    exact absurd rfl hkey
  | some s =>
    rw [hs, Option.getD_some] at hkey
    have hknown : (!s.publicKey.isEmpty) = true := by simpa using hkey
    rw [peerOf, hs, Option.filter_some, if_pos hknown]
    exact ⟨_, rfl, rfl⟩

end Peers

/-- In every configuration that is written, an address is routed to two peers, or to a peer and not to the host itself,
only if it lies in both pools; every other address of a host with a known key is routed to this host alone. -/
theorem routes_apart (sha256Hex : List UInt8 → String) (d : DesiredMesh) (current : MeshState) (env : Env)
    (hfit : d.containerPool.broadcast.toNat < 2 ^ 32 - 1 ∨
      d.namespaces.length * d.nodes.length ≤ 2 ^ (d.containerPrefix - d.containerPool.prefixLen)) :
    ConfigsApart (fun ip => d.mgmtPool.contains ip = true ∧ d.containerPool.contains ip = true) sha256Hex d current
      env := by
  intro e he iface mgmtIp port peers hcmd
  rcases mem_log_applyMesh he with ⟨_, -, -, hs⟩ | ⟨planned, log₁, mgmt, subnets, hr, ⟨hhost, hs⟩ | ⟨-, hs⟩⟩
  · have hphase := phase_of_mem_phase1 hs
    rw [hcmd] at hphase
    cases hphase
  · obtain ⟨-, rfl, -, rfl⟩ := writeConfig_mem_phase2 hs hcmd
    obtain ⟨w, hmgmt⟩ := hr.mgmt
    obtain ⟨w', hsubnets⟩ := hr.subnets
    have hapart : RoutesApart (fun ip => d.mgmtPool.contains ip = true ∧ d.containerPool.contains ip = true)
        (routesOf (mgmtOf mgmt e.1) (containersOf d subnets e.1))
        (wgPeers d e.1 mgmt subnets (env.reprobe log₁)) := by
      refine ⟨?_, ?_⟩
      · have hnd : (d.others e.1).Nodup := (allocateMgmtIps_eq_ok.1 hmgmt).1.filter _
        refine List.pairwise_filterMap.2 (List.Pairwise.imp_of_mem ?_ hnd)
        intro p q hp hq hne p' hp' q' hq' ip hpip hqip
        rw [routes_of_peerOf hp'] at hpip
        rw [routes_of_peerOf hq'] at hqip
        exact shared_of_covers hmgmt hsubnets hfit (d.mem_others.1 hp).1 (d.mem_others.1 hq).1 hne hpip hqip
      · intro p' hp' ip hpip hown
        obtain ⟨p, hp, hpeer⟩ := List.mem_filterMap.1 hp'
        rw [routes_of_peerOf hpeer] at hpip
        obtain ⟨hphost, hne⟩ := d.mem_others.1 hp
        exact shared_of_covers hmgmt hsubnets hfit hphost hhost hne hpip hown
    refine ⟨planned, log₁, mgmt, subnets, hr, hapart, ?_⟩
    intro p hp hkey ip hip hshared
    obtain ⟨p', hpeer, hkey'⟩ := exists_peerOf (d := d) hkey
    have hmem : p' ∈ wgPeers d e.1 mgmt subnets (env.reprobe log₁) := List.mem_filterMap.2 ⟨p, hp, hpeer⟩
    exact ⟨p', hapart.filter_eq hmem (by rw [routes_of_peerOf hpeer]; exact hip) hshared, hkey'⟩
  · have hphase := phase_of_mem_phase3 hs
    rw [hcmd] at hphase
    cases hphase

/-- Three hosts that have keys after the first phase. -/
def answering : Env where
  fails := fun _ _ => none
  reprobe := fun _ =>
    ⟨Dict.collect [("a", { publicKey := "A" }), ("b", { publicKey := "B" }), ("c", { publicKey := "C" })]⟩

theorem routes_apart_three :
    ("b", (⟨.writeConfig, "", .writeConfig "wg0" 0x64400002 51820
        [⟨"a", "A", 0x64400001, [⟨0x0AD20000, 24, by decide⟩]⟩, ⟨"c", "C", 0x64400003, [⟨0x0AD20200, 24, by decide⟩]⟩]⟩ :
          Step)) ∈ (applyMesh (fun _ => "0") (meshOf ["a", "b", "c"]) ⟨∅⟩ answering).log ∧
      ConfigsApart (fun ip => (meshOf ["a", "b", "c"]).mgmtPool.contains ip = true ∧
        (meshOf ["a", "b", "c"]).containerPool.contains ip = true) (fun _ => "0") (meshOf ["a", "b", "c"]) ⟨∅⟩
        answering :=
  ⟨by decide, routes_apart (fun _ => "0") (meshOf ["a", "b", "c"]) ⟨∅⟩ answering (.inl (by decide))⟩

/-- An address that two peers of a configuration have. -/
private theorem not_configsApart {shared : Ipv4Addr → Prop} {sha256Hex : List UInt8 → String} {d : DesiredMesh}
    {current : MeshState} {env : Env} {host ns iface : String} {t : ActionType} {mgmtIp : Ipv4Addr} {port : UInt16}
    {p q : PeerConfig} {ip : Ipv4Addr}
    (h : (host, (⟨t, ns, .writeConfig iface mgmtIp port [p, q]⟩ : Step)) ∈ (applyMesh sha256Hex d current env).log)
    (hp : covers p.routes ip = true) (hq : covers q.routes ip = true) (hshared : ¬ shared ip) :
    ¬ ConfigsApart shared sha256Hex d current env := by
  intro hapart
  obtain ⟨_, _, _, _, -, hroutes, -⟩ := hapart _ h iface mgmtIp port [p, q] rfl
  exact hshared ((List.pairwise_cons.1 hroutes.distinct).1 q (List.mem_singleton_self q) ip hp hq)

/-- A mesh with one pool for both kinds of addresses. -/
def onePoolMesh : DesiredMesh := { meshOf ["a", "b", "c"] with mgmtPool := .ofLen 0x0AD20000 16 }

/-- A mesh with one node more than there are subnets up to the last address. -/
def lastPoolMesh : DesiredMesh :=
  { meshOf ["a", "b", "c"] with containerPool := .ofLen 0xFFFFFF00 24, containerPrefix := 25 }

/-- With one pool for both, the address of a host is one of the container subnet of another; and past the last subnet
there is, a part of it is given away again. -/
theorem routes_overlap :
    ¬ ConfigsApart (fun _ => False) (fun _ => "0") onePoolMesh ⟨∅⟩ answering ∧
      ¬ ConfigsApart (fun _ => False) (fun _ => "0") lastPoolMesh ⟨∅⟩ answering := by
  constructor
  · have hlog : ("b", (⟨.writeConfig, "", .writeConfig "wg0" 0x0AD20002 51820
        [⟨"a", "A", 0x0AD20001, [⟨0x0AD20000, 24, by decide⟩]⟩,
          ⟨"c", "C", 0x0AD20003, [⟨0x0AD20200, 24, by decide⟩]⟩]⟩ : Step)) ∈
        (applyMesh (fun _ => "0") onePoolMesh ⟨∅⟩ answering).log := by decide
    exact not_configsApart hlog (show covers _ 0x0AD20003 = true by decide) (by decide) id
  · have hlog : ("a", (⟨.writeConfig, "", .writeConfig "wg0" 0x64400001 51820
        [⟨"b", "B", 0x64400002, [⟨0xFFFFFF80, 25, by decide⟩]⟩,
          ⟨"c", "C", 0x64400003, [⟨0xFFFFFFFF, 25, by decide⟩]⟩]⟩ : Step)) ∈
        (applyMesh (fun _ => "0") lastPoolMesh ⟨∅⟩ answering).log := by decide
    exact not_configsApart hlog (show covers _ 0xFFFFFF80 = true by decide) (by decide) id

end Coold.Cli
