import Coold.Cli.Capacity
import Coold.Cli.Reprobe
import Coold.Cli.Settled

/-!
# What a run leaves

A run that succeeds leaves on its hosts everything that belongs to the actions (`Settled`), the networks and the
configurations of WireGuard: a host gets the planned one, or keeps the one that needs no rewriting (`conf_after`).  What
the planner sees of a configuration is its address, its port and the keys of its peers (`configSettled_iff`).
`carried_of_ok` is all of this for one run.
-/

namespace Coold.Cli

/-! ### What the planner sees of WireGuard -/

section WireGuard

variable {sha256Hex : List UInt8 → String} {d : DesiredMesh} {w : World} {mgmt : Dict String Ipv4Addr} {host k : String}

/-- The keys of the configured peers. -/
def peerKeys (s : ServerState) : List String := s.peers.map Peer.publicKey

private theorem peerKeys_probe (m : Machine) :
    peerKeys (probe sha256Hex d.namespaces m) = ((m.conf.map WgConf.peers).getD []).map Peer.publicKey := rfl

private theorem mem_currentKeys {current : MeshState} :
    k ∈ currentKeys current host ↔ k ∈ peerKeys (current.server host) :=
  mem_keySet

/-- The wanted keys are those of the other hosts that are known. -/
private theorem mem_desiredKeys :
    k ∈ desiredKeys d (probeMesh sha256Hex d w) host ↔ k ≠ "" ∧ ∃ p ∈ d.others host, World.publicKey w p = k := by
  have hkey : ∀ p ∈ d.others host, ((probeMesh sha256Hex d w).servers.lookup p).map ServerState.publicKey =
      some (World.publicKey w p) := by
    intro p hp
    rw [lookup_probeMesh sha256Hex w (d.mem_others.1 hp).1]
    rfl
  rw [desiredKeys, mem_keySet, List.filterMap_congr hkey]
  simp [and_comm]

private theorem peerKeyPending_eq_false :
    peerKeyPending d (probeMesh sha256Hex d w) host = false ↔ ∀ p ∈ d.others host, World.publicKey w p ≠ "" := by
  rw [peerKeyPending, List.any_eq_false]
  constructor
  · intro h p hp
    obtain ⟨hhost, hne⟩ := d.mem_others.1 hp
    have hno := h p hhost
    rw [lookup_probeMesh sha256Hex w hhost] at hno
    simpa [hne, probe, World.publicKey] using hno
  · intro h p hhost
    rw [lookup_probeMesh sha256Hex w hhost]
    by_cases hne : p = host
    · simp [hne]
    · simpa [hne, probe, World.publicKey] using h p (d.mem_others.2 ⟨hhost, hne⟩)

/-- When the configuration of a host is not rewritten. -/
private theorem needsConfig_eq_false (hhost : host ∈ d.hosts) :
    needsConfig d (probeMesh sha256Hex d w) mgmt host = false ↔
      configuredIp w host = some (mgmtOf mgmt host) ∧
        (∀ p ∈ d.others host, World.publicKey w p ≠ "" ∧
          World.publicKey w p ∈ peerKeys (probe sha256Hex d.namespaces (w host))) ∧
        (w host).hasKeypair = true ∧ (w host).wgInstalled = true ∧
        (1 < d.hosts.length → ((w host).conf.map WgConf.listenPort).getD 0 = d.listenPortFor host) := by
  have hserver := server_probeMesh sha256Hex w hhost
  have hany : ((desiredKeys d (probeMesh sha256Hex d w) host).any fun k =>
      k ∉ currentKeys (probeMesh sha256Hex d w) host) = false ↔
        ∀ p ∈ d.others host, World.publicKey w p ≠ "" →
          World.publicKey w p ∈ peerKeys (probe sha256Hex d.namespaces (w host)) := by
    rw [List.any_eq_false]
    simp only [mem_desiredKeys, mem_currentKeys, hserver, decide_eq_true_eq, not_not]
    constructor
    · exact fun h p hp hne => h _ ⟨hne, p, hp, rfl⟩
    · rintro h _ ⟨hne, p, hp, rfl⟩
      exact h p hp hne
  unfold needsConfig
  simp only [Bool.or_eq_false_iff, Bool.and_eq_false_iff, decide_eq_false_iff_not, not_not, Bool.not_eq_false', hany,
    peerKeyPending_eq_false]
  rw [hserver]
  constructor
  · rintro ⟨⟨⟨⟨⟨hip, hmem⟩, hkeys⟩, hpair⟩, hinstalled⟩, hport⟩
    exact ⟨hip, fun p hp => ⟨hkeys p hp, hmem p hp (hkeys p hp)⟩, hpair, hinstalled, fun hlen =>
      hport.resolve_left (not_not.2 hlen)⟩
  · rintro ⟨hip, hpeers, hpair, hinstalled, hport⟩
    refine ⟨⟨⟨⟨⟨hip, fun p hp _ => (hpeers p hp).2⟩, fun p hp => (hpeers p hp).1⟩, hpair⟩, hinstalled⟩, ?_⟩
    exact or_iff_not_imp_left.2 fun hlen => hport (not_not.1 hlen)

variable (sha256Hex d w host) in
/-- The tests of WireGuard other than the one of the service. -/
def ConfigSettled (mgmt : Dict String Ipv4Addr) : Prop :=
  needsConfig d (probeMesh sha256Hex d w) mgmt host = false ∧
    ∀ k, k ∈ currentKeys (probeMesh sha256Hex d w) host ↔ k ∈ desiredKeys d (probeMesh sha256Hex d w) host

/-- Where everything else is as it should be, the planner compares the keys. -/
theorem configSettled_iff (hhost : host ∈ d.hosts) (hpair : (w host).hasKeypair = true)
    (hinstalled : (w host).wgInstalled = true) (hip : configuredIp w host = some (mgmtOf mgmt host))
    (hport : 1 < d.hosts.length → ((w host).conf.map WgConf.listenPort).getD 0 = d.listenPortFor host) :
    ConfigSettled sha256Hex d w host mgmt ↔
      (∀ p ∈ d.others host, World.publicKey w p ≠ "") ∧
        ∀ k, k ∈ peerKeys (probe sha256Hex d.namespaces (w host)) ↔ ∃ p ∈ d.others host, World.publicKey w p = k := by
  unfold ConfigSettled
  rw [needsConfig_eq_false hhost]
  simp only [mem_currentKeys, mem_desiredKeys, server_probeMesh sha256Hex w hhost]
  constructor
  · rintro ⟨⟨-, hpeers, -⟩, hsame⟩
    refine ⟨fun p hp => (hpeers p hp).1, fun k => ?_⟩
    rw [hsame]
    constructor
    · exact And.right
    · rintro ⟨p, hp, rfl⟩
      exact ⟨(hpeers p hp).1, p, hp, rfl⟩
  · rintro ⟨hkeys, hsame⟩
    refine ⟨⟨hip, fun p hp => ⟨hkeys p hp, (hsame _).2 ⟨p, hp, rfl⟩⟩, hpair, hinstalled, hport⟩, fun k => ?_⟩
    rw [hsame]
    constructor
    · rintro ⟨p, hp, rfl⟩
      exact ⟨hkeys p hp, p, hp, rfl⟩
    · exact And.right

private theorem mem_writtenKeys {subnets : Subnets} :
    k ∈ (wgPeers d host mgmt subnets (probeMesh sha256Hex d w)).map PeerConfig.publicKey ↔
      k ≠ "" ∧ ∃ p ∈ d.others host, World.publicKey w p = k := by
  have hpeer : ∀ p ∈ d.others host, (peerOf d mgmt subnets (probeMesh sha256Hex d w) p).map PeerConfig.publicKey =
      if World.publicKey w p = "" then none else some (World.publicKey w p) := by
    intro p hp
    rw [peerOf, lookup_probeMesh sha256Hex w (d.mem_others.1 hp).1, Option.map_map]
    have hkey : (probe sha256Hex d.namespaces (w p)).publicKey = World.publicKey w p := rfl
    by_cases hnone : World.publicKey w p = ""
    · simp [Option.filter_some, hkey, hnone]
    · simp [Option.filter_some, hkey, hnone]
  rw [wgPeers, List.map_filterMap, List.filterMap_congr hpeer, List.mem_filterMap]
  constructor
  · rintro ⟨p, hp, hk⟩
    by_cases hne : World.publicKey w p = ""
    · rw [if_pos hne] at hk
      cases hk
    · rw [if_neg hne, Option.some.injEq] at hk
      rw [← hk]
      exact ⟨hne, p, hp, rfl⟩
  · rintro ⟨hne, p, hp, rfl⟩
    exact ⟨p, hp, if_neg hne⟩

end WireGuard

/-! ### What a run leaves of WireGuard -/

/-- The public key of a host after a run: the one that it reports, or the one that is generated. -/
def keyAfter (keygen : String → String × String) (current : MeshState) (host : String) : String :=
  if (current.server host).keysExist then (current.server host).publicKey else readField (keygen host).2

section Run

variable {sha256Hex : List UInt8 → String} {d : DesiredMesh} {keygen : String → String × String} {w : World}
  {env : Env} {planned : Plan} {log log₁ : Log} {current fresh : MeshState} {mgmt : Dict String Ipv4Addr}
  {subnets : Subnets} {host : String}

/-- A run that succeeds has allocated the planned addresses again, and every host has seen the commands of the plan. -/
private theorem exists_run (henv : env.Accurate sha256Hex d keygen w)
    (hok : (applyMesh sha256Hex d (probeMesh sha256Hex d w) env).result = .ok log) :
    ∃ planned log₁, Reached sha256Hex d (probeMesh sha256Hex d w) env planned log₁ planned.mgmtAssignments
        planned.subnetAssignments ∧
      ∀ host ∈ d.hosts, execLog keygen w (applyMesh sha256Hex d (probeMesh sha256Hex d w) env).log host =
        (w host).exec (keygen host) (hostCmds d planned (probeMesh sha256Hex d w) (env.reprobe log₁)
          planned.mgmtAssignments planned.subnetAssignments host) := by
  obtain ⟨planned, log₁, mgmt, subnets, hr, hcmds⟩ := cmdsOf_of_ok hok
  obtain ⟨rfl, rfl⟩ := hr.same_addresses henv
  refine ⟨planned, log₁, hr, fun host hhost => ?_⟩
  rw [execLog_apply, hcmds, if_pos hhost]

/-- The first phase does not start the interface. -/
private theorem wgActive_effect {keys : String × String} {m : Machine} {c : Cmd} (hc : c.phase = 1) :
    (m.effect keys c).wgActive = m.wgActive := by
  cases c <;> first | rfl | cases hc

private theorem active_reprobe (henv : env.Accurate sha256Hex d keygen w)
    (hr : Reached sha256Hex d current env planned log₁ mgmt subnets) (hhost : host ∈ d.hosts) :
    (((env.reprobe log₁).servers.lookup host).map ServerState.active).getD false =
      ((probeMesh sha256Hex d w).server host).active := by
  rw [henv log₁, lookup_probeMesh sha256Hex _ hhost, server_probeMesh sha256Hex w hhost]
  change (execLog keygen w log₁ host).wgActive = (w host).wgActive
  rw [execLog_apply]
  refine exec_keeps (fun c hc m => wgActive_effect ?_) _
  obtain ⟨s, hs, rfl⟩ := mem_cmdsOf.1 hc
  exact hr.phase_eq_one _ hs

/-- A host that reports its keys keeps its public key, and another one has the generated one. -/
private theorem publicKey_after (hboot : d.intent = .bootstrap)
    (hr : Reached sha256Hex d (probeMesh sha256Hex d w) env planned log₁ mgmt subnets) (hhost : host ∈ d.hosts) :
    World.publicKey (execLog keygen w log₁) host = keyAfter keygen (probeMesh sha256Hex d w) host := by
  rw [publicKey_phase1 hr hhost, keyAfterPhase1, keyAfter]
  cases hkeys : ((probeMesh sha256Hex d w).server host).keysExist with
  | true =>
    rw [server_probeMesh sha256Hex w hhost]
    rfl
  | false =>
    have hgen := genkey_of_not_reported hr.plan (by rw [hboot]; decide) hhost hkeys
    simp [(genkey_mem_phase1 hgen rfl).2]

/-- The configuration that a host gets is the planned one. -/
private theorem writeConfig_mem_hostCmds {c : Cmd} (hc : c ∈ hostCmds d planned current fresh mgmt subnets host)
    (hwrite : c.actionType = .writeConfig) :
    c = .writeConfig d.interface (mgmtOf mgmt host) (d.listenPortFor host) (wgPeers d host mgmt subnets fresh) := by
  obtain ⟨s, hs, rfl⟩ := List.mem_map.1 hc
  have hphase : s.cmd.phase = 2 := by rw [Cmd.phase, hwrite]; rfl
  simp only [List.mem_append, List.mem_ite_nil_right] at hs
  rcases hs with (hs | hs) | ⟨-, hs⟩
  · rw [phase_of_mem_phase1 hs] at hphase
    cases hphase
  · cases hcmd : s.cmd with
    | writeConfig iface ip port peers =>
      obtain ⟨rfl, rfl, rfl, rfl⟩ := writeConfig_mem_phase2 hs hcmd
      rfl
    | _ =>
      rw [hcmd] at hwrite
      cases hwrite
  · rw [phase_of_mem_phase3 hs] at hphase
    cases hphase

/-- After its commands a host has the planned configuration, or keeps the one that needs no rewriting. -/
theorem conf_after (hplan : IsPlan sha256Hex d current planned) (hboot : d.intent = .bootstrap) (hhost : host ∈ d.hosts)
    (hactive : ((fresh.servers.lookup host).map ServerState.active).getD false = (current.server host).active)
    (keys : String × String) (m : Machine) :
    (m.exec keys (hostCmds d planned current fresh mgmt subnets host)).conf =
      if needsConfig d current planned.mgmtAssignments host then
        some ⟨some (mgmtOf mgmt host), d.listenPortFor host,
          (wgPeers d host mgmt subnets fresh).map fun p => p.toPeer (d.listenPortFor host)⟩
      else m.conf := by
  split
  next hneeds =>
    obtain ⟨c, hc, hwrite⟩ : ∃ c ∈ hostCmds d planned current fresh mgmt subnets host, c.actionType = .writeConfig :=
      exists_cmd_of_test hplan hboot hhost hactive (.inl rfl) hneeds
    refine exec_holds (I := fun _ => True) (P := fun m => m.conf = _) (fun _ _ _ _ => trivial) (fun c hc m _ hm => ?_)
      trivial (.inr ⟨c, hc, fun m _ => ?_⟩)
    · by_cases hwrite : c.actionType = .writeConfig
      · rw [writeConfig_mem_hostCmds hc hwrite]
        rfl
      · rw [conf_effect keys m hwrite, hm]
    · rw [writeConfig_mem_hostCmds hc hwrite]
      rfl
  next hneeds =>
    refine exec_keeps (fun c hc m => conf_effect keys m fun hwrite => hneeds ?_) m
    have hrun := planned_hostCmds hc
    rw [hwrite, hplan.shouldRun_eq hboot hhost] at hrun
    exact hrun

end Run

/-! ### The state after a run -/

/-- The configuration of a host is not rewritten: its address is usable and no smaller host has it, the others are known
and among its peers, and keys, package and port are as they should be. -/
structure ConfigKept (d : DesiredMesh) (current : MeshState) (host : String) : Prop where
  address : ∃ ip, (current.server host).wireguardMgmtIp = some ip ∧
    (d.mgmtPool.network.toNat < ip.toNat ∧ ip.toNat < d.mgmtPool.broadcast.toNat) ∧
    ∀ p ∈ d.hosts, p < host → (current.server p).wireguardMgmtIp ≠ some ip
  peers : ∀ p ∈ d.others host,
    (current.server p).publicKey ≠ "" ∧ (current.server p).publicKey ∈ peerKeys (current.server host)
  keys : (current.server host).keysExist = true
  installed : (current.server host).installed = true
  port : 1 < d.hosts.length → (current.server host).listenPort = d.listenPortFor host

/-- What a run that succeeds leaves: everything that belongs to the actions, the networks, and the configuration of
WireGuard, which is rewritten or kept. -/
structure Carried (sha256Hex : List UInt8 → String) (d : DesiredMesh) (keygen : String → String × String) (w : World)
    (planned : Plan) (w' : World) : Prop where
  settled : ∀ host ∈ d.hosts, ∀ t : ActionType, t.concerns d host = true →
    Settled sha256Hex d planned.mgmtAssignments planned.subnetAssignments host (w' host) t
  networks : ∀ host ∈ d.hosts, (d.isNode host && d.installPodman) = true → ∀ ns ∈ d.namespaces,
    HasNetwork planned.subnetAssignments ns host (w' host)
  noNetworks : d.installPodman = false → ∀ host ∈ d.hosts, (w' host).networks = (w host).networks
  nft : ∀ host ∈ d.hosts, (w host).nftAvailable = true → (w' host).nftAvailable = true
  address : ∀ host ∈ d.hosts, configuredIp w' host = some (mgmtOf planned.mgmtAssignments host)
  port : ∀ host ∈ d.hosts, 1 < d.hosts.length →
    ((w' host).conf.map WgConf.listenPort).getD 0 = d.listenPortFor host
  keys : ∀ host ∈ d.hosts, World.publicKey w' host = keyAfter keygen (probeMesh sha256Hex d w) host
  keptPeers : ∀ host ∈ d.hosts, ConfigKept d (probeMesh sha256Hex d w) host →
    peerKeys (probe sha256Hex d.namespaces (w' host)) = peerKeys ((probeMesh sha256Hex d w).server host)
  writtenPeers : ∀ host ∈ d.hosts, ¬ ConfigKept d (probeMesh sha256Hex d w) host → ∀ k,
    k ∈ peerKeys (probe sha256Hex d.namespaces (w' host)) ↔
      k ≠ "" ∧ ∃ p ∈ d.others host, keyAfter keygen (probeMesh sha256Hex d w) p = k

section Carried

variable {sha256Hex : List UInt8 → String} {d : DesiredMesh} {keygen : String → String × String} {w w' : World}
  {env : Env} {planned : Plan} {log : Log} {host : String}

private theorem configKept_iff (hplan : IsPlan sha256Hex d (probeMesh sha256Hex d w) planned) (hhost : host ∈ d.hosts) :
    needsConfig d (probeMesh sha256Hex d w) planned.mgmtAssignments host = false ↔
      ConfigKept d (probeMesh sha256Hex d w) host := by
  obtain ⟨_, hmgmt⟩ := hplan.mgmt
  have hserver : ∀ p ∈ d.hosts, (probeMesh sha256Hex d w).server p = probe sha256Hex d.namespaces (w p) :=
    fun p hp => server_probeMesh sha256Hex w hp
  have hother : ∀ p ∈ d.others host, (probeMesh sha256Hex d w).server p = probe sha256Hex d.namespaces (w p) :=
    fun p hp => hserver p (d.mem_others.1 hp).1
  have haddress := mgmt_kept_iff hmgmt hhost
  rw [assigned_probeMesh hhost, lookup_mgmtOf hmgmt hhost] at haddress
  rw [needsConfig_eq_false hhost, haddress]
  constructor
  · rintro ⟨⟨ip, hip, hin, hfirst⟩, hpeers, hpair, hinstalled, hport⟩
    refine ⟨⟨ip, ?_, hin, fun p hp hlt => ?_⟩, fun p hp => ?_, ?_, ?_, ?_⟩
    · rw [hserver host hhost]
      exact hip
    · rw [hserver p hp]
      have hne := hfirst p hp hlt
      rwa [assigned_probeMesh hp] at hne
    · rw [hother p hp, hserver host hhost]
      exact hpeers p hp
    all_goals rwa [hserver host hhost]
  · intro h
    obtain ⟨ip, hip, hin, hfirst⟩ := h.address
    rw [hserver host hhost] at hip
    refine ⟨⟨ip, hip, hin, fun p hp hlt => ?_⟩, fun p hp => ?_, ?_, ?_, ?_⟩
    · rw [assigned_probeMesh hp]
      have hne := hfirst p hp hlt
      rwa [hserver p hp] at hne
    · have hpeer := h.peers p hp
      rwa [hother p hp, hserver host hhost] at hpeer
    · have hkeys := h.keys
      rwa [hserver host hhost] at hkeys
    · have hinstalled := h.installed
      rwa [hserver host hhost] at hinstalled
    · have hport := h.port
      rwa [hserver host hhost] at hport

/-- A bootstrap that succeeds is carried out. -/
theorem carried_of_ok (hboot : d.intent = .bootstrap)
    (hkeygen : ∀ host ∈ d.hosts, (keygen host).1 ≠ "" ∧ readField (keygen host).2 ≠ "")
    (henv : env.Accurate sha256Hex d keygen w)
    (hok : (applyMesh sha256Hex d (probeMesh sha256Hex d w) env).result = .ok log) :
    ∃ planned, IsPlan sha256Hex d (probeMesh sha256Hex d w) planned ∧ Carried sha256Hex d keygen w planned
      (execLog keygen w (applyMesh sha256Hex d (probeMesh sha256Hex d w) env).log) := by
  obtain ⟨planned, log₁, hr, hcmds⟩ := exists_run henv hok
  have hplan := isPlan_of_buildPlan hr.plan
  have hactive : ∀ host ∈ d.hosts, (((env.reprobe log₁).servers.lookup host).map ServerState.active).getD false =
      ((probeMesh sha256Hex d w).server host).active := fun _ hhost => active_reprobe henv hr hhost
  have hpub : ∀ host ∈ d.hosts, (keygen host).2 ≠ "" := by
    intro host hhost hempty
    refine (hkeygen host hhost).2 ?_
    rw [hempty]
    rfl
  have hkey : ∀ host ∈ d.hosts, World.publicKey (execLog keygen w log₁) host =
      keyAfter keygen (probeMesh sha256Hex d w) host := fun host hhost => publicKey_after hboot hr hhost
  have hneeds : ∀ host ∈ d.hosts, ∀ b, needsConfig d (probeMesh sha256Hex d w) planned.mgmtAssignments host = b →
      (execLog keygen w (applyMesh sha256Hex d (probeMesh sha256Hex d w) env).log host).conf =
        if b then
          some ⟨some (mgmtOf planned.mgmtAssignments host), d.listenPortFor host,
            (wgPeers d host planned.mgmtAssignments planned.subnetAssignments (env.reprobe log₁)).map fun p =>
              p.toPeer (d.listenPortFor host)⟩
        else (w host).conf := by
    rintro host hhost _ rfl
    rw [hcmds host hhost]
    exact conf_after hplan hboot hhost (hactive host hhost) (keygen host) (w host)
  refine ⟨planned, hplan, {
    settled := fun host hhost t ht => ?_
    networks := fun host hhost hpodman ns hns => ?_
    noNetworks := fun hpodman host hhost => ?_
    nft := fun host hhost => ?_
    address := fun host hhost => ?_
    port := fun host hhost hlen => ?_
    keys := fun host hhost => ?_
    keptPeers := fun host hhost hkept => ?_
    writtenPeers := fun host hhost hkept k => ?_ }⟩
  · rw [hcmds host hhost]
    exact settled_after hplan hboot hhost (hactive host hhost) (hkeygen host hhost).1 (hpub host hhost) ht
  · rw [hcmds host hhost]
    exact hasNetwork_after hplan hboot hhost hpodman hns
  · rw [hcmds host hhost]
    refine exec_keeps (fun c hc m => ?_) _
    rcases network_of_mem_hostCmds hc with ⟨htrue, -⟩ | hkeep
    · rw [hpodman] at htrue
      cases htrue
    · exact hkeep _ m
  · rw [hcmds host hhost]
    exact exec_invariant (P := fun m => m.nftAvailable = true) fun c _ m => (flags_effect _ m c).2.2.2.2.2
  · rw [configuredIp]
    cases hb : needsConfig d (probeMesh sha256Hex d w) planned.mgmtAssignments host with
    | true =>
      rw [hneeds host hhost true hb]
      rfl
    | false =>
      rw [hneeds host hhost false hb]
      exact ((needsConfig_eq_false hhost).1 hb).1
  · cases hb : needsConfig d (probeMesh sha256Hex d w) planned.mgmtAssignments host with
    | true =>
      rw [hneeds host hhost true hb]
      rfl
    | false =>
      rw [hneeds host hhost false hb]
      exact ((needsConfig_eq_false hhost).1 hb).2.2.2.2 hlen
  · rw [publicKey_applyMesh hr, hkey host hhost]
  · have hb := (configKept_iff hplan hhost).2 hkept
    rw [server_probeMesh sha256Hex w hhost, peerKeys_probe, peerKeys_probe, hneeds host hhost false hb]
    rfl
  · have hb : needsConfig d (probeMesh sha256Hex d w) planned.mgmtAssignments host = true := by
      rw [← Bool.not_eq_false]
      exact fun hb => hkept ((configKept_iff hplan hhost).1 hb)
    have hwritten : peerKeys (probe sha256Hex d.namespaces
        (execLog keygen w (applyMesh sha256Hex d (probeMesh sha256Hex d w) env).log host)) =
        (wgPeers d host planned.mgmtAssignments planned.subnetAssignments (env.reprobe log₁)).map
          PeerConfig.publicKey := by
      rw [peerKeys_probe, hneeds host hhost true hb, if_pos rfl, Option.map_some, Option.getD_some, List.map_map]
      rfl
    have hsame : (∃ p ∈ d.others host, World.publicKey (execLog keygen w log₁) p = k) ↔
        ∃ p ∈ d.others host, keyAfter keygen (probeMesh sha256Hex d w) p = k :=
      exists_congr fun p => and_congr_right fun hp => by rw [hkey p (d.mem_others.1 hp).1]
    rw [hwritten, henv log₁, mem_writtenKeys, hsame]

end Carried

end Coold.Cli
