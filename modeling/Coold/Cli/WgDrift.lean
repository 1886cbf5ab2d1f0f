import Mathlib.Data.List.Perm.Subperm
import Coold.Cli.Apply

/-!
# What the planner sees of a WireGuard configuration

The planner rewrites the configuration of a host if its address or its port differ, or if the key of another host is
missing.  It does not compare the addresses and endpoints of the sections, does not look for sections that are too many,
and of a host that is alone it does not compare the port.  So a configuration that is not rewritten is the one that would
be written exactly if nothing of this differs (`config_complete`).  That no section is missing is left to the planner,
unless two other hosts have the same key, of which it sees one only.
-/

namespace Coold.Cli

/-- What makes up a peer in a configuration: its key, its endpoint and the addresses that are routed to it. -/
def Peer.entry (p : Peer) : String × String × List String := (p.publicKey, p.endpoint, p.allowedIps)

/-- Every host of the mesh has been probed and has a key. -/
def KeysKnown (d : DesiredMesh) (current : MeshState) : Prop :=
  ∀ p ∈ d.hosts, ∃ s, current.servers.lookup p = some s ∧ s.publicKey ≠ ""

section Drift

variable {sha256Hex : List UInt8 → String} {d : DesiredMesh} {current : MeshState} {plan : Plan} {host : String}

/-- The peers that would be written for a host, as they are read back. -/
def writtenEntries (d : DesiredMesh) (host : String) (mgmt : Dict String Ipv4Addr) (subnets : Subnets)
    (fresh : MeshState) : List (String × String × List String) :=
  (wgPeers d host mgmt subnets fresh).map fun p => (p.toPeer (d.listenPortFor host)).entry

/-- The probed configuration of a host is the one that would be written for it from the same state. -/
structure ConfigMatches (d : DesiredMesh) (current : MeshState) (mgmt : Dict String Ipv4Addr) (subnets : Subnets)
    (host : String) : Prop where
  address : (current.server host).wireguardMgmtIp = mgmt.lookup host
  port : (current.server host).listenPort = d.listenPortFor host
  peers : ((current.server host).peers.map Peer.entry).Perm (writtenEntries d host mgmt subnets current)

/-- The section is the one of host `p` in the configuration of `host`: it has the key, the addresses and the endpoint
that belong to `p` now. -/
structure SectionOf (d : DesiredMesh) (current : MeshState) (mgmt : Dict String Ipv4Addr) (subnets : Subnets)
    (host p : String) (peer : Peer) : Prop where
  publicKey : peer.publicKey = (current.server p).publicKey
  allowedIps : peer.allowedIps = (ipv4ToString (mgmtOf mgmt p) ++ "/32") ::
    (if d.isNode p then hostSubnets d subnets p else []).map (fun sn => toString sn)
  endpoint : peer.endpoint = endpointAddr (d.endpointFor p) (d.listenPortFor host)

/-- Nothing differs that the planner does not compare: the port of a host that is alone, sections that are not of
another host, repeated sections, and missing sections of hosts that share their key. -/
structure NothingHidden (d : DesiredMesh) (current : MeshState) (mgmt : Dict String Ipv4Addr) (subnets : Subnets)
    (host : String) : Prop where
  port : d.hosts.length ≤ 1 → (current.server host).listenPort = d.listenPortFor host
  sections : ∀ peer ∈ (current.server host).peers, ∃ p ∈ d.others host,
    SectionOf d current mgmt subnets host p peer
  once : ((current.server host).peers.map Peer.entry).Nodup
  shared : ∀ p ∈ d.others host, ∀ q ∈ d.others host, p ≠ q →
    (current.server p).publicKey = (current.server q).publicKey →
    ∃ peer ∈ (current.server host).peers, SectionOf d current mgmt subnets host p peer

/-- The entry of a host as a peer of another one. -/
private def entryOf (d : DesiredMesh) (host : String) (mgmt : Dict String Ipv4Addr) (subnets : Subnets)
    (current : MeshState) (p : String) : String × String × List String :=
  ((current.server p).publicKey, endpointAddr (d.endpointFor p) (d.listenPortFor host),
    (ipv4ToString (mgmtOf mgmt p) ++ "/32") ::
      (if d.isNode p then hostSubnets d subnets p else []).map fun sn => toString sn)

private theorem sectionOf_iff {mgmt : Dict String Ipv4Addr} {subnets : Subnets} {p : String} {peer : Peer} :
    SectionOf d current mgmt subnets host p peer ↔ peer.entry = entryOf d host mgmt subnets current p := by
  simp only [Peer.entry, entryOf, Prod.mk.injEq]
  exact ⟨fun h => ⟨h.publicKey, h.endpoint, h.allowedIps⟩, fun h => ⟨h.1, h.2.2, h.2.1⟩⟩

variable (host) in
private theorem writtenEntries_eq (hkeys : KeysKnown d current) (mgmt : Dict String Ipv4Addr) (subnets : Subnets) :
    writtenEntries d host mgmt subnets current = (d.others host).map (entryOf d host mgmt subnets current) := by
  unfold writtenEntries wgPeers
  rw [List.map_filterMap, ← List.filterMap_eq_map]
  refine List.filterMap_congr fun p hp => ?_
  obtain ⟨s, hs, hkey⟩ := hkeys p (d.mem_others.1 hp).1
  simp [peerOf, hs, hkey, entryOf, MeshState.server, Peer.entry, PeerConfig.toPeer, allowedIps]

variable (host) in
/-- Two hosts have different entries, since they have different addresses. -/
private theorem nodup_entries {w : List Warning} {mgmt : Dict String Ipv4Addr}
    (hmgmt : allocateMgmtIps d.mgmtPool current.assignedMgmtIps d.hosts = .ok (mgmt, w)) (subnets : Subnets) :
    ((d.others host).map (entryOf d host mgmt subnets current)).Nodup := by
  have hnd : (d.others host).Nodup := (allocateMgmtIps_eq_ok.1 hmgmt).1.filter _
  refine List.Nodup.map_on (fun p hp q hq heq => ?_) hnd
  have hget : ∀ p ∈ d.others host, mgmt.lookup p = some (mgmtOf mgmt p) := by
    intro p hp
    obtain ⟨ip, hip⟩ := Option.isSome_iff_exists.1 ((isSome_lookup_mgmt hmgmt p).2 (d.mem_others.1 hp).1)
    rw [mgmtOf, hip, Option.getD_some]
  simp only [entryOf, Prod.mk.injEq, List.cons.injEq, String.append_left_inj] at heq
  have hsame := ipv4ToString_inj heq.2.2.1
  exact (mgmt_ok hmgmt).2 p q (mgmtOf mgmt p) (hget p hp) (hsame ▸ hget q hq)

/-- A configuration that is not rewritten has the right address, and with more than one host the right port. -/
private theorem address_port_of_no_write (hboot : d.intent = .bootstrap) (hplan : IsPlan sha256Hex d current plan)
    (hhost : host ∈ d.hosts) (hno : shouldRun plan host .writeConfig "" = false) :
    (current.server host).wireguardMgmtIp = plan.mgmtAssignments.lookup host ∧
      (1 < d.hosts.length → (current.server host).listenPort = d.listenPortFor host) := by
  rw [hplan.shouldRun_eq hboot hhost] at hno
  simp only [hostTest, needsConfig, Bool.or_eq_false_iff, Bool.and_eq_false_iff, decide_eq_false_iff_not,
    not_not] at hno
  obtain ⟨⟨⟨⟨⟨haddr, -⟩, -⟩, -⟩, -⟩, hport⟩ := hno
  obtain ⟨w, hmgmt⟩ := hplan.mgmt
  obtain ⟨ip, hip⟩ := Option.isSome_iff_exists.1 ((isSome_lookup_mgmt hmgmt host).2 hhost)
  refine ⟨by rw [haddr, mgmtOf, hip, Option.getD_some], fun hlen => ?_⟩
  exact hport.resolve_left (not_not.2 hlen)

/-- A configuration that is not rewritten has a section with the key of every other host. -/
private theorem key_of_no_write (hboot : d.intent = .bootstrap) (hkeys : KeysKnown d current)
    (hplan : IsPlan sha256Hex d current plan) (hhost : host ∈ d.hosts)
    (hno : shouldRun plan host .writeConfig "" = false) {p : String} (hp : p ∈ d.others host) :
    ∃ peer ∈ (current.server host).peers, peer.publicKey = (current.server p).publicKey := by
  obtain ⟨hmem, hne⟩ := d.mem_others.1 hp
  obtain ⟨s, hs, hkey⟩ := hkeys p hmem
  rw [hplan.shouldRun_eq hboot hhost] at hno
  simp only [hostTest, needsConfig, Bool.or_eq_false_iff, List.any_eq_false, decide_eq_true_eq, not_not] at hno
  -- the key is a desired one, so it is among those of the configuration
  have hdesired : s.publicKey ∈ desiredKeys d current host := by
    rw [desiredKeys, mem_keySet, List.mem_filter, List.mem_filterMap]
    exact ⟨⟨p, hp, by rw [hs]; rfl⟩, by simpa using hkey⟩
  have hcurrent := hno.1.1.1.1.2 _ hdesired
  rw [currentKeys, mem_keySet, List.mem_map] at hcurrent
  obtain ⟨peer, hpeer, heq⟩ := hcurrent
  exact ⟨peer, hpeer, by rw [heq, MeshState.server, hs]; rfl⟩

/-- With nothing hidden, a configuration that is not rewritten has the section of every other host. -/
private theorem section_of_no_write {mgmt : Dict String Ipv4Addr} {subnets : Subnets} (hboot : d.intent = .bootstrap)
    (hkeys : KeysKnown d current) (hplan : IsPlan sha256Hex d current plan) (hhost : host ∈ d.hosts)
    (hno : shouldRun plan host .writeConfig "" = false) (hn : NothingHidden d current mgmt subnets host) {p : String}
    (hp : p ∈ d.others host) :
    ∃ peer ∈ (current.server host).peers, SectionOf d current mgmt subnets host p peer := by
  obtain ⟨peer, hpeer, hkey⟩ := key_of_no_write hboot hkeys hplan hhost hno hp
  obtain ⟨q, hq, hsection⟩ := hn.sections peer hpeer
  by_cases hpq : p = q
  · exact ⟨peer, hpeer, hpq ▸ hsection⟩
  · -- the section with the key of `p` is the one of a host with the same key
    exact hn.shared p hp q hq hpq (hkey.symm.trans hsection.publicKey)

/-- A configuration that a bootstrap does not rewrite is the one that would be written if and only if nothing differs
that the planner does not compare. -/
theorem config_complete (hboot : d.intent = .bootstrap) (hkeys : KeysKnown d current)
    (hb : buildPlan sha256Hex d current = .ok plan) (hhost : host ∈ d.hosts)
    (hno : shouldRun plan host .writeConfig "" = false) :
    ConfigMatches d current plan.mgmtAssignments plan.subnetAssignments host ↔
      NothingHidden d current plan.mgmtAssignments plan.subnetAssignments host := by
  have hplan := isPlan_of_buildPlan hb
  obtain ⟨haddr, hport⟩ := address_port_of_no_write hboot hplan hhost hno
  obtain ⟨w, hmgmt⟩ := hplan.mgmt
  have hwritten := writtenEntries_eq host hkeys plan.mgmtAssignments plan.subnetAssignments
  have hnd := nodup_entries host hmgmt plan.subnetAssignments
  constructor
  · intro hm
    have hperm := hm.peers
    rw [hwritten] at hperm
    have hmem : ∀ p ∈ d.others host, ∃ peer ∈ (current.server host).peers,
        SectionOf d current plan.mgmtAssignments plan.subnetAssignments host p peer := by
      intro p hp
      obtain ⟨peer, hpeer, heq⟩ := List.mem_map.1 (hperm.mem_iff.2 (List.mem_map_of_mem hp))
      exact ⟨peer, hpeer, sectionOf_iff.2 heq⟩
    refine ⟨fun _ => hm.port, fun peer hpeer => ?_, hperm.nodup_iff.2 hnd, fun p hp _ _ _ _ => hmem p hp⟩
    obtain ⟨p, hp, heq⟩ := List.mem_map.1 (hperm.mem_iff.1 (List.mem_map_of_mem hpeer))
    exact ⟨p, hp, sectionOf_iff.2 heq.symm⟩
  · intro hn
    refine ⟨haddr, ?_, ?_⟩
    · rcases Nat.lt_or_ge 1 d.hosts.length with hlen | hlen
      · exact hport hlen
      · exact hn.port hlen
    · rw [hwritten, List.perm_ext_iff_of_nodup hn.once hnd]
      intro e
      rw [List.mem_map, List.mem_map]
      constructor
      · rintro ⟨peer, hpeer, rfl⟩
        obtain ⟨p, hp, hsection⟩ := hn.sections peer hpeer
        exact ⟨p, hp, (sectionOf_iff.1 hsection).symm⟩
      · rintro ⟨p, hp, rfl⟩
        obtain ⟨peer, hpeer, hsection⟩ := section_of_no_write hboot hkeys hplan hhost hno hn hp
        exact ⟨peer, hpeer, sectionOf_iff.1 hsection⟩

end Drift

/-! ### A host that was removed -/

/-- The section for `b` in the configuration of `a`, and the one for a host that is not in the mesh any more. -/
def sectionB : Peer where
  publicKey := "kb"
  endpoint := "b:51820"
  allowedIps := ["100.64.0.2/32", "10.210.1.0/24"]

def sectionC : Peer where
  publicKey := "kc"
  endpoint := "c:51820"
  allowedIps := ["100.64.0.3/32", "10.210.2.0/24"]

/-- Two hosts with keys and addresses, of which the first has these peers. -/
def probedPair (peers : List Peer) : MeshState where
  servers := Dict.collect
    [("a", { installed := true, keysExist := true, publicKey := "ka", wireguardMgmtIp := some 0x64400001,
             listenPort := 51820, active := true, peers := peers }),
      ("b", { installed := true, keysExist := true, publicKey := "kb", wireguardMgmtIp := some 0x64400002,
              listenPort := 51820, active := true })]

private theorem keysKnown_probedPair (peers : List Peer) : KeysKnown (meshOf ["a", "b"]) (probedPair peers) := by
  intro p hp
  simp only [meshOf, List.mem_cons, List.not_mem_nil, or_false] at hp
  rcases hp with rfl | rfl
  · exact ⟨_, rfl, show "ka" ≠ "" by decide⟩
  · exact ⟨_, rfl, show "kb" ≠ "" by decide⟩

/-- The section of a removed host stays, and the configuration is not rewritten. -/
theorem removed_host_stays :
    ¬ ∀ (sha256Hex : List UInt8 → String) (d : DesiredMesh) (current : MeshState) (plan : Plan) (host : String),
      d.intent = .bootstrap → KeysKnown d current → buildPlan sha256Hex d current = .ok plan → host ∈ d.hosts →
        shouldRun plan host .writeConfig "" = false →
          ConfigMatches d current plan.mgmtAssignments plan.subnetAssignments host := by
  intro hall
  obtain ⟨plan, hb, hp⟩ := exists_buildPlan (p := fun plan => !shouldRun plan "a" .writeConfig "")
    (show (buildPlan (fun _ => "") (meshOf ["a", "b"]) (probedPair [sectionB, sectionC])).toOption.any _ = true by
      decide)
  have hm := hall _ _ _ plan "a" rfl (keysKnown_probedPair _) hb (by decide) (by simpa using hp)
  -- two sections are there, and one is written at most
  have htwo : 2 = (writtenEntries (meshOf ["a", "b"]) "a" plan.mgmtAssignments plan.subnetAssignments
      (probedPair [sectionB, sectionC])).length := hm.peers.length_eq
  have hle := List.length_filterMap_le (peerOf (meshOf ["a", "b"]) plan.mgmtAssignments plan.subnetAssignments
    (probedPair [sectionB, sectionC])) ((meshOf ["a", "b"]).others "a")
  have hone : ((meshOf ["a", "b"]).others "a").length = 1 := by decide
  rw [writtenEntries, List.length_map, wgPeers] at htwo
  omega

/-- Without the section of the removed host the configuration is the one that would be written. -/
theorem config_complete_pair :
    ∃ plan, buildPlan (fun _ => "") (meshOf ["a", "b"]) (probedPair [sectionB]) = .ok plan ∧
      ConfigMatches (meshOf ["a", "b"]) (probedPair [sectionB]) plan.mgmtAssignments plan.subnetAssignments "a" := by
  obtain ⟨plan, hb, hp⟩ := exists_buildPlan (p := fun plan => !shouldRun plan "a" .writeConfig "" &&
    (mgmtOf plan.mgmtAssignments "b" = 0x64400002 &&
      hostSubnets (meshOf ["a", "b"]) plan.subnetAssignments "b" = [⟨0x0AD20100, 24, by decide⟩]))
    (show (buildPlan (fun _ => "") (meshOf ["a", "b"]) (probedPair [sectionB])).toOption.any _ = true by decide)
  simp only [Bool.and_eq_true, Bool.not_eq_true', decide_eq_true_eq] at hp
  obtain ⟨hno, hmgmt, hsub⟩ := hp
  refine ⟨plan, hb, (config_complete rfl (keysKnown_probedPair _) hb (by decide) hno).2 ⟨?_, ?_, ?_, ?_⟩⟩
  · exact fun _ => rfl
  · intro peer hpeer
    obtain rfl := List.mem_singleton.1 hpeer
    refine ⟨"b", by decide, rfl, ?_, by decide⟩
    rw [hmgmt, hsub]
    decide
  · decide
  · intro p hp q hq hpq
    have hothers : (meshOf ["a", "b"]).others "a" = ["b"] := by decide
    rw [hothers, List.mem_singleton] at hp hq
    exact absurd (hp.trans hq.symm) hpq

end Coold.Cli
