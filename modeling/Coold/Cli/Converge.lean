import Coold.Cli.Carried
import Coold.Cli.WgDrift

/-!
# A second plan

After a run that succeeds the mesh is probed and planned again, and nothing should be found.  What an action leaves on a
host is found there by the second plan, and the addresses are allocated as before.  The one exception is the
configuration of WireGuard: a section for a host that is not in the mesh makes the planner list a `removePeer`, which no
phase carries out, and the configuration is rewritten only if something else differs as well (`stale_peer_stays`).  So
the plan is empty if and only if no host keeps a configuration with other keys than those of the other hosts, and what
is read back of keys, versions and subnets is what was wanted (`converges_iff`).
-/

namespace Coold.Cli

/-! ### The second plan -/

/-- A mesh for which there is a plan without actions. -/
def NothingToDo (sha256Hex : List UInt8 → String) (d : DesiredMesh) (current : MeshState) : Prop :=
  ∃ plan, buildPlan sha256Hex d current = .ok plan ∧ plan.isEmpty = true

/-- The subnets that are allocated from a state are allocated again where they are in use. -/
def SubnetsSettle (d : DesiredMesh) (current : MeshState) : Prop :=
  ∀ m w, allocateNamespaced d.containerPool d.containerPrefix current.assignedContainerSubnets d.namespaces d.nodes =
      .ok (m, w) →
    ∀ existing : String → Dict String Ipv4Net,
      (∀ ns ∈ d.namespaces, ∀ host ∈ d.nodes, (existing ns).lookup host = m.lookup (ns, host)) →
    ∃ m' w', allocateNamespaced d.containerPool d.containerPrefix existing d.namespaces d.nodes = .ok (m', w') ∧
      ∀ k, m'.lookup k = m.lookup k

/-- They are if the pool ends before the addresses do, or has room for all of them. -/
private theorem subnetsSettle_of_fits {d : DesiredMesh} {current : MeshState}
    (hfit : d.containerPool.broadcast.toNat < 2 ^ 32 - 1 ∨
      d.namespaces.length * d.nodes.length ≤ subnetCount d.containerPool d.containerPrefix) :
    SubnetsSettle d current := by
  intro m w h existing heq
  obtain ⟨m', hm', hsame⟩ := subnets_stable h hfit heq
  exact ⟨m', [], hm', hsame⟩

/-- What a second plan needs of the state before the run: the versions are read back as they are written, the reported
keys are not blank, a configuration that is not rewritten lists the keys that the other hosts will have, and the subnets
stay. -/
structure Convergent (d : DesiredMesh) (keygen : String → String × String) (current : MeshState) : Prop where
  versions : d.nodes ≠ [] → d.installCoold = true → Installable d.corrosionVersion ∧ Installable d.cooldVersion
  keys : ∀ host ∈ d.hosts, ∀ p ∈ d.others host, (current.server p).keysExist = true → (current.server p).publicKey ≠ ""
  peers : ∀ host ∈ d.hosts, ConfigKept d current host →
    ∀ k, k ∈ peerKeys (current.server host) ↔ ∃ p ∈ d.others host, keyAfter keygen current p = k
  subnets : d.installPodman = true → SubnetsSettle d current

section Second

variable {sha256Hex : List UInt8 → String} {d : DesiredMesh} {keygen : String → String × String} {w w' : World}
  {planned plan : Plan} {host : String} {current current' : MeshState} {mgmt mgmt' : Dict String Ipv4Addr}
  {subnets subnets' : Subnets}

/-- A mesh that has been accepted is accepted again if no host has lost nft. -/
private theorem refusal_of_nft
    (hnft : ∀ host ∈ d.nodes, ∀ s', current'.servers.lookup host = some s' → s'.nftAvailable = false →
      ∃ s, current.servers.lookup host = some s ∧ s.nftAvailable = false)
    (h : refusal d current = .ok ()) : refusal d current' = .ok () := by
  unfold refusal at h ⊢
  split at h
  · cases h
  next hdeny =>
    rw [if_neg hdeny]
    split at h
    · cases h
    next hcoold =>
      rw [if_neg hcoold]
      split at h
      · cases h
      next hns =>
        rw [if_neg hns]
        split at h
        · cases h
        next =>
          split at h
          · cases h
          next hnone =>
            rw [List.find?_eq_none] at hnone
            rw [List.find?_eq_none.2]
            intro host hhost hlost
            cases hs' : current'.servers.lookup host with
            | none =>
              rw [hs'] at hlost
              cases hlost
            | some s' =>
              simp only [hs', Option.map_some, Option.getD_some, Bool.and_eq_true, Bool.not_eq_true'] at hlost
              obtain ⟨s, hs, hlost'⟩ := hnft host hhost s' hs' hlost.2
              refine hnone host hhost ?_
              simp [hs, hlost', hlost.1]

theorem IsPlan.isEmpty_iff (h : IsPlan sha256Hex d current plan) (hboot : d.intent = .bootstrap) :
    plan.isEmpty = true ↔ ∀ host ∈ d.hosts, ∀ t,
      hostTest sha256Hex d current plan.mgmtAssignments plan.subnetAssignments host t = false := by
  rw [Plan.isEmpty, List.isEmpty_iff, h.actions,
    List.filter_eq_self.2 fun a _ => by simp [decideAction_bootstrap a hboot], List.flatMap_eq_nil_iff]
  exact forall₂_congr fun host _ => hostActions_eq_nil_iff

/-- Where the keys are as they should be none is listed. -/
private theorem keysCut_of_configSettled (h : ConfigSettled sha256Hex d w host mgmt) :
    keysCut d (probeMesh sha256Hex d w) host = true := by
  have hadd : (desiredKeys d (probeMesh sha256Hex d w) host).filter
      (fun k => k ∉ currentKeys (probeMesh sha256Hex d w) host) = [] := by
    simp [List.filter_eq_nil_iff, h.2]
  have hremove : (currentKeys (probeMesh sha256Hex d w) host).filter
      (fun k => k ∉ desiredKeys d (probeMesh sha256Hex d w) host) = [] := by
    simp [List.filter_eq_nil_iff, h.2]
  rw [keysCut, hadd, hremove]
  rfl

private theorem exists_isPlan {warnings warnings' : List Warning} (haccepted : refusal d current = .ok ())
    (hmgmt : allocateMgmtIps d.mgmtPool current.assignedMgmtIps d.hosts = .ok (mgmt, warnings))
    (hsubnets : allocateNamespaced d.containerPool d.containerPrefix current.assignedContainerSubnets d.namespaces
      d.nodes = .ok (subnets, warnings')) (hkeys : ∀ host ∈ d.hosts, keysCut d current host = true) :
    ∃ plan, buildPlan sha256Hex d current = .ok plan ∧ plan.mgmtAssignments = mgmt ∧
      plan.subnetAssignments = subnets := by
  unfold buildPlan
  rw [haccepted, hmgmt, hsubnets]
  dsimp only
  rw [if_pos (List.all_eq_true.2 hkeys)]
  exact ⟨_, rfl, assignments_filterByIntent _ d⟩

/-- What belongs to an action depends on the addresses only. -/
private theorem settled_congr {m : Machine} {t : ActionType} (hmgmt : ∀ k, mgmt.lookup k = mgmt'.lookup k)
    (hsub : ∀ k, subnets.lookup k = subnets'.lookup k) (h : Settled sha256Hex d mgmt subnets host m t) :
    Settled sha256Hex d mgmt' subnets' host m t := by
  have hexpected := Document.expected_congr (d := d) ⟨List.Perm.refl _, List.Perm.refl _, rfl⟩ hmgmt hsub host
  cases t with
  | installFirewall | writeCorrosionConfig | installCooldService => simpa only [Settled, hexpected] using h
  | _ => exact h

private theorem mgmtOf_congr (hmgmt : ∀ k, mgmt.lookup k = mgmt'.lookup k) (host : String) :
    mgmtOf mgmt host = mgmtOf mgmt' host := by
  rw [mgmtOf, mgmtOf, hmgmt]

/-- Where the configuration and the keys are as they should be, the tests of WireGuard find nothing. -/
private theorem wgTests_iff :
    (∀ t : ActionType, t = .writeConfig ∨ t = .reloadService ∨ t = .addPeer ∨ t = .removePeer →
      hostTest sha256Hex d (probeMesh sha256Hex d w) mgmt subnets host t = false) ↔
    ConfigSettled sha256Hex d w host mgmt := by
  unfold ConfigSettled
  constructor
  · intro h
    have hadd := h .addPeer (by simp)
    have hremove := h .removePeer (by simp)
    simp only [hostTest, List.any_eq_false, decide_eq_true_eq, not_not] at hadd hremove
    exact ⟨h .writeConfig (by simp), fun k => ⟨hremove k, hadd k⟩⟩
  · rintro ⟨hneeds, hkeys⟩ t (rfl | rfl | rfl | rfl)
    · exact hneeds
    · simp [hostTest, hneeds]
    · simp [hostTest, hkeys]
    · simp [hostTest, hkeys]

/-- The networks of a host are found as they should be. -/
private theorem networkTests_of_hasNetwork (hhost : host ∈ d.hosts) {ns : String} (hns : ns ∈ d.namespaces)
    (h : HasNetwork subnets ns host (w host)) :
    networkMissing (probeMesh sha256Hex d w) host ns = false ∧
      networkDrift (probeMesh sha256Hex d w) subnets host ns = false := by
  have hlookup : ((probeMesh sha256Hex d w).server host).namespaces.lookup ns = some (probeNamespace (w host) ns) := by
    rw [server_probeMesh sha256Hex w hhost, probe, Dict.lookup_collect_map_self, if_pos hns]
  have hnet : probeNamespace (w host) ns = ⟨true, some (subnetOf subnets ns host), false, ns⟩ := by
    rw [probeNamespace, h]
    rfl
  simp [networkMissing, networkDrift, hlookup, hnet]

/-- After a run the second plan looks at the configuration of WireGuard and at the versions. -/
private theorem tests_iff (h : Carried sha256Hex d keygen w planned w')
    (hcorrosion : d.corrosionVersion ≠ "nightly" ∧ d.corrosionVersion ≠ "latest")
    (hcoold : d.cooldVersion ≠ "nightly" ∧ d.cooldVersion ≠ "latest") (hhost : host ∈ d.hosts)
    (hmgmt : ∀ k, planned.mgmtAssignments.lookup k = mgmt.lookup k)
    (hsub : ∀ k, planned.subnetAssignments.lookup k = subnets.lookup k) :
    (∀ t, hostTest sha256Hex d (probeMesh sha256Hex d w') mgmt subnets host t = false) ↔
      ConfigSettled sha256Hex d w' host mgmt ∧ ((d.isNode host && d.installCoold) = true →
        Installable d.corrosionVersion ∧ Installable d.cooldVersion) := by
  have hserver := server_probeMesh sha256Hex w' hhost
  have hsettled : ∀ t : ActionType, t.concerns d host = true →
      Settled sha256Hex d mgmt subnets host (w' host) t := fun t ht =>
    settled_congr hmgmt hsub (h.settled host hhost t ht)
  -- the versions are found as they are wanted if they are read back as they are written
  have hdrift : (d.isNode host && d.installCoold) = true →
      (corrosionDrift d (probeMesh sha256Hex d w') host = false ↔ Installable d.corrosionVersion) ∧
        (cooldDrift d (probeMesh sha256Hex d w') host = false ↔ Installable d.cooldVersion) := by
    intro hagents
    rw [corrosionDrift, cooldDrift, hserver]
    exact ⟨drift_of_hasVersion (hsettled .installCorrosion hagents) hcorrosion,
      drift_of_hasVersion (hsettled .installCoold hagents) hcoold⟩
  constructor
  · intro htests
    refine ⟨wgTests_iff.1 fun t _ => htests t, fun hagents => ?_⟩
    have h₁ := htests .installCorrosion
    have h₂ := htests .installCoold
    simp only [hostTest, hostTest.agents, hagents, Bool.true_and] at h₁ h₂
    exact ⟨(hdrift hagents).1.1 h₁, (hdrift hagents).2.1 h₂⟩
  · rintro ⟨hconfig, hversions⟩ t
    by_cases hplain : t.plain = true
    · exact test_of_settled hhost hplain hsettled fun hagents =>
        ⟨(hdrift hagents).1.2 (hversions hagents).1, (hdrift hagents).2.2 (hversions hagents).2⟩
    have hnetwork : (d.isNode host && d.installPodman) = true → ∀ ns ∈ d.sortedNamespaces,
        networkMissing (probeMesh sha256Hex d w') host ns = false ∧
          networkDrift (probeMesh sha256Hex d w') subnets host ns = false := by
      intro hpodman ns hns
      rw [d.mem_sortedNamespaces] at hns
      refine networkTests_of_hasNetwork hhost hns ?_
      rw [HasNetwork, wantedNetwork, subnetOf_congr hsub]
      exact h.networks host hhost hpodman ns hns
    cases t with
    | writeConfig | reloadService | addPeer | removePeer => exact wgTests_iff.2 hconfig _ (by simp)
    | createPodmanNetwork =>
      rw [hostTest, Bool.and_eq_false_iff, List.any_eq_false]
      refine or_iff_not_imp_left.2 fun hpodman ns hns => ?_
      rw [(hnetwork (Bool.eq_true_of_not_eq_false hpodman) ns hns).1]
      decide
    | recreatePodmanNetwork =>
      rw [hostTest, Bool.and_eq_false_iff, List.any_eq_false]
      refine or_iff_not_imp_left.2 fun hpodman ns hns => ?_
      rw [(hnetwork (Bool.eq_true_of_not_eq_false hpodman) ns hns).2, Bool.and_false]
      decide
    | _ => exact absurd rfl hplain

/-- The keys are what the second plan compares: a configuration that is rewritten lists the keys of the other hosts. -/
private theorem configSettled_after (h : Carried sha256Hex d keygen w planned w') (hhost : host ∈ d.hosts)
    (hmgmt : ∀ k, planned.mgmtAssignments.lookup k = mgmt.lookup k) :
    ConfigSettled sha256Hex d w' host mgmt ↔
      (∀ p ∈ d.others host, keyAfter keygen (probeMesh sha256Hex d w) p ≠ "") ∧
        (ConfigKept d (probeMesh sha256Hex d w) host → ∀ k,
          k ∈ peerKeys ((probeMesh sha256Hex d w).server host) ↔
            ∃ p ∈ d.others host, keyAfter keygen (probeMesh sha256Hex d w) p = k) := by
  have hip := h.address host hhost
  rw [mgmtOf_congr hmgmt] at hip
  have hkey : ∀ p ∈ d.others host, World.publicKey w' p = keyAfter keygen (probeMesh sha256Hex d w) p :=
    fun p hp => h.keys p (d.mem_others.1 hp).1
  have hsome : ∀ k, (∃ p ∈ d.others host, World.publicKey w' p = k) ↔
      ∃ p ∈ d.others host, keyAfter keygen (probeMesh sha256Hex d w) p = k :=
    fun k => exists_congr fun p => and_congr_right fun hp => by rw [hkey p hp]
  rw [configSettled_iff hhost (h.settled host hhost .genKeyPair rfl) (h.settled host hhost .installWg rfl) hip
    (h.port host hhost)]
  simp only [hsome]
  rw [forall₂_congr fun p hp => by rw [hkey p hp]]
  refine and_congr_right fun hne => ?_
  by_cases hkept : ConfigKept d (probeMesh sha256Hex d w) host
  · rw [h.keptPeers host hhost hkept]
    exact (true_imp_iff.symm.trans (imp_congr (iff_of_true trivial hkept) Iff.rfl))
  · refine iff_of_true (fun k => ?_) fun hkept' => absurd hkept' hkept
    rw [h.writtenPeers host hhost hkept k, and_iff_right_iff_imp]
    rintro ⟨p, hp, rfl⟩
    exact hne p hp

/-- The management addresses are allocated again. -/
private theorem mgmt_again (hplan : IsPlan sha256Hex d (probeMesh sha256Hex d w) planned)
    (h : Carried sha256Hex d keygen w planned w') :
    ∃ m', allocateMgmtIps d.mgmtPool (probeMesh sha256Hex d w').assignedMgmtIps d.hosts = .ok (m', []) ∧
      ∀ k, m'.lookup k = planned.mgmtAssignments.lookup k := by
  obtain ⟨_, hmgmt⟩ := hplan.mgmt
  refine mgmt_stable hmgmt fun k hk => ?_
  rw [assigned_probeMesh hk, h.address k hk, lookup_mgmtOf hmgmt hk]

private theorem lookup_subnetOf (hplan : IsPlan sha256Hex d current planned) {ns : String} (hns : ns ∈ d.namespaces)
    (hnode : host ∈ d.nodes) :
    planned.subnetAssignments.lookup (ns, host) = some (subnetOf planned.subnetAssignments ns host) := by
  obtain ⟨_, hsubnets⟩ := hplan.subnets
  obtain ⟨net, hnet⟩ := Option.isSome_iff_exists.1 ((isSome_lookup_subnets hsubnets (ns, host)).2 ⟨hns, hnode⟩)
  rw [subnetOf, hnet, Option.getD_some]

/-- With Podman the planned subnets are in use after the run, and without it nothing has changed. -/
private theorem subnets_after (hplan : IsPlan sha256Hex d (probeMesh sha256Hex d w) planned)
    (h : Carried sha256Hex d keygen w planned w') {ns : String} (hns : ns ∈ d.namespaces) (hnode : host ∈ d.nodes) :
    ((probeMesh sha256Hex d w').assignedContainerSubnets ns).lookup host =
      if d.installPodman then planned.subnetAssignments.lookup (ns, host)
      else ((probeMesh sha256Hex d w).assignedContainerSubnets ns).lookup host := by
  have hhost := d.nodes_subset host hnode
  rw [assignedSubnets_probeMesh hhost hns, configuredSubnet]
  cases hpodman : d.installPodman with
  | true =>
    have hnet := h.networks host hhost (by rw [hpodman, d.isNode_iff.2 hnode]; rfl) ns hns
    rw [if_pos rfl, probeNamespace, hnet, lookup_subnetOf hplan hns hnode]
    rfl
  | false =>
    rw [if_neg Bool.false_ne_true, assignedSubnets_probeMesh hhost hns, configuredSubnet, probeNamespace,
      h.noNetworks hpodman host hhost, probeNamespace]

/-- The subnets are allocated again if they settle. -/
private theorem subnets_again (hplan : IsPlan sha256Hex d (probeMesh sha256Hex d w) planned)
    (h : Carried sha256Hex d keygen w planned w')
    (hsettle : d.installPodman = true → SubnetsSettle d (probeMesh sha256Hex d w)) :
    ∃ m' warnings, allocateNamespaced d.containerPool d.containerPrefix
        (probeMesh sha256Hex d w').assignedContainerSubnets d.namespaces d.nodes = .ok (m', warnings) ∧
      ∀ k, m'.lookup k = planned.subnetAssignments.lookup k := by
  obtain ⟨warnings, hsubnets⟩ := hplan.subnets
  cases hpodman : d.installPodman with
  | true =>
    refine hsettle hpodman _ warnings hsubnets _ fun ns hns host hnode => ?_
    rw [subnets_after hplan h hns hnode, if_pos hpodman]
  | false =>
    refine ⟨planned.subnetAssignments, warnings, ?_, fun _ => rfl⟩
    rw [← hsubnets]
    refine allocateNamespaced_congr _ _ _ _ fun ns hns host hnode => ?_
    rw [subnets_after hplan h hns hnode, if_neg (by rw [hpodman]; exact Bool.false_ne_true)]

/-- Where the second plan finds nothing it has the subnets of the first one. -/
private theorem subnets_same (hplan : IsPlan sha256Hex d (probeMesh sha256Hex d w) planned)
    (h : Carried sha256Hex d keygen w planned w') (hplan' : IsPlan sha256Hex d (probeMesh sha256Hex d w') plan)
    (htests : ∀ host ∈ d.hosts, ∀ t, hostTest sha256Hex d (probeMesh sha256Hex d w') plan.mgmtAssignments
      plan.subnetAssignments host t = false) (k : String × String) :
    planned.subnetAssignments.lookup k = plan.subnetAssignments.lookup k := by
  obtain ⟨_, hsubnets⟩ := hplan.subnets
  obtain ⟨_, hsubnets'⟩ := hplan'.subnets
  by_cases hk : k.1 ∈ d.namespaces ∧ k.2 ∈ d.nodes
  swap
  · have hnone : ∀ {s : Subnets}, ((s.lookup k).isSome ↔ k.1 ∈ d.namespaces ∧ k.2 ∈ d.nodes) → s.lookup k = none :=
      fun hsome => Option.not_isSome_iff_eq_none.1 fun h => hk (hsome.1 h)
    rw [hnone (isSome_lookup_subnets hsubnets k), hnone (isSome_lookup_subnets hsubnets' k)]
  obtain ⟨ns, host⟩ := k
  obtain ⟨hns, hnode⟩ := hk
  cases hpodman : d.installPodman with
  | true =>
    have hhost := d.nodes_subset host hnode
    have hpod : (d.isNode host && d.installPodman) = true := by
      rw [hpodman, d.isNode_iff.2 hnode]
      rfl
    have hnet := h.networks host hhost hpod ns hns
    have htest := htests host hhost .recreatePodmanNetwork
    rw [hostTest, hostTest.podman, hpod, Bool.true_and, List.any_eq_false] at htest
    have hdrift := htest ns (d.mem_sortedNamespaces.2 hns)
    rw [(networkTests_of_hasNetwork hhost hns hnet).1] at hdrift
    have hlookup : ((probeMesh sha256Hex d w').server host).namespaces.lookup ns =
        some ⟨true, some (subnetOf planned.subnetAssignments ns host), false, ns⟩ := by
      rw [server_probeMesh sha256Hex w' hhost, probe, Dict.lookup_collect_map_self, if_pos hns, probeNamespace, hnet]
      rfl
    have heq : subnetOf planned.subnetAssignments ns host = subnetOf plan.subnetAssignments ns host := by
      simpa [networkDrift, hlookup] using hdrift
    rw [lookup_subnetOf hplan hns hnode, lookup_subnetOf hplan' hns hnode, heq]
  | false =>
    rw [allocateNamespaced_congr _ _ _ _ fun ns hns host hnode => (subnets_after hplan h hns hnode).trans
      (if_neg (by rw [hpodman]; exact Bool.false_ne_true)), hsubnets, Except.ok.injEq, Prod.mk.injEq] at hsubnets'
    rw [hsubnets'.1]

/-- After what a run leaves there is nothing to do if and only if the state before it was convergent. -/
private theorem nothingToDo_iff (hboot : d.intent = .bootstrap)
    (hcorrosion : d.corrosionVersion ≠ "nightly" ∧ d.corrosionVersion ≠ "latest")
    (hcoold : d.cooldVersion ≠ "nightly" ∧ d.cooldVersion ≠ "latest")
    (hkeygen : ∀ host ∈ d.hosts, (keygen host).1 ≠ "" ∧ readField (keygen host).2 ≠ "")
    (hplan : IsPlan sha256Hex d (probeMesh sha256Hex d w) planned) (h : Carried sha256Hex d keygen w planned w') :
    NothingToDo sha256Hex d (probeMesh sha256Hex d w') ↔ Convergent d keygen (probeMesh sha256Hex d w) := by
  obtain ⟨m', hm', hmgmt⟩ := mgmt_again hplan h
  have hkeys : ∀ p ∈ d.hosts, keyAfter keygen (probeMesh sha256Hex d w) p ≠ "" ↔
      (((probeMesh sha256Hex d w).server p).keysExist = true →
        ((probeMesh sha256Hex d w).server p).publicKey ≠ "") := by
    intro p hp
    unfold keyAfter
    split
    next hexist => simp [hexist]
    next hexist => simp [hexist, (hkeygen p hp).2]
  constructor
  · rintro ⟨plan, hbuild, hempty⟩
    have hplan' := isPlan_of_buildPlan hbuild
    have htests := (hplan'.isEmpty_iff hboot).1 hempty
    obtain ⟨_, hmgmt'⟩ := hplan'.mgmt
    rw [hm'] at hmgmt'
    cases hmgmt'
    have hsub := subnets_same hplan h hplan' htests
    have hhost := fun host hhost => (tests_iff h hcorrosion hcoold hhost (fun k => (hmgmt k).symm) hsub).1
      (htests host hhost)
    have hconfig := fun host hh => (configSettled_after h hh fun k => (hmgmt k).symm).1 (hhost host hh).1
    refine ⟨fun hnodes hagents => ?_, fun host hh p hp => ?_, fun host hh => (hconfig host hh).2, fun hpodman => ?_⟩
    · obtain ⟨node, hnode⟩ := List.exists_mem_of_ne_nil _ hnodes
      exact (hhost node (d.nodes_subset node hnode)).2 (by rw [hagents, d.isNode_iff.2 hnode]; rfl)
    · exact (hkeys p (d.mem_others.1 hp).1).1 ((hconfig host hh).1 p hp)
    · intro m warnings hm existing hexisting
      obtain ⟨warnings', hsubnets'⟩ := hplan'.subnets
      obtain ⟨_, hsubnets⟩ := hplan.subnets
      rw [hsubnets] at hm
      cases hm
      refine ⟨plan.subnetAssignments, warnings', ?_, fun k => (hsub k).symm⟩
      rw [← hsubnets']
      refine allocateNamespaced_congr _ _ _ _ fun ns hns host hnode => ?_
      rw [hexisting ns hns host hnode, subnets_after hplan h hns hnode, if_pos hpodman]
  · intro hconv
    obtain ⟨s', warnings, hs', hsub⟩ := subnets_again hplan h hconv.subnets
    have hnft : ∀ host ∈ d.nodes, ∀ s, (probeMesh sha256Hex d w').servers.lookup host = some s →
        s.nftAvailable = false → ∃ s, (probeMesh sha256Hex d w).servers.lookup host = some s ∧
          s.nftAvailable = false := by
      intro host hnode s hs hlost
      have hhost := d.nodes_subset host hnode
      rw [lookup_probeMesh sha256Hex w' hhost] at hs
      cases hs
      refine ⟨_, lookup_probeMesh sha256Hex w hhost, ?_⟩
      rw [← Bool.not_eq_true] at hlost ⊢
      exact fun havailable => hlost (h.nft host hhost havailable)
    have hconfig : ∀ host ∈ d.hosts, ConfigSettled sha256Hex d w' host m' := fun host hhost =>
      (configSettled_after h hhost fun k => (hmgmt k).symm).2
        ⟨fun p hp => (hkeys p (d.mem_others.1 hp).1).2 (hconv.keys host hhost p hp), hconv.peers host hhost⟩
    obtain ⟨plan, hbuild, rfl, rfl⟩ : ∃ plan, buildPlan sha256Hex d (probeMesh sha256Hex d w') = .ok plan ∧ _ ∧ _ :=
      exists_isPlan (refusal_of_nft hnft hplan.accepted) hm' hs' fun host hhost =>
        keysCut_of_configSettled (hconfig host hhost)
    refine ⟨plan, hbuild, ((isPlan_of_buildPlan hbuild).isEmpty_iff hboot).2 fun host hhost => ?_⟩
    rw [tests_iff h hcorrosion hcoold hhost (fun k => (hmgmt k).symm) fun k => (hsub k).symm]
    refine ⟨hconfig host hhost, fun hagents => ?_⟩
    obtain ⟨hnode, hcoold⟩ := Bool.and_eq_true_iff.1 hagents
    exact hconv.versions (List.ne_nil_of_mem (d.isNode_iff.1 hnode)) hcoold

end Second

/-- A bootstrap that succeeds leaves nothing to do if and only if the state before it was convergent. -/
theorem converges_iff {sha256Hex : List UInt8 → String} {d : DesiredMesh} {keygen : String → String × String}
    {w : World} {env : Env} {log : Log} (hboot : d.intent = .bootstrap)
    (hcorrosion : d.corrosionVersion ≠ "nightly" ∧ d.corrosionVersion ≠ "latest")
    (hcoold : d.cooldVersion ≠ "nightly" ∧ d.cooldVersion ≠ "latest")
    (hkeygen : ∀ host ∈ d.hosts, (keygen host).1 ≠ "" ∧ readField (keygen host).2 ≠ "")
    (henv : env.Accurate sha256Hex d keygen w)
    (hok : (applyMesh sha256Hex d (probeMesh sha256Hex d w) env).result = .ok log) :
    NothingToDo sha256Hex d
        (probeMesh sha256Hex d (execLog keygen w (applyMesh sha256Hex d (probeMesh sha256Hex d w) env).log)) ↔
      Convergent d keygen (probeMesh sha256Hex d w) := by
  obtain ⟨planned, hplan, h⟩ := carried_of_ok hboot hkeygen henv hok
  exact nothingToDo_iff hboot hcorrosion hcoold hkeygen hplan h

/-! ### A new mesh and a host that was removed -/

/-- The names of the hosts as keys. -/
def namedKeys (host : String) : String × String := (host, host)

/-- Two blank machines become a mesh in which there is nothing to do. -/
theorem converges_blank :
    NothingToDo (fun _ => "0") (meshOf ["a", "b"]) (probeMesh (fun _ => "0") (meshOf ["a", "b"])
      (execLog namedKeys (fun _ => Machine.blank)
        (applyMesh (fun _ => "0") (meshOf ["a", "b"])
          (probeMesh (fun _ => "0") (meshOf ["a", "b"]) fun _ => Machine.blank)
          (envFailing (fun _ => "0") (meshOf ["a", "b"]) (fun _ => Machine.blank) fun _ => false)).log)) := by
  have hkeygen : ∀ host ∈ (meshOf ["a", "b"]).hosts, (namedKeys host).1 ≠ "" ∧ readField (namedKeys host).2 ≠ "" := by
    decide
  obtain ⟨log, hok⟩ := result_ok (show (applyMesh (fun _ => "0") (meshOf ["a", "b"])
    (probeMesh (fun _ => "0") (meshOf ["a", "b"]) fun _ => Machine.blank)
    (envFailing (fun _ => "0") (meshOf ["a", "b"]) (fun _ => Machine.blank)
      fun _ => false)).result.toOption.isSome = true by decide)
  have hserver : ∀ p ∈ (meshOf ["a", "b"]).hosts,
      (probeMesh (fun _ => "0") (meshOf ["a", "b"]) fun _ => Machine.blank).server p =
        probe (fun _ => "0") ["default"] Machine.blank := fun p hp => server_probeMesh _ _ hp
  have hversion : Installable "v1" :=
    installable_of_validateVersion (show validateVersion "--coold-version" "v1" = .ok () by decide)
  refine (converges_iff rfl (by decide) (by decide) hkeygen (fun _ => rfl) hok).2 {
    versions := fun _ _ => ⟨hversion, hversion⟩
    keys := fun host hhost p hp hkeys => ?_
    peers := fun host hhost hkept => ?_
    subnets := fun _ => subnetsSettle_of_fits (.inl (by decide)) }
  · rw [hserver p ((meshOf ["a", "b"]).mem_others.1 hp).1] at hkeys
    cases hkeys
  · -- no host has an address yet
    obtain ⟨ip, hip, -⟩ := hkept.address
    rw [hserver host hhost] at hip
    cases hip

/-- A host with a section for one that is not in the mesh any more. -/
def staleMesh : DesiredMesh := { meshOf ["a"] with installPodman := false, installCoold := false }

def staleWorld : World := fun host =>
  { withKeys host with wgInstalled := true, wgActive := true, conf := some ⟨some 0x64400001, 51820, [sectionC]⟩ }

/-- The section of a removed host is found again in every plan, and no run removes it. -/
theorem stale_peer_stays :
    ¬ ∀ (sha256Hex : List UInt8 → String) (d : DesiredMesh) (keygen : String → String × String) (w : World) (env : Env)
      (log : Log), d.intent = .bootstrap → d.corrosionVersion ≠ "nightly" ∧ d.corrosionVersion ≠ "latest" →
      d.cooldVersion ≠ "nightly" ∧ d.cooldVersion ≠ "latest" →
      (∀ host ∈ d.hosts, (keygen host).1 ≠ "" ∧ readField (keygen host).2 ≠ "") → env.Accurate sha256Hex d keygen w →
      (applyMesh sha256Hex d (probeMesh sha256Hex d w) env).result = .ok log →
      NothingToDo sha256Hex d
        (probeMesh sha256Hex d (execLog keygen w (applyMesh sha256Hex d (probeMesh sha256Hex d w) env).log)) := by
  intro hall
  obtain ⟨log, hok⟩ := result_ok (show (applyMesh (fun _ => "0") staleMesh
    (probeMesh (fun _ => "0") staleMesh staleWorld)
    (envFailing (fun _ => "0") staleMesh staleWorld fun _ => false)).result.toOption.isSome = true by decide)
  obtain ⟨plan, hb, hempty⟩ := hall (fun _ => "0") staleMesh namedKeys staleWorld
    (envFailing (fun _ => "0") staleMesh staleWorld fun _ => false) log rfl (by decide) (by decide) (by decide)
    (fun _ => rfl) hok
  obtain ⟨plan', hb', hp⟩ := exists_buildPlan (p := fun plan => plan.actions.any fun a => a.actionType = .removePeer)
    (show (buildPlan (fun _ => "0") staleMesh (probeMesh (fun _ => "0") staleMesh (execLog namedKeys staleWorld
      (applyMesh (fun _ => "0") staleMesh (probeMesh (fun _ => "0") staleMesh staleWorld)
        (envFailing (fun _ => "0") staleMesh staleWorld fun _ => false)).log))).toOption.any _ = true by decide)
  rw [hb] at hb'
  cases hb'
  rw [List.isEmpty_iff.1 hempty] at hp
  cases hp

end Coold.Cli
