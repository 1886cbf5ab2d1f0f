import Coold.Cli.AllowedIps
import Coold.Cli.Capacity

/-!
# Gateways of the container networks

The gateway of a container network is the address after its network address.  It lies in the subnet for prefixes up to
31, and before the broadcast address for those up to 30; the planner accepts all prefixes up to 32.  The gateways of a
mesh are distinct as its subnets are, and one of them is a management address only if it lies in both pools
(`gateways_of_plan`).
-/

namespace Coold.Cli

/-- Every namespace has a gateway on every node, which is computed without overflow, is neither the first nor the last
address of its subnet, and is no other gateway and no management address. -/
structure GatewaysValid (d : DesiredMesh) (plan : Plan) : Prop where
  assigned : ∀ ns ∈ d.namespaces, ∀ node ∈ d.nodes, ∃ net, plan.subnetAssignments.lookup (ns, node) = some net
  computed : ∀ k net, plan.subnetAssignments.lookup k = some net → net.network.toNat + 1 < 2 ^ 32
  inside : ∀ k net, plan.subnetAssignments.lookup k = some net → net.contains (machineIp net) = true
  ne_network : ∀ k net, plan.subnetAssignments.lookup k = some net → machineIp net ≠ net.network
  ne_broadcast : ∀ k net, plan.subnetAssignments.lookup k = some net → machineIp net ≠ net.broadcast
  distinct : ∀ k k' net net', plan.subnetAssignments.lookup k = some net → plan.subnetAssignments.lookup k' = some net' →
    machineIp net = machineIp net' → k = k'
  ne_mgmt : ∀ k net host ip, plan.subnetAssignments.lookup k = some net → plan.mgmtAssignments.lookup host = some ip →
    machineIp net ≠ ip

/-! ### The first address of a network -/

section Network

variable (net : Ipv4Net)

private theorem toNat_machineIp : (machineIp net).toNat = (net.network.toNat + 1) % 2 ^ 32 := by
  rw [machineIp, BitVec.toNat_add]
  rfl

private theorem machineIp_ne_network : machineIp net ≠ net.network := by
  rw [Ne, ← BitVec.toNat_inj, toNat_machineIp]
  have := net.network.isLt
  omega

/-- How many addresses a network has by its prefix. -/
private theorem size_cases :
    (net.prefixLen = 32 ∧ net.size = 1) ∨ (net.prefixLen = 31 ∧ net.size = 2) ∨ (net.prefixLen ≤ 30 ∧ 4 ≤ net.size) := by
  have hle := net.le
  unfold Ipv4Net.size
  rcases Nat.lt_or_ge net.prefixLen 31 with h | h
  · exact .inr (.inr ⟨by omega, Nat.pow_le_pow_right (n := 2) (i := 2) (by decide) (by omega)⟩)
  · rcases Nat.lt_or_ge net.prefixLen 32 with h' | h'
    · have h31 : net.prefixLen = 31 := by omega
      exact .inr (.inl ⟨h31, by simp [h31]⟩)
    · have h32 : net.prefixLen = 32 := by omega
      exact .inl ⟨h32, by simp [h32]⟩

private theorem computed_machineIp (h : net.prefixLen ≤ 31) : net.network.toNat + 1 < 2 ^ 32 := by
  obtain ⟨-, hbroad⟩ := net.toNat_network_broadcast
  have := net.broadcast.isLt
  rcases size_cases net with ⟨h32, -⟩ | ⟨-, hsize⟩ | ⟨-, hsize⟩ <;> omega

private theorem contains_machineIp_iff : net.contains (machineIp net) = true ↔ net.prefixLen ≤ 31 := by
  obtain ⟨-, hbroad⟩ := net.toNat_network_broadcast
  have hne := machineIp_ne_network net
  rw [Ne, ← BitVec.toNat_inj] at hne
  rw [Ipv4Net.contains_iff]
  constructor
  · rintro ⟨hstart, hend⟩
    rcases size_cases net with ⟨-, hsize⟩ | ⟨h31, -⟩ | ⟨h30, -⟩ <;> omega
  · intro h
    rw [toNat_machineIp, Nat.mod_eq_of_lt (computed_machineIp net h)]
    rcases size_cases net with ⟨h32, -⟩ | ⟨-, hsize⟩ | ⟨-, hsize⟩ <;> omega

private theorem machineIp_eq_broadcast_iff : machineIp net = net.broadcast ↔ net.prefixLen = 31 := by
  obtain ⟨-, hbroad⟩ := net.toNat_network_broadcast
  have hne := machineIp_ne_network net
  rw [Ne, ← BitVec.toNat_inj] at hne
  rw [← BitVec.toNat_inj]
  rcases size_cases net with ⟨h32, hsize⟩ | ⟨h31, hsize⟩ | ⟨h30, hsize⟩
  · omega
  · rw [toNat_machineIp, Nat.mod_eq_of_lt (computed_machineIp net (by omega))]
    omega
  · rw [toNat_machineIp, Nat.mod_eq_of_lt (computed_machineIp net (by omega))]
    omega

private theorem network_eq_of_machineIp {net net' : Ipv4Net} (h : machineIp net = machineIp net') :
    net.network = net'.network := by
  rw [← BitVec.toNat_inj, toNat_machineIp, toNat_machineIp] at h
  rw [← BitVec.toNat_inj]
  have := net.network.isLt
  have := net'.network.isLt
  omega

end Network

/-- Every subnet has the wanted length, also where the pool reaches the last address there is. -/
private theorem prefixLen_subnets {pool : Ipv4Net} {prefixLen : Nat} {existing : String → Dict String Ipv4Net}
    {namespaces hosts : List String} {m : Subnets} {w : List Warning}
    (h : allocateNamespaced pool prefixLen existing namespaces hosts = .ok (m, w)) {k : String × String} {net : Ipv4Net}
    (hk : m.lookup k = some net) : net.prefixLen = prefixLen := by
  have hpair := mem_subnetPairs.2 ((isSome_lookup_subnets h k).1 (by rw [hk]; rfl))
  obtain ⟨-, flat, hflat, rfl⟩ := allocateNamespaced_eq_ok.1 h
  obtain ⟨le, -, hnd, hassign⟩ := allocate_eq_ok.1 hflat
  rw [lookup_unflatten hnd hpair] at hk
  rcases (subnetPool pool prefixLen le).of_lookup_assign (Dict.nodup_map_fst_sorted _) hassign hk with
    ⟨-, hvalid⟩ | ⟨_, _, -, rfl⟩
  · have hboth : net.prefixLen = prefixLen ∧ pool.contains net.network = true := by simpa [subnetPool] using hvalid
    exact hboth.1
  · rfl

/-- The gateways of an accepted plan: they are never network addresses, they lie in their subnets exactly for prefixes
up to 31 and are broadcast addresses exactly for the prefix 31; they are distinct, and one of them is a management
address only if it lies in both pools.  The last two are said unless the container pool reaches the last address there is
and has fewer subnets than are asked for. -/
theorem gateways_of_plan {sha256Hex : List UInt8 → String} {d : DesiredMesh} {current : MeshState} {plan : Plan}
    (h : buildPlan sha256Hex d current = .ok plan) :
    (∀ ns ∈ d.namespaces, ∀ node ∈ d.nodes, ∃ net, plan.subnetAssignments.lookup (ns, node) = some net ∧
      (d.containerPrefix ≤ 31 → net.network.toNat + 1 < 2 ^ 32) ∧
      (net.contains (machineIp net) = true ↔ d.containerPrefix ≤ 31) ∧
      machineIp net ≠ net.network ∧
      (machineIp net = net.broadcast ↔ d.containerPrefix = 31)) ∧
    ((d.containerPool.broadcast.toNat < 2 ^ 32 - 1 ∨
        d.namespaces.length * d.nodes.length ≤ subnetCount d.containerPool d.containerPrefix) →
      (∀ k k' net net', plan.subnetAssignments.lookup k = some net → plan.subnetAssignments.lookup k' = some net' →
        machineIp net = machineIp net' → k = k') ∧
      ∀ k net host ip, plan.subnetAssignments.lookup k = some net → plan.mgmtAssignments.lookup host = some ip →
        machineIp net = ip →
        d.mgmtPool.contains ip = true ∧ (d.containerPrefix ≤ 31 → d.containerPool.contains ip = true)) := by
  obtain ⟨w, hmgmt⟩ := (isPlan_of_buildPlan h).mgmt
  obtain ⟨w', hsubnets⟩ := (isPlan_of_buildPlan h).subnets
  refine ⟨fun ns hns node hnode => ?_, fun hfit => ?_⟩
  · obtain ⟨net, hnet⟩ := Option.isSome_iff_exists.1 ((isSome_lookup_subnets hsubnets (ns, node)).2 ⟨hns, hnode⟩)
    have hlen := prefixLen_subnets hsubnets hnet
    rw [← hlen]
    exact ⟨net, hnet, computed_machineIp net, contains_machineIp_iff net, machineIp_ne_network net,
      machineIp_eq_broadcast_iff net⟩
  · obtain ⟨hle, hsize, hapart⟩ := subnets_ok hsubnets hfit
    refine ⟨fun k k' net net' hk hk' heq => hapart k k' net net' hk hk' (network_eq_of_machineIp heq), ?_⟩
    rintro k net host _ hk hip rfl
    have hin := (mgmt_ok hmgmt).1 host _ hip
    obtain ⟨hlen, hstart⟩ := hsize k net hk
    refine ⟨Ipv4Net.contains_iff.2 ⟨hin.1.le, hin.2.le⟩, fun h31 => ?_⟩
    have hgateway := (contains_machineIp_iff net).2 (by omega)
    exact Ipv4Net.contains_of_network (by omega) hstart hgateway

/-- Two nodes with the default pools and the prefix of a point-to-point link. -/
def linkMesh : DesiredMesh := { meshOf ["a", "b"] with containerPrefix := 31 }

theorem gateways_of_plan_link :
    ∃ plan, buildPlan (fun _ => "0") linkMesh ⟨∅⟩ = .ok plan ∧
      ∃ net, plan.subnetAssignments.lookup ("default", "b") = some net ∧ machineIp net = net.broadcast := by
  obtain ⟨plan, hplan, -⟩ : ∃ plan, buildPlan (fun _ => "0") linkMesh ⟨∅⟩ = .ok plan ∧ true = true :=
    exists_buildPlan (p := fun _ => true) (by decide)
  obtain ⟨net, hnet, -, -, -, hbroad⟩ := (gateways_of_plan hplan).1 "default" (by decide) "b" (by decide)
  exact ⟨plan, hplan, net, hnet, hbroad.2 (by decide)⟩

/-- With the prefix 31 a gateway is the broadcast address of its subnet, with 32 it is outside, and with one pool for both
kinds of addresses it is a management address. -/
theorem gateways_invalid :
    (∃ plan, buildPlan (fun _ => "0") linkMesh ⟨∅⟩ = .ok plan ∧ ¬ GatewaysValid linkMesh plan) ∧
    (∃ plan, buildPlan (fun _ => "0") { linkMesh with containerPrefix := 32 } ⟨∅⟩ = .ok plan ∧
      ¬ GatewaysValid { linkMesh with containerPrefix := 32 } plan) ∧
    ∃ plan, buildPlan (fun _ => "0") onePoolMesh ⟨∅⟩ = .ok plan ∧ ¬ GatewaysValid onePoolMesh plan := by
  refine ⟨?_, ?_, ?_⟩
  · obtain ⟨plan, hplan, hp⟩ : ∃ plan, buildPlan (fun _ => "0") linkMesh ⟨∅⟩ = .ok plan ∧
        (plan.subnetAssignments.lookup ("default", "a") == some (Ipv4Net.ofLen 0x0AD20000 31)) = true :=
      exists_buildPlan (by decide)
    exact ⟨plan, hplan, fun h => h.ne_broadcast _ _ (beq_iff_eq.1 hp) (by decide)⟩
  · obtain ⟨plan, hplan, hp⟩ : ∃ plan, buildPlan (fun _ => "0") { linkMesh with containerPrefix := 32 } ⟨∅⟩ = .ok plan ∧
        (plan.subnetAssignments.lookup ("default", "a") == some (Ipv4Net.ofLen 0x0AD20000 32)) = true :=
      exists_buildPlan (by decide)
    exact ⟨plan, hplan, fun h => absurd (h.inside _ _ (beq_iff_eq.1 hp)) (by decide)⟩
  · obtain ⟨plan, hplan, hp⟩ : ∃ plan, buildPlan (fun _ => "0") onePoolMesh ⟨∅⟩ = .ok plan ∧
        (plan.subnetAssignments.lookup ("default", "a") == some (Ipv4Net.ofLen 0x0AD20000 24) &&
          plan.mgmtAssignments.lookup "a" == some 0x0AD20001) = true :=
      exists_buildPlan (by decide)
    rw [Bool.and_eq_true, beq_iff_eq, beq_iff_eq] at hp
    exact ⟨plan, hplan, fun h => h.ne_mgmt _ _ _ _ hp.1 hp.2 (by decide)⟩

end Coold.Cli
