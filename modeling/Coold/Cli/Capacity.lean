import Mathlib.Data.Finset.Max
import Coold.Cli.Meshnet
import Coold.Lib.Str

/-!
# How many addresses a pool has

A search visits the addresses of a row and stays at the last address there is when the row has passed it.  So it ends
if the row ends before the addresses do, or if there is a free address in the row; otherwise it meets a used address
again and never ends (`searchFrom_forever`).

The management addresses end before the broadcast address, so their allocation fails exactly if there are fewer of them
than hosts (`mgmt_allocation`).  The allocation of subnets does what it should except in pools that reach the last
address there is and have fewer subnets than are asked for (`allocation_right_iff`).  An existing subnet is kept in any
lists of namespaces and hosts (`subnets_kept`).
-/

namespace Coold.Cli

/-! ### The addresses that a search visits -/

def visited (step : Nat) (n : Ipv4Addr) (i : Nat) : Ipv4Addr := saturatingAdd n (i * step)

section Visited

variable {stop : Ipv4Addr → Bool} {step : Nat} {exhausted : String} {used : List Ipv4Addr} {tries : Nat}
  {n : Ipv4Addr}

private theorem toNat_visited (step : Nat) (n : Ipv4Addr) (i : Nat) :
    (visited step n i).toNat = min (n.toNat + i * step) (2 ^ 32 - 1) :=
  toNat_saturatingAdd _ _

@[simp] theorem visited_zero : visited step n 0 = n := by
  rw [← BitVec.toNat_inj, toNat_visited]
  have := n.isLt
  omega

private theorem visited_succ (step : Nat) (n : Ipv4Addr) (i : Nat) :
    visited step (saturatingAdd n step) i = visited step n (i + 1) := by
  rw [← BitVec.toNat_inj, toNat_visited, toNat_visited, toNat_saturatingAdd, Nat.succ_mul]
  omega

/-- A search passes over used addresses, and then it fails at the end, finds a free address or has no try left. -/
private theorem searchFrom_cases (stop : Ipv4Addr → Bool) (step : Nat) (exhausted : String) (used : List Ipv4Addr)
    (tries : Nat)
    (n : Ipv4Addr) :
    (∃ i < tries, (∀ j < i, stop (visited step n j) = false ∧ visited step n j ∈ used) ∧
        (stop (visited step n i) = true ∧ searchFrom stop step exhausted used tries n = .error (.bail exhausted) ∨
          visited step n i ∉ used ∧ searchFrom stop step exhausted used tries n = .ok (visited step n i))) ∨
      (∀ i < tries, stop (visited step n i) = false ∧ visited step n i ∈ used) ∧
        searchFrom stop step exhausted used tries n = .error .loops := by
  induction tries generalizing n with
  | zero => exact .inr ⟨by simp, rfl⟩
  | succ tries ih =>
    unfold searchFrom
    by_cases hstop : stop n = true
    · exact .inl ⟨0, by omega, by simp, .inl ⟨by simpa using hstop, by rw [if_pos hstop]⟩⟩
    rw [if_neg hstop]
    by_cases hused : n ∉ used
    · exact .inl ⟨0, by omega, by simp, .inr ⟨by simpa using hused, by rw [if_pos hused, visited_zero]⟩⟩
    rw [if_neg hused]
    -- the rest of the search visits the addresses from the second on
    have hfirst : stop (visited step n 0) = false ∧ visited step n 0 ∈ used :=
      ⟨by simpa using hstop, by simpa using hused⟩
    have hrest : ∀ {P : Ipv4Addr → Prop} {k : Nat}, P (visited step n 0) →
        (∀ j < k, P (visited step (saturatingAdd n step) j)) → ∀ j < k + 1, P (visited step n j) := by
      intro P k h0 hk j hj
      cases j with
      | zero => exact h0
      | succ j =>
        rw [← visited_succ]
        exact hk j (by omega)
    rcases ih (saturatingAdd n step) with ⟨i, hi, hpass, hend⟩ | ⟨hpass, hend⟩
    · rw [visited_succ] at hend
      exact .inl ⟨i + 1, by omega, hrest (P := fun a => stop a = false ∧ a ∈ used) hfirst hpass, hend⟩
    · exact .inr ⟨hrest (P := fun a => stop a = false ∧ a ∈ used) hfirst hpass, hend⟩

/-- Two of the visited addresses are the same if one more than there are used ones have been visited. -/
private theorem exists_visited_eq (h : ∀ i < used.length + 1, visited step n i ∈ used) :
    ∃ i j, i < j ∧ j < used.length + 1 ∧ visited step n i = visited step n j := by
  by_contra hno
  push Not at hno
  have hnd : ((List.range (used.length + 1)).map (visited step n)).Nodup := by
    refine List.Nodup.map_on (fun i hi j hj heq => ?_) List.nodup_range
    rw [List.mem_range] at hi hj
    rcases Nat.lt_trichotomy i j with hij | hij | hij
    · exact absurd heq (hno i j hij hj)
    · exact hij
    · exact absurd heq.symm (hno j i hij hi)
  have hsub : (List.range (used.length + 1)).map (visited step n) ⊆ used := by
    intro a ha
    obtain ⟨i, hi, rfl⟩ := List.mem_map.1 ha
    exact h i (List.mem_range.1 hi)
  have hle := (List.subperm_of_subset hnd hsub).length_le
  rw [List.length_map, List.length_range] at hle
  omega

/-- A search that has no try left after one more try than there are used addresses never ends. -/
theorem searchFrom_forever (h : searchFrom stop step exhausted used (used.length + 1) n = .error .loops) (tries : Nat) :
    searchFrom stop step exhausted used tries n = .error .loops := by
  have hpass : ∀ i < used.length + 1, stop (visited step n i) = false ∧ visited step n i ∈ used := by
    rcases searchFrom_cases stop step exhausted used (used.length + 1) n
      with ⟨i, -, -, ⟨-, hend⟩ | ⟨-, hend⟩⟩ | ⟨hpass, -⟩
    · rw [h] at hend
      cases hend
    · rw [h] at hend
      cases hend
    · exact hpass
  obtain ⟨i, j, hij, hj, heq⟩ := exists_visited_eq fun i hi => (hpass i hi).2
  have hall : ∀ k, stop (visited step n k) = false ∧ visited step n k ∈ used := by
    intro k
    rcases Nat.lt_or_ge k (used.length + 1) with hk | hk
    · exact hpass k hk
    · -- the row has come to the last address, or it does not move at all
      have hsame : visited step n k = visited step n i := by
        have hmul : i * step ≤ j * step := Nat.mul_le_mul_right _ (by omega)
        have hmul' : j * step ≤ k * step := Nat.mul_le_mul_right _ (by omega)
        have hstep : (i + 1) * step ≤ j * step := Nat.mul_le_mul_right _ hij
        have hpos : step = 0 ∨ 2 ^ 32 - 1 ≤ n.toNat + i * step := by
          rw [← BitVec.toNat_inj, toNat_visited, toNat_visited] at heq
          rw [Nat.succ_mul] at hstep
          omega
        rw [← BitVec.toNat_inj, toNat_visited, toNat_visited]
        rcases hpos with rfl | hpos
        · rfl
        · omega
      rw [hsame]
      exact hpass i (by omega)
  rcases searchFrom_cases stop step exhausted used tries n with ⟨k, -, -, ⟨hstop, -⟩ | ⟨hfree, -⟩⟩ | ⟨-, hend⟩
  · rw [(hall k).1] at hstop
    cases hstop
  · exact absurd (hall k).2 hfree
  · exact hend

/-- A search ends if its row stays below the end of the addresses while it goes on. -/
private theorem searchFrom_ends (hstep : 0 < step)
    (hrow : ∀ i ≤ used.length, (∀ j < i, stop (visited step n j) = false) → n.toNat + i * step < 2 ^ 32) :
    searchFrom stop step exhausted used (used.length + 1) n ≠ .error .loops := by
  intro h
  rcases searchFrom_cases stop step exhausted used (used.length + 1) n with ⟨i, -, -, ⟨-, hend⟩ | ⟨-, hend⟩⟩ | ⟨hpass, -⟩
  · rw [h] at hend
    cases hend
  · rw [h] at hend
    cases hend
  obtain ⟨i, j, hij, hj, heq⟩ := exists_visited_eq fun i hi => (hpass i hi).2
  have hend := hrow j (by omega) fun k hk => (hpass k (by omega)).1
  have hmul : (i + 1) * step ≤ j * step := Nat.mul_le_mul_right _ hij
  rw [Nat.succ_mul] at hmul
  rw [← BitVec.toNat_inj, toNat_visited, toNat_visited] at heq
  omega

end Visited

/-- Names with different numbers below a bound are no more than the bound. -/
private theorem length_le_of_index {names : List String} {count : Nat} (index : String → Nat) (hnd : names.Nodup)
    (hlt : ∀ k ∈ names, index k < count) (hinj : ∀ k ∈ names, ∀ k' ∈ names, index k = index k' → k = k') :
    names.length ≤ count := by
  have hmap : (names.map index).Nodup := List.Nodup.map_on (fun k hk k' hk' => hinj k hk k' hk') hnd
  have hsub : names.map index ⊆ List.range count := by
    intro i hi
    obtain ⟨k, hk, rfl⟩ := List.mem_map.1 hi
    exact List.mem_range.2 (hlt k hk)
  have hle := (List.subperm_of_subset hmap hsub).length_le
  rwa [List.length_map, List.length_range] at hle

/-! ### The allocation of management addresses -/

/-- The number of addresses strictly between the network and the broadcast address of a pool. -/
def usableCount (pool : Ipv4Net) : Nat := pool.broadcast.toNat - pool.network.toNat - 1

section Mgmt

variable {pool : Ipv4Net} {existing m : Dict String Ipv4Addr} {hosts : List String} {used : List Ipv4Addr}
  {w : List Warning}

private theorem search_mgmt_ends : (mgmtPool pool).search used ≠ .error .loops := by
  change searchFrom _ _ _ _ _ _ ≠ _
  refine searchFrom_ends Nat.one_pos fun i _ hgo => ?_
  have hlast := pool.broadcast.isLt
  cases i with
  | zero =>
    have := (saturatingAdd pool.network 1).isLt
    omega
  | succ i =>
    have hin := hgo i (Nat.lt_succ_self i)
    rw [decide_eq_false_iff_not, BitVec.le_def, not_le, toNat_visited] at hin
    omega

/-- While fewer addresses are used than there are usable ones, the search finds one. -/
private theorem search_mgmt_ok (hused : used.length < usableCount pool) : ∃ a, (mgmtPool pool).search used = .ok a := by
  unfold usableCount at hused
  have hlast := pool.broadcast.isLt
  have hrow : ∀ i < used.length + 1, (visited 1 (saturatingAdd pool.network 1) i).toNat = pool.network.toNat + 1 + i := by
    intro i hi
    rw [toNat_visited, toNat_saturatingAdd]
    omega
  obtain ⟨j, hj, hfree⟩ : ∃ j < used.length + 1, BitVec.ofNat 32 (pool.network.toNat + 1 + j * 1) ∉ used :=
    exists_free Nat.one_pos (fun i hi => by omega) (Nat.lt_succ_self _)
  have hvisited : BitVec.ofNat 32 (pool.network.toNat + 1 + j * 1) = visited 1 (saturatingAdd pool.network 1) j := by
    rw [Nat.mul_one, ← hrow j hj, BitVec.ofNat_toNat, BitVec.setWidth_eq]
  rw [hvisited] at hfree
  change ∃ a, searchFrom _ _ _ _ _ _ = .ok a
  rcases searchFrom_cases (fun n => decide (pool.broadcast ≤ n)) 1
    s!"pool {pool} is exhausted (no free management IPs)" used (used.length + 1) (saturatingAdd pool.network 1) with
    ⟨i, hi, -, ⟨hstop, -⟩ | ⟨-, hfound⟩⟩ | ⟨hpass, -⟩
  · rw [decide_eq_true_eq, BitVec.le_def, hrow i hi] at hstop
    omega
  · exact ⟨_, hfound⟩
  · exact absurd (hpass j hj).2 hfree

private theorem mgmt_error_iff :
    (∃ e, allocateMgmtIps pool existing hosts = .error e) ↔ ¬ hosts.Nodup ∨ usableCount pool < hosts.length := by
  constructor
  · rintro ⟨e, h⟩
    by_contra hno
    rw [not_or, not_not, not_lt] at hno
    unfold allocateMgmtIps at h
    rw [firstDuplicate_eq_none.2 hno.1] at h
    obtain ⟨used, hlen, hs⟩ := (mgmtPool pool).exists_search_of_assign_lt (finds_mgmtPool pool _)
      existing.nodup_map_fst_sorted h
    obtain ⟨a, hok⟩ : ∃ a, (mgmtPool pool).search used = .ok a := search_mgmt_ok (by omega)
    rw [hok] at hs
    cases hs
  · intro hno
    cases hr : allocateMgmtIps pool existing hosts with
    | error e => exact ⟨e, rfl⟩
    | ok r =>
      obtain ⟨m, w⟩ := r
      obtain ⟨hin, hdistinct⟩ := mgmt_ok hr
      have haddr : ∀ host ∈ hosts, m.lookup host = some ((m.lookup host).getD 0) := by
        intro host hh
        obtain ⟨ip, hip⟩ := Option.isSome_iff_exists.1 ((isSome_lookup_mgmt hr host).2 hh)
        rw [hip]
        rfl
      -- the hosts have different positions among the usable addresses
      have hle : hosts.length ≤ usableCount pool := by
        unfold usableCount
        refine length_le_of_index (fun host => ((m.lookup host).getD 0).toNat - pool.network.toNat - 1)
          (allocateMgmtIps_eq_ok.1 hr).1 (fun host hh => ?_) fun host hh host' hh' heq => ?_
        · have := hin host _ (haddr host hh)
          omega
        · have := hin host _ (haddr host hh)
          have := hin host' _ (haddr host' hh')
          have hsame : (m.lookup host).getD 0 = (m.lookup host').getD 0 := by
            rw [← BitVec.toNat_inj]
            omega
          exact hdistinct host host' _ (haddr host hh) (hsame ▸ haddr host' hh')
      rcases hno with hno | hno
      · exact absurd (allocateMgmtIps_eq_ok.1 hr).1 hno
      · omega

/-- A host keeps a usable address that no smaller host of the mesh has. -/
private theorem mgmt_keeps_first (h : allocateMgmtIps pool existing hosts = .ok (m, w)) {k : String} {ip : Ipv4Addr}
    (hk : k ∈ hosts) (hip : existing.lookup k = some ip)
    (hin : pool.network.toNat < ip.toNat ∧ ip.toNat < pool.broadcast.toNat)
    (hfirst : ∀ k' ∈ hosts, k' < k → existing.lookup k' ≠ some ip) : m.lookup k = some ip := by
  obtain ⟨l, r, hsplit⟩ := List.append_of_mem (Dict.mem_sorted (e := (k, ip)).2 hip)
  have hassign := (allocateMgmtIps_eq_ok.1 h).2
  have hnd := existing.nodup_map_fst_sorted
  have hsorted := existing.pairwise_sorted
  have hmem : ∀ e ∈ l, existing.lookup e.1 = some e.2 := by
    intro e he
    rw [← Dict.mem_sorted, hsplit]
    exact List.mem_append_left _ he
  rw [hsplit] at hassign hnd hsorted
  refine (mgmtPool pool).assign_keeps hnd hassign hk (valid_mgmtPool_iff.2 hin) fun e he hn _ ha => ?_
  -- a host that is visited before is smaller
  have hle : e.1 ≤ k := (List.pairwise_append.1 hsorted).2.2 e he (k, ip) List.mem_cons_self
  rw [List.map_append, List.nodup_append] at hnd
  have hne : e.1 ≠ k := hnd.2.2 e.1 (List.mem_map_of_mem he) k (by simp)
  refine hfirst e.1 hn (lt_of_le_of_ne hle hne) ?_
  rw [hmem e he]
  exact congrArg some ha

/-- It keeps no other one: of the hosts with an address the smallest one keeps it. -/
theorem mgmt_kept_iff (h : allocateMgmtIps pool existing hosts = .ok (m, w)) {k : String} (hk : k ∈ hosts) :
    existing.lookup k = m.lookup k ↔
      ∃ ip, existing.lookup k = some ip ∧ (pool.network.toNat < ip.toNat ∧ ip.toNat < pool.broadcast.toNat) ∧
        ∀ k' ∈ hosts, k' < k → existing.lookup k' ≠ some ip := by
  constructor
  · intro heq
    obtain ⟨ip, hip⟩ := Option.isSome_iff_exists.1 ((isSome_lookup_mgmt h k).2 hk)
    obtain ⟨hin, hdistinct⟩ := mgmt_ok h
    refine ⟨ip, heq.trans hip, hin k ip hip, fun k' hk' hlt hip' => ?_⟩
    obtain ⟨first, hfirst, hmin⟩ := (hosts.toFinset.filter fun p => existing.lookup p = some ip).exists_min_image id
      ⟨k', by simp [hk', hip']⟩
    simp only [Finset.mem_filter, List.mem_toFinset, id_eq] at hfirst hmin
    have hkept : m.lookup first = some ip :=
      mgmt_keeps_first h hfirst.1 hfirst.2 (hin k ip hip) fun p hp hlt' hp' => not_lt_of_ge (hmin p ⟨hp, hp'⟩) hlt'
    rw [hdistinct first k ip hkept hip] at hmin
    exact not_lt_of_ge (hmin k' ⟨hk', hip'⟩) hlt
  · rintro ⟨ip, hip, hin, hfirst⟩
    rw [hip, mgmt_keeps_first h hk hip hin hfirst]

/-- The allocation of management addresses ends, and it fails exactly if a host is listed twice or there are more hosts
than usable addresses.  Otherwise every host has a usable address of its own, which is the one it has already if no
smaller host has it, and the next allocation changes nothing. -/
theorem mgmt_allocation (pool : Ipv4Net) (existing : Dict String Ipv4Addr) (hosts : List String) :
    allocateMgmtIps pool existing hosts ≠ .error .loops ∧
      ((∃ e, allocateMgmtIps pool existing hosts = .error e) ↔ ¬ hosts.Nodup ∨ usableCount pool < hosts.length) ∧
      ∀ m w, allocateMgmtIps pool existing hosts = .ok (m, w) →
        (∀ host, (m.lookup host).isSome ↔ host ∈ hosts) ∧
          (∀ host ip, m.lookup host = some ip →
            pool.network.toNat < ip.toNat ∧ ip.toNat < pool.broadcast.toNat) ∧
          (∀ host host' ip, m.lookup host = some ip → m.lookup host' = some ip → host = host') ∧
          (∀ host ∈ hosts, ∀ ip, existing.lookup host = some ip →
            pool.network.toNat < ip.toNat ∧ ip.toNat < pool.broadcast.toNat →
            (∀ host' ∈ hosts, host' < host → existing.lookup host' ≠ some ip) → m.lookup host = some ip) ∧
          ∃ m', allocateMgmtIps pool m hosts = .ok (m', []) ∧ ∀ host, m'.lookup host = m.lookup host := by
  refine ⟨fun h => ?_, ?_, fun m w h => ?_⟩
  · unfold allocateMgmtIps at h
    split at h
    · cases h
    · obtain ⟨used, hs⟩ := (mgmtPool pool).exists_search_of_assign h
      exact search_mgmt_ends hs
  · exact mgmt_error_iff
  · obtain ⟨hin, hdistinct⟩ := mgmt_ok h
    exact ⟨isSome_lookup_mgmt h, hin, hdistinct, fun host hh ip hip => mgmt_keeps_first h hh hip,
      mgmt_stable h fun _ _ => rfl⟩

end Mgmt

/-! ### The allocation of subnets -/

/-- The number of aligned subnets in a pool. -/
def subnetCount (pool : Ipv4Net) (prefixLen : Nat) : Nat := 2 ^ (prefixLen - pool.prefixLen)

/-- No address lies in both networks. -/
def Ipv4Net.Apart (a b : Ipv4Net) : Prop := ∀ ip, ¬(a.contains ip = true ∧ b.contains ip = true)

/-- What an allocation should do: it ends, every host has a subnet of the wanted length in the pool and apart from the
others, and the pool is found to be exhausted only with more hosts than aligned subnets. -/
structure AllocationRight (pool : Ipv4Net) (prefixLen : Nat) (hosts : List String)
    (result : Except CliError (Dict String Ipv4Net × List Warning)) : Prop where
  ends : result ≠ .error .loops
  listed : ∀ m w, result = .ok (m, w) → ∀ host, (m.lookup host).isSome ↔ host ∈ hosts
  inside : ∀ m w, result = .ok (m, w) → ∀ host net, m.lookup host = some net →
    net.prefixLen = prefixLen ∧ ∀ ip, net.contains ip = true → pool.contains ip = true
  apart : ∀ m w, result = .ok (m, w) → ∀ host host' net net', m.lookup host = some net → m.lookup host' = some net' →
    host ≠ host' → net.Apart net'
  exhausted : result = .error (.bail s!"pool {pool} is exhausted (no free /{prefixLen} subnets)") →
    subnetCount pool prefixLen < hosts.length

section Subnets

variable {pool : Ipv4Net} {prefixLen : Nat} {existing : Dict String Ipv4Net} {hosts : List String}
  {used : List Ipv4Addr}

private theorem Ipv4Net.contains_network (net : Ipv4Net) : net.contains net.network = true := by
  obtain ⟨hnet, hbroad⟩ := net.toNat_network_broadcast
  exact Ipv4Net.contains_iff.2 ⟨le_rfl, by omega⟩

/-- An address of the row is not past the pool. -/
private theorem visited_of_row (le : prefixLen ≤ 32) (hpool : pool.prefixLen ≤ prefixLen) {i : Nat}
    (hi : i < subnetCount pool prefixLen) :
    (visited (subnetStep prefixLen) pool.network i).toNat = pool.network.toNat + i * subnetStep prefixLen ∧
      (visited (subnetStep prefixLen) pool.network i).toNat ≤ pool.broadcast.toNat := by
  obtain ⟨-, hbroad⟩ := pool.toNat_network_broadcast
  obtain ⟨hsize, hrow⟩ := pool_row pool le hpool
  obtain ⟨hmul, hle⟩ := hrow i hi
  have hpos : 0 < 2 ^ (32 - prefixLen) := Nat.two_pow_pos _
  have := pool.broadcast.isLt
  rw [toNat_visited]
  omega

/-- While fewer addresses are used than there are aligned subnets, the search finds one. -/
private theorem search_subnets_ok (le : prefixLen ≤ 32) (hpool : pool.prefixLen ≤ prefixLen)
    (hused : used.length < subnetCount pool prefixLen) :
    ∃ a, (subnetPool pool prefixLen le).search used = .ok a := by
  have hend : ∀ i < used.length + 1, pool.network.toNat + i * subnetStep prefixLen < 2 ^ 32 := by
    intro i hi
    obtain ⟨hrow, -⟩ := visited_of_row le hpool (i := i) (by omega)
    rw [← hrow]
    exact BitVec.isLt _
  obtain ⟨j, hj, hfree⟩ := exists_free (subnetStep_pos prefixLen) hend (Nat.lt_succ_self _)
  have hvisited : BitVec.ofNat 32 (pool.network.toNat + j * subnetStep prefixLen) =
      visited (subnetStep prefixLen) pool.network j := by
    rw [← (visited_of_row le hpool (i := j) (by omega)).1, BitVec.ofNat_toNat, BitVec.setWidth_eq]
  rw [hvisited] at hfree
  change ∃ a, searchFrom _ _ _ _ _ _ = .ok a
  rcases searchFrom_cases (fun n => decide (pool.broadcast < n)) (subnetStep prefixLen)
    s!"pool {pool} is exhausted (no free /{prefixLen} subnets)" used (used.length + 1) pool.network with
    ⟨i, hi, hpass, ⟨hstop, -⟩ | ⟨-, hfound⟩⟩ | ⟨hpass, -⟩
  · -- the free address comes before the end of the pool
    have hle := (visited_of_row le hpool (i := i) (by omega)).2
    rw [decide_eq_true_eq, BitVec.lt_def] at hstop
    omega
  · exact ⟨_, hfound⟩
  · exact absurd (hpass j hj).2 hfree

/-- In a pool that ends before the addresses do, the search ends. -/
private theorem search_subnets_ends (le : prefixLen ≤ 32) (hpool : pool.prefixLen ≤ prefixLen)
    (hlt : pool.broadcast.toNat < 2 ^ 32 - 1) :
    (subnetPool pool prefixLen le).search used ≠ .error .loops := by
  change searchFrom _ _ _ _ _ _ ≠ _
  refine searchFrom_ends (subnetStep_pos prefixLen) fun i _ hgo => ?_
  cases i with
  | zero =>
    have := pool.network.isLt
    omega
  | succ i =>
    obtain ⟨hnet, hbroad⟩ := pool.toNat_network_broadcast
    obtain ⟨hsize, hrow⟩ := pool_row pool le hpool
    -- the address before is in the pool, and the pool has only room for its row
    have hin := hgo i (Nat.lt_succ_self i)
    rw [decide_eq_false_iff_not, BitVec.lt_def, not_lt, toNat_visited] at hin
    have hstep : subnetStep prefixLen = 2 ^ (32 - prefixLen) := by
      refine if_pos ?_
      by_contra hzero
      have hall : pool.size = 2 ^ 32 := by rw [Ipv4Net.size, show pool.prefixLen = 0 by omega]
      omega
    have hi : i < 2 ^ (prefixLen - pool.prefixLen) := by
      have hbelow : i * subnetStep prefixLen < 2 ^ (prefixLen - pool.prefixLen) * subnetStep prefixLen := by
        rw [hstep, ← hsize, ← hstep]
        have := pool.size_pos
        omega
      exact Nat.lt_of_mul_lt_mul_right hbelow
    obtain ⟨hmul, hle⟩ := hrow i hi
    rw [Nat.succ_mul]
    omega

/-- Subnets of one length that are apart from each other are no more than the pool has. -/
private theorem length_le_subnetCount {nets : String → Ipv4Net} (le : prefixLen ≤ 32)
    (hpool : pool.prefixLen ≤ prefixLen)
    (hnd : hosts.Nodup) (hlen : ∀ host ∈ hosts, (nets host).prefixLen = prefixLen)
    (hin : ∀ host ∈ hosts, pool.contains (nets host).network = true)
    (hapart : ∀ host ∈ hosts, ∀ host' ∈ hosts, host ≠ host' → (nets host).Apart (nets host')) :
    hosts.length ≤ subnetCount pool prefixLen := by
  obtain ⟨hnet, hbroad⟩ := pool.toNat_network_broadcast
  obtain ⟨hsize, -⟩ := pool_row pool le hpool
  have hpos : 0 < 2 ^ (32 - prefixLen) := Nat.two_pow_pos _
  -- a subnet starts at the position `index` of the row of the pool
  let index (host : String) : Nat := ((nets host).network.toNat - pool.network.toNat) / 2 ^ (32 - prefixLen)
  have hindex : ∀ host ∈ hosts, (nets host).network.toNat = pool.network.toNat + index host * 2 ^ (32 - prefixLen) := by
    intro host hh
    have hstart : 2 ^ (32 - prefixLen) ∣ (nets host).network.toNat := by
      rw [(Ipv4Net.toNat_network_broadcast _).1, Ipv4Net.size, hlen host hh]
      exact Nat.dvd_mul_left _ _
    have hbase : 2 ^ (32 - prefixLen) ∣ pool.network.toNat := by
      rw [hnet, hsize]
      exact Nat.dvd_trans (Nat.dvd_mul_left _ _) (Nat.dvd_mul_left _ _)
    have hle := (Ipv4Net.contains_iff.1 (hin host hh)).1
    rw [Nat.div_mul_cancel (Nat.dvd_sub hstart hbase)]
    omega
  refine length_le_of_index index hnd (fun host hh => ?_) fun host hh host' hh' heq => ?_
  · have hle := (Ipv4Net.contains_iff.1 (hin host hh)).2
    rw [hindex host hh] at hle
    have hlt : index host * 2 ^ (32 - prefixLen) < subnetCount pool prefixLen * 2 ^ (32 - prefixLen) := by
      unfold subnetCount
      rw [← hsize]
      have := pool.size_pos
      omega
    exact Nat.lt_of_mul_lt_mul_right hlt
  · by_contra hne
    have hsame : (nets host).network = (nets host').network := by
      rw [← BitVec.toNat_inj, hindex host hh, hindex host' hh', heq]
    exact hapart host hh host' hh' hne _ ⟨Ipv4Net.contains_network _, hsame ▸ Ipv4Net.contains_network _⟩

/-- A request with a prefix inside the pool and no duplicates is met by the assignment. -/
private theorem allocate_eq_assign (le : prefixLen ≤ 32) (hpool : pool.prefixLen ≤ prefixLen) (hnd : hosts.Nodup) :
    allocate pool prefixLen existing hosts = (subnetPool pool prefixLen le).assign hosts existing.sorted := by
  unfold allocate
  rw [dif_neg (by omega), firstDuplicate_eq_none.2 hnd]

/-- A request that is refused is not one that exhausts the pool. -/
private theorem allocate_refused (existing : Dict String Ipv4Net)
    (h : ¬(pool.prefixLen ≤ prefixLen ∧ prefixLen ≤ 32 ∧ hosts.Nodup)) :
    ∃ message, allocate pool prefixLen existing hosts = .error (.bail message) ∧
      message ≠ s!"pool {pool} is exhausted (no free /{prefixLen} subnets)" := by
  unfold allocate
  by_cases hprefix : prefixLen < pool.prefixLen ∨ 32 < prefixLen
  · rw [dif_pos hprefix]
    refine ⟨_, rfl, fun heq => ?_⟩
    simpa [toString] using congrArg String.toList heq
  rw [dif_neg hprefix]
  have hnd : ¬ hosts.Nodup := fun hnd => h ⟨by omega, by omega, hnd⟩
  cases hdup : firstDuplicate hosts with
  | none => exact absurd (firstDuplicate_eq_none.1 hdup) hnd
  | some host =>
    refine ⟨_, rfl, fun heq => ?_⟩
    simpa [toString] using congrArg String.toList heq

/-- The allocation is right in a pool that ends before the addresses do, and for no more hosts than subnets. -/
private theorem allocation_right (le : prefixLen ≤ 32) (hpool : pool.prefixLen ≤ prefixLen) (hnd : hosts.Nodup)
    (hfit : pool.broadcast.toNat < 2 ^ 32 - 1 ∨ hosts.length ≤ subnetCount pool prefixLen) :
    AllocationRight pool prefixLen hosts (allocate pool prefixLen existing hosts) := by
  rw [allocate_eq_assign le hpool hnd]
  have hfinds : (subnetPool pool prefixLen le).Finds hosts.length := by
    rcases hfit with hlt | hfit
    · exact finds_subnetPool_of_lt le hpool hlt
    · exact finds_subnetPool le hpool hfit
  -- the search fails only when all subnets are used
  have hfail : ∀ e, (subnetPool pool prefixLen le).assign hosts existing.sorted = .error e →
      subnetCount pool prefixLen < hosts.length := by
    intro e h
    obtain ⟨used, hlen, hs⟩ := (subnetPool pool prefixLen le).exists_search_of_assign_lt hfinds
      existing.nodup_map_fst_sorted h
    by_contra hle
    obtain ⟨a, hok⟩ : ∃ a, (subnetPool pool prefixLen le).search used = .ok a := search_subnets_ok le hpool (by omega)
    rw [hok] at hs
    cases hs
  have hvalid : ∀ m w, (subnetPool pool prefixLen le).assign hosts existing.sorted = .ok (m, w) →
      ∀ host net, m.lookup host = some net → net.prefixLen = prefixLen ∧ pool.contains net.network = true := by
    intro m w h host net hnet
    simpa [subnetPool] using ((subnetPool pool prefixLen le).assign_ok hfinds existing.nodup_map_fst_sorted h).1
      host net hnet
  refine ⟨fun h => ?_, fun m w h => ?_, fun m w h host net hnet => ?_, fun m w h host host' net net' hnet hnet' hne => ?_,
    hfail _⟩
  · rcases hfit with hlt | hfit
    · obtain ⟨used, hs⟩ := (subnetPool pool prefixLen le).exists_search_of_assign h
      exact search_subnets_ends le hpool hlt hs
    · exact absurd (hfail _ h) (by omega)
  · exact (subnetPool pool prefixLen le).isSome_lookup_assign existing.nodup_map_fst_sorted h
  · obtain ⟨hlen, hin⟩ := hvalid m w h host net hnet
    exact ⟨hlen, fun ip => Ipv4Net.contains_of_network (hlen.symm ▸ hpool) hin⟩
  · rintro ip ⟨hip, hip'⟩
    have hlen := (hvalid m w h host net hnet).1.trans (hvalid m w h host' net' hnet').1.symm
    exact hne (((subnetPool pool prefixLen le).assign_ok hfinds existing.nodup_map_fst_sorted h).2 host host' net
      net' hnet hnet' (Ipv4Net.network_eq_of_contains hlen hip hip'))

/-- In a pool that reaches the last address there is, the search does not find that the pool is exhausted. -/
private theorem fits_of_allocation_right (le : prefixLen ≤ 32) (hpool : pool.prefixLen ≤ prefixLen) (hnd : hosts.Nodup)
    (hlast : pool.broadcast.toNat = 2 ^ 32 - 1)
    (h : AllocationRight pool prefixLen hosts (allocate pool prefixLen existing hosts)) :
    hosts.length ≤ subnetCount pool prefixLen := by
  rw [allocate_eq_assign le hpool hnd] at h
  cases hr : (subnetPool pool prefixLen le).assign hosts existing.sorted with
  | error e =>
    obtain ⟨used, hs⟩ := (subnetPool pool prefixLen le).exists_search_of_assign hr
    change searchFrom _ _ _ _ _ _ = _ at hs
    rcases searchFrom_cases (fun n => decide (pool.broadcast < n)) (subnetStep prefixLen)
      s!"pool {pool} is exhausted (no free /{prefixLen} subnets)" used (used.length + 1) pool.network with
      ⟨i, -, -, ⟨hstop, -⟩ | ⟨-, hfound⟩⟩ | ⟨-, hend⟩
    · rw [decide_eq_true_eq, BitVec.lt_def, hlast] at hstop
      have := (visited (subnetStep prefixLen) pool.network i).isLt
      omega
    · rw [hfound] at hs
      cases hs
    · rw [hend] at hs
      cases hs
      exact absurd hr h.ends
  | ok r =>
    obtain ⟨m, w⟩ := r
    have hnets : ∀ host ∈ hosts, m.lookup host = some ((m.lookup host).getD pool) := by
      intro host hh
      obtain ⟨net, hnet⟩ := Option.isSome_iff_exists.1 ((h.listed m w hr host).2 hh)
      rw [hnet]
      rfl
    refine length_le_subnetCount le hpool hnd (fun host hh => (h.inside m w hr host _ (hnets host hh)).1)
      (fun host hh => (h.inside m w hr host _ (hnets host hh)).2 _ (Ipv4Net.contains_network _)) ?_
    exact fun host hh host' hh' => h.apart m w hr host host' _ _ (hnets host hh) (hnets host' hh')

/-- The allocation does what it should unless the pool reaches the last address there is and has fewer subnets than hosts
are listed. -/
theorem allocation_right_iff (pool : Ipv4Net) (prefixLen : Nat) (existing : Dict String Ipv4Net) (hosts : List String) :
    AllocationRight pool prefixLen hosts (allocate pool prefixLen existing hosts) ↔
      (pool.prefixLen ≤ prefixLen → prefixLen ≤ 32 → hosts.Nodup → pool.broadcast.toNat = 2 ^ 32 - 1 →
        hosts.length ≤ subnetCount pool prefixLen) := by
  constructor
  · exact fun h hpool le hnd hlast => fits_of_allocation_right le hpool hnd hlast h
  · intro hfit
    by_cases hok : pool.prefixLen ≤ prefixLen ∧ prefixLen ≤ 32 ∧ hosts.Nodup
    · obtain ⟨hpool, le, hnd⟩ := hok
      refine allocation_right le hpool hnd ?_
      have := pool.broadcast.isLt
      rcases Nat.lt_or_ge pool.broadcast.toNat (2 ^ 32 - 1) with hlt | hge
      · exact .inl hlt
      · exact .inr (hfit hpool le hnd (by omega))
    · -- a refused request gives neither an assignment nor an exhausted pool
      obtain ⟨message, hr, hne⟩ := allocate_refused existing hok
      rw [hr]
      exact ⟨by simp, by simp, by simp, by simp, fun h => absurd (CliError.bail.inj (Except.error.inj h)) hne⟩

/-- Three hosts do not fit into the two halves of the last network there is: the third one gets a subnet that starts at
the last address and lies in the second half. -/
theorem allocation_at_the_end :
    ¬ AllocationRight (Ipv4Net.ofLen 0xFFFFFF00 24) 25 ["a", "b", "c"]
      (allocate (Ipv4Net.ofLen 0xFFFFFF00 24) 25 ∅ ["a", "b", "c"]) := by
  intro h
  have hrun : ∃ m w, allocate (Ipv4Net.ofLen 0xFFFFFF00 24) 25 ∅ ["a", "b", "c"] = .ok (m, w) ∧
      m.lookup "b" = some (Ipv4Net.ofLen 0xFFFFFF80 25) ∧ m.lookup "c" = some (Ipv4Net.ofLen 0xFFFFFFFF 25) :=
    ⟨_, _, rfl, by decide, by decide⟩
  obtain ⟨m, w, hr, hb, hc⟩ := hrun
  exact h.apart m w hr "b" "c" _ _ hb hc (by decide) 0xFFFFFFFF (by decide)

end Subnets

/-! ### Subnets that are kept -/

section Namespaces

variable {namespaces hosts : List String}

/-- A subnet is allocated under a name of its own for every namespace and host. -/
private theorem subnetKey_inj {ns ns' host host' : String} (hns : isDnsLabel ns = true) (hns' : isDnsLabel ns' = true)
    (h : subnetKey ns host = subnetKey ns' host') : ns = ns' ∧ host = host' := by
  have hsplit : ∀ ns host, isDnsLabel ns = true → Str.splitn 2 '/' (subnetKey ns host) = [ns, host] := by
    intro ns host hns
    have hslash : '/' ∉ ns.toList := fun hc => absurd ((chars_of_isDnsLabel hns).2 '/' hc) (by decide)
    exact (Str.splitn_cons hslash 0 host).trans (by simp [Str.splitn, Str.splitn.go])
  have heq := hsplit ns host hns
  rw [h, hsplit ns' host' hns'] at heq
  simpa [eq_comm] using heq

/-- In any lists of valid namespaces and of hosts, a subnet in use is kept if it is one of the wanted length in the pool
that no other namespace and host of the lists has, and no two of them share the name of their subnet. -/
theorem subnets_kept {pool : Ipv4Net} {prefixLen : Nat} {existing : String → Dict String Ipv4Net} {m : Subnets}
    {w : List Warning} (hvalid : validateNamespaces namespaces = .ok ())
    (h : allocateNamespaced pool prefixLen existing namespaces hosts = .ok (m, w)) :
    (∀ ns ∈ namespaces, ∀ host ∈ hosts, ∀ net, (existing ns).lookup host = some net →
      net.prefixLen = prefixLen → pool.contains net.network = true →
      (∀ ns' ∈ namespaces, ∀ host' ∈ hosts, ∀ net', (existing ns').lookup host' = some net' →
        net'.network = net.network → ns' = ns ∧ host' = host) →
      m.lookup (ns, host) = some net) ∧
    ∀ ns ∈ namespaces, ∀ host ∈ hosts, ∀ ns' ∈ namespaces, ∀ host' ∈ hosts,
      subnetKey ns host = subnetKey ns' host' → ns = ns' ∧ host = host' := by
  have hlabel := isDnsLabel_of_validateNamespaces hvalid
  refine ⟨fun ns hns host hhost net hnet hlen hin huniq => ?_, fun ns hns host _ ns' hns' host' _ hkey =>
    subnetKey_inj (hlabel ns hns) (hlabel ns' hns') hkey⟩
  obtain ⟨-, flat, hflat, rfl⟩ := allocateNamespaced_eq_ok.1 h
  obtain ⟨le, -, hnd, hassign⟩ := allocate_eq_ok.1 hflat
  have hpair : (ns, host) ∈ subnetPairs namespaces hosts := mem_subnetPairs.2 ⟨hns, hhost⟩
  -- a subnet is in use under the name of its namespace and host
  have hold : ∀ k ∈ subnetPairs namespaces hosts,
      (flattenExisting existing (subnetPairs namespaces hosts)).lookup (subnetKey k.1 k.2) =
        (existing k.1).lookup k.2 := fun k hk =>
    Dict.lookup_collect_filterMap (g := fun k => subnetKey k.1 k.2) hnd hk
  rw [lookup_unflatten hnd hpair]
  refine (subnetPool pool prefixLen le).assign_keeps_of_unique (Dict.nodup_map_fst_sorted _) hassign
    (List.mem_map_of_mem hpair) (Dict.mem_sorted (e := (subnetKey ns host, net)).2 ((hold _ hpair).trans hnet)) ?_ ?_
  · simp [subnetPool, hlen, hin]
  · rintro ⟨key, net'⟩ hmem hkey - haddr
    obtain ⟨k, hk, rfl⟩ := List.mem_map.1 hkey
    obtain ⟨hns', hhost'⟩ := mem_subnetPairs.1 hk
    have hnet' := (hold k hk).symm.trans (Dict.mem_sorted.1 hmem)
    obtain ⟨rfl, rfl⟩ := huniq k.1 hns' k.2 hhost' net' hnet' haddr
    rfl

/-- A namespace and a host are added in front of those that have a subnet. -/
theorem subnets_kept_grown :
    ∃ m w, allocateNamespaced (Ipv4Net.ofLen 0x0AD20000 16) 24
        (fun _ => Dict.collect [("a", Ipv4Net.ofLen 0x0AD20500 24)]) ["prod"] ["b", "a"] = .ok (m, w) ∧
      m.lookup ("prod", "a") = some (Ipv4Net.ofLen 0x0AD20500 24) := by
  have hrun : ∃ m w, allocateNamespaced (Ipv4Net.ofLen 0x0AD20000 16) 24
      (fun _ => Dict.collect [("a", Ipv4Net.ofLen 0x0AD20500 24)]) ["prod"] ["b", "a"] = .ok (m, w) := ⟨_, _, rfl⟩
  obtain ⟨m, w, h⟩ := hrun
  refine ⟨m, w, h, (subnets_kept (by decide) h).1 "prod" (by decide) "a" (by decide) _ (by decide)
    (by decide) (by decide) fun ns' hns' host' hhost' net' hnet' _ => ⟨List.mem_singleton.1 hns', ?_⟩⟩
  rcases List.mem_cons.1 hhost' with rfl | hhost'
  · cases hnet'
  · exact List.mem_singleton.1 hhost'

end Namespaces

end Coold.Cli
