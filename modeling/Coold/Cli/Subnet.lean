import Mathlib.Algebra.Group.Nat.Defs
import Mathlib.Data.String.Basic
import Coold.Lib.Pool

/-!
# Allocation of addresses

Every host of the mesh has a management address out of one pool, and every node a container subnet for each namespace
out of another.  Addresses that are in use are kept as far as they fit; the others are given the first free address of
the pool.  Both allocators are instances of `Pool.assign`, with the addresses in use visited in the order of the hosts'
names.

The search for a free subnet moves in steps that stop at the last address there is; `CliError.loops` stands for a search
that does not end.
-/

namespace Coold.Cli

abbrev Ipv4Addr := BitVec 32

/-- The textual form of an address. -/
def ipv4ToString (ip : Ipv4Addr) : String :=
  let octet (i : Nat) := toString (ip.toNat / 256 ^ i % 256)
  octet 3 ++ "." ++ octet 2 ++ "." ++ octet 1 ++ "." ++ octet 0

/-- An address with the length of its network mask. -/
structure Ipv4Net where
  addr : Ipv4Addr
  prefixLen : Nat
  le : prefixLen ≤ 32
  deriving DecidableEq

namespace Ipv4Net

/-- A network with a prefix length, or 32 where it is longer. -/
def ofLen (addr : Ipv4Addr) (prefixLen : Nat) : Ipv4Net := ⟨addr, min prefixLen 32, Nat.min_le_right _ _⟩

/-- The number of addresses of the network. -/
def size (net : Ipv4Net) : Nat := 2 ^ (32 - net.prefixLen)

def network (net : Ipv4Net) : Ipv4Addr := BitVec.ofNat 32 (net.addr.toNat / net.size * net.size)

def broadcast (net : Ipv4Net) : Ipv4Addr := BitVec.ofNat 32 (net.addr.toNat / net.size * net.size + (net.size - 1))

def contains (net : Ipv4Net) (ip : Ipv4Addr) : Bool := net.network ≤ ip && ip ≤ net.broadcast

instance : ToString Ipv4Net := ⟨fun net => ipv4ToString net.addr ++ "/" ++ toString net.prefixLen⟩

end Ipv4Net

/-- The first address after the network address. -/
def machineIp (net : Ipv4Net) : Ipv4Addr := net.network + 1

structure Warning where
  host : String
  reason : String
  deriving DecidableEq

/-- Why a function of the command line tool gives no result: it fails with a message, it panics, or it does not
return. -/
inductive CliError where
  | bail (message : String)
  | panics
  | loops
  deriving DecidableEq

/-- The first element that has occurred before. -/
def firstDuplicate {α : Type} [DecidableEq α] (l : List α) : Option α :=
  go [] l
where
  go (seen : List α) : List α → Option α
    | [] => none
    | a :: l => if a ∈ seen then some a else go (a :: seen) l

/-- Addition of unsigned numbers that stops at the largest one. -/
def saturatingAdd (n : Ipv4Addr) (step : Nat) : Ipv4Addr := BitVec.ofNat 32 (min (n.toNat + step) (2 ^ 32 - 1))

/-- The first address from `n` on, in steps, that is not used.  Every address that is passed over is used, so with one
more try than there are used addresses the search ends unless it meets one of them again, and then it never ends. -/
def searchFrom (stop : Ipv4Addr → Bool) (step : Nat) (exhausted : String) (used : List Ipv4Addr) :
    (tries : Nat) → (n : Ipv4Addr) → Except CliError Ipv4Addr
  | 0, _ => .error .loops
  | tries + 1, n =>
    if stop n then .error (.bail exhausted)
    else if n ∉ used then .ok n
    else searchFrom stop step exhausted used tries (saturatingAdd n step)

/-! ### Container subnets -/

/-- The size of a subnet, or one where the shift by its bits overflows. -/
def subnetStep (prefixLen : Nat) : Nat := if 32 - prefixLen < 32 then 2 ^ (32 - prefixLen) else 1

def subnetPool (pool : Ipv4Net) (prefixLen : Nat) (le : prefixLen ≤ 32) :
    Pool String Ipv4Net Ipv4Addr Warning CliError where
  valid net := !(net.prefixLen ≠ prefixLen || !pool.contains net.network)
  addr net := net.network
  make n := ⟨n, prefixLen, le⟩
  search used :=
    searchFrom (fun n => pool.broadcast < n) (subnetStep prefixLen)
      s!"pool {pool} is exhausted (no free /{prefixLen} subnets)" used (used.length + 1) pool.network
  bad host net := ⟨host, s!"existing subnet {net} is not a /{prefixLen} inside pool {pool}, reassigning"⟩
  taken host net := ⟨host, s!"duplicate subnet {net}, reassigning"⟩

def allocate (pool : Ipv4Net) (prefixLen : Nat) (existing : Dict String Ipv4Net) (hosts : List String) :
    Except CliError (Dict String Ipv4Net × List Warning) :=
  if h : prefixLen < pool.prefixLen ∨ 32 < prefixLen then
    .error (.bail s!"prefix /{prefixLen} is not valid inside pool {pool}")
  else
    match firstDuplicate hosts with
    | some host => .error (.bail s!"duplicate host in --nodes: {host}")
    | none => (subnetPool pool prefixLen (by omega)).assign hosts existing.sorted

/-! ### Management addresses -/

def mgmtPool (pool : Ipv4Net) : Pool String Ipv4Addr Ipv4Addr Warning CliError where
  valid ip := !(ip = pool.network || ip = pool.broadcast || !pool.contains ip)
  addr := id
  make := id
  search used :=
    searchFrom (fun n => pool.broadcast ≤ n) 1 s!"pool {pool} is exhausted (no free management IPs)" used
      (used.length + 1) (saturatingAdd pool.network 1)
  bad host ip :=
    let shown := ipv4ToString ip
    ⟨host, s!"existing mgmt IP {shown} is not usable inside pool {pool}, reassigning"⟩
  taken host ip :=
    let shown := ipv4ToString ip
    ⟨host, s!"duplicate mgmt IP {shown}, reassigning"⟩

def allocateMgmtIps (pool : Ipv4Net) (existing : Dict String Ipv4Addr) (hosts : List String) :
    Except CliError (Dict String Ipv4Addr × List Warning) :=
  match firstDuplicate hosts with
  | some host => .error (.bail s!"duplicate host in --nodes: {host}")
  | none => (mgmtPool pool).assign hosts existing.sorted

/-! ### Subnets of all namespaces -/

/-- The name under which the subnet of a namespace on a host is allocated. -/
def subnetKey (ns host : String) : String := s!"{ns}/{host}"

/-- The container subnets by namespace and host. -/
abbrev Subnets := Dict (String × String) Ipv4Net

/-- The namespaces with the hosts, in the order in which both are listed. -/
def subnetPairs (namespaces hosts : List String) : List (String × String) :=
  namespaces.flatMap fun ns => hosts.map fun h => (ns, h)

/-- The subnets in use under the names of `subnetKey`. -/
def flattenExisting (existing : String → Dict String Ipv4Net) (pairs : List (String × String)) : Dict String Ipv4Net :=
  Dict.collect (pairs.filterMap fun k => ((existing k.1).lookup k.2).map fun net => (subnetKey k.1 k.2, net))

def unflatten (flat : Dict String Ipv4Net) (pairs : List (String × String)) : Subnets :=
  Dict.collect (pairs.filterMap fun k => (flat.lookup (subnetKey k.1 k.2)).map fun net => (k, net))

/-- The subnets of all namespaces are allocated together.  `existing` gives the subnets in use by namespace. -/
def allocateNamespaced (pool : Ipv4Net) (prefixLen : Nat) (existing : String → Dict String Ipv4Net)
    (namespaces hosts : List String) : Except CliError (Subnets × List Warning) :=
  match firstDuplicate namespaces with
  | some ns => .error (.bail s!"duplicate namespace in --namespaces: {ns}")
  | none =>
    let pairs := subnetPairs namespaces hosts
    match allocate pool prefixLen (flattenExisting existing pairs) (pairs.map fun k => subnetKey k.1 k.2) with
    | .error e => .error e
    | .ok (flat, warnings) => .ok (unflatten flat pairs, warnings)

/-- The subnets of the tests of the allocator: kept ones, a gap that is filled, a duplicate that is reassigned. -/
example :
    (allocate ⟨0x0AD20000, 16, by decide⟩ 24
      (Dict.collect [("ha", ⟨0x0AD20000, 24, by decide⟩), ("hb", ⟨0x0AD20200, 24, by decide⟩),
        ("hc", ⟨0x0AD20000, 24, by decide⟩)]) ["ha", "hb", "hc"]).toOption.map
      (fun r => (r.1.sorted.map fun e => (e.1, toString e.2), r.2)) =
    some ([("ha", "10.210.0.0/24"), ("hb", "10.210.2.0/24"), ("hc", "10.210.1.0/24")],
      [⟨"hc", "duplicate subnet 10.210.0.0/24, reassigning"⟩]) := by decide

/-! ### What a search finds -/

theorem firstDuplicate_eq_none {α : Type} [DecidableEq α] {l : List α} : firstDuplicate l = none ↔ l.Nodup := by
  suffices h : ∀ seen, firstDuplicate.go seen l = none ↔ l.Nodup ∧ ∀ a ∈ l, a ∉ seen by
    simp [firstDuplicate, h []]
  induction l with
  | nil => simp [firstDuplicate.go]
  | cons a l ih =>
    intro seen
    unfold firstDuplicate.go
    by_cases ha : a ∈ seen
    · simp [ha]
    · rw [if_neg ha, ih, List.nodup_cons]
      constructor
      · rintro ⟨hnd, hall⟩
        refine ⟨⟨fun hal => hall a hal List.mem_cons_self, hnd⟩, ?_⟩
        rintro b (_ | ⟨_, hb⟩)
        · exact ha
        · exact fun hbs => hall b hb (List.mem_cons_of_mem _ hbs)
      · rintro ⟨⟨hal, hnd⟩, hall⟩
        refine ⟨hnd, fun b hb hbs => ?_⟩
        rcases List.mem_cons.1 hbs with rfl | hbs
        · exact hal hb
        · exact hall b (List.mem_cons_of_mem _ hb) hbs

theorem toNat_saturatingAdd (n : Ipv4Addr) (step : Nat) :
    (saturatingAdd n step).toNat = min (n.toNat + step) (2 ^ 32 - 1) := by
  unfold saturatingAdd
  rw [BitVec.toNat_ofNat, Nat.mod_eq_of_lt]
  omega

/-- A search finds a free address that is not beyond its end and not before its start. -/
private theorem searchFrom_spec {stop : Ipv4Addr → Bool} {step : Nat} {exhausted : String} {used : List Ipv4Addr}
    {tries : Nat}
    {n a : Ipv4Addr} (h : searchFrom stop step exhausted used tries n = .ok a) :
    stop a = false ∧ a ∉ used ∧ n.toNat ≤ a.toNat := by
  induction tries generalizing n with
  | zero => cases h
  | succ tries ih =>
    unfold searchFrom at h
    by_cases hstop : stop n = true
    · rw [if_pos hstop] at h
      cases h
    · rw [if_neg hstop] at h
      by_cases hused : n ∉ used
      · rw [if_pos hused] at h
        cases h
        exact ⟨by simpa using hstop, hused, le_rfl⟩
      · rw [if_neg hused] at h
        obtain ⟨h1, h2, h3⟩ := ih h
        refine ⟨h1, h2, ?_⟩
        rw [toNat_saturatingAdd] at h3
        have := n.isLt
        omega

/-- While an address of the row `base`, `base + step`, … is free and the row has not passed the end of the addresses, the
search finds an address of the row. -/
private theorem searchFrom_row {stop : Ipv4Addr → Bool} {step : Nat} {exhausted : String} {used : List Ipv4Addr}
    {tries : Nat}
    {base : Nat} {i j : Nat} {n a : Ipv4Addr} (hn : n.toNat = base + i * step) (hij : i ≤ j)
    (hj : base + j * step < 2 ^ 32) (hfree : BitVec.ofNat 32 (base + j * step) ∉ used)
    (h : searchFrom stop step exhausted used tries n = .ok a) : ∃ k, i ≤ k ∧ k ≤ j ∧ a.toNat = base + k * step := by
  induction tries generalizing i n with
  | zero => cases h
  | succ tries ih =>
    unfold searchFrom at h
    by_cases hstop : stop n = true
    · rw [if_pos hstop] at h
      cases h
    · rw [if_neg hstop] at h
      by_cases hused : n ∉ used
      · rw [if_pos hused] at h
        cases h
        exact ⟨i, le_rfl, hij, hn⟩
      · rw [if_neg hused] at h
        simp only [not_not] at hused
        -- a used address is not the free one, so the row goes on
        have hne : i ≠ j := by
          rintro rfl
          rw [← hn, BitVec.ofNat_toNat, BitVec.setWidth_eq] at hfree
          exact hfree hused
        have hle : (i + 1) * step ≤ j * step := Nat.mul_le_mul_right step (by omega)
        have hmul : (i + 1) * step = i * step + step := by rw [Nat.add_mul, Nat.one_mul]
        obtain ⟨k, hk, hkj, hka⟩ := ih (i := i + 1) (by rw [toNat_saturatingAdd]; omega) (by omega) h
        exact ⟨k, by omega, hkj, hka⟩

/-! ### Networks as ranges of numbers -/

namespace Ipv4Net

theorem size_pos (net : Ipv4Net) : 0 < net.size := Nat.two_pow_pos _

/-- A network starts at a multiple of its size and ends in the range of the addresses. -/
theorem toNat_network_broadcast (net : Ipv4Net) :
    net.network.toNat = net.addr.toNat / net.size * net.size ∧
      net.broadcast.toNat = net.network.toNat + (net.size - 1) := by
  have hpos := net.size_pos
  have hdvd : net.size ∣ 2 ^ 32 := Nat.pow_dvd_pow 2 (Nat.sub_le _ _)
  obtain ⟨q, hq⟩ := hdvd
  have hlt : net.addr.toNat / net.size < q := by
    rw [Nat.div_lt_iff_lt_mul hpos, Nat.mul_comm, ← hq]
    exact net.addr.isLt
  -- the next multiple of the size is still no larger than the number of addresses
  have hend : net.addr.toNat / net.size * net.size + net.size ≤ 2 ^ 32 := by
    rw [← Nat.succ_mul, hq, Nat.mul_comm net.size q]
    exact Nat.mul_le_mul_right _ hlt
  have hnet : net.network.toNat = net.addr.toNat / net.size * net.size := by
    unfold network
    rw [BitVec.toNat_ofNat, Nat.mod_eq_of_lt]
    omega
  refine ⟨hnet, ?_⟩
  rw [hnet]
  unfold broadcast
  rw [BitVec.toNat_ofNat, Nat.mod_eq_of_lt]
  omega

theorem contains_iff {net : Ipv4Net} {ip : Ipv4Addr} :
    net.contains ip = true ↔ net.network.toNat ≤ ip.toNat ∧ ip.toNat ≤ net.broadcast.toNat := by
  simp [contains, BitVec.le_def]

/-- Networks of one size with a common address are the same range. -/
theorem network_eq_of_contains {a b : Ipv4Net} {ip : Ipv4Addr} (hlen : a.prefixLen = b.prefixLen)
    (ha : a.contains ip = true) (hb : b.contains ip = true) : a.network = b.network := by
  have hstart : ∀ net : Ipv4Net, net.contains ip = true → net.network.toNat = ip.toNat / net.size * net.size := by
    intro net h
    rw [contains_iff] at h
    obtain ⟨hnet, hbroad⟩ := net.toNat_network_broadcast
    have hpos := net.size_pos
    rw [hnet] at h hbroad ⊢
    -- the address lies in the same block as the start of the network
    have hblock : ip.toNat / net.size = net.addr.toNat / net.size :=
      Nat.div_eq_of_lt_le h.1 (by rw [Nat.succ_mul]; omega)
    rw [hblock]
  have hsize : a.size = b.size := by rw [size, size, hlen]
  rw [← BitVec.toNat_inj, hstart a ha, hstart b hb, hsize]

/-- A network that starts in a larger one lies in it. -/
theorem contains_of_network {pool net : Ipv4Net} {ip : Ipv4Addr} (hlen : pool.prefixLen ≤ net.prefixLen)
    (hnet : pool.contains net.network = true) (hip : net.contains ip = true) : pool.contains ip = true := by
  rw [contains_iff] at hnet hip ⊢
  obtain ⟨hstart, hend⟩ := net.toNat_network_broadcast
  obtain ⟨hpool, hlast⟩ := pool.toNat_network_broadcast
  have hsize : pool.size = 2 ^ (net.prefixLen - pool.prefixLen) * net.size := by
    rw [size, size, ← Nat.pow_add]
    have := net.le
    congr 1
    omega
  -- the pool ends at a multiple of the size of the network
  have hlt : net.addr.toNat / net.size <
      (pool.addr.toNat / pool.size + 1) * 2 ^ (net.prefixLen - pool.prefixLen) := by
    have hpos := pool.size_pos
    have hbelow : net.addr.toNat / net.size * net.size < (pool.addr.toNat / pool.size + 1) * pool.size := by
      rw [Nat.succ_mul]
      omega
    rw [hsize, ← Nat.mul_assoc, ← hsize] at hbelow
    exact Nat.lt_of_mul_lt_mul_right hbelow
  have hle := Nat.mul_le_mul_right net.size hlt
  rw [Nat.mul_assoc, ← hsize, Nat.succ_mul, Nat.succ_mul] at hle
  have := net.size_pos
  omega

theorem contains_host {ip ip' : Ipv4Addr} : (⟨ip, 32, le_rfl⟩ : Ipv4Net).contains ip' = true ↔ ip' = ip := by
  obtain ⟨hnet, hbroad⟩ := (⟨ip, 32, le_rfl⟩ : Ipv4Net).toNat_network_broadcast
  rw [contains_iff, hbroad, hnet, ← BitVec.toNat_inj]
  simp only [size, Nat.sub_self, Nat.pow_zero, Nat.div_one, Nat.mul_one]
  omega

end Ipv4Net

/-! ### The management addresses of a mesh -/

theorem valid_mgmtPool_iff {pool : Ipv4Net} {ip : Ipv4Addr} :
    (mgmtPool pool).valid ip = true ↔
      pool.network.toNat < ip.toNat ∧ ip.toNat < pool.broadcast.toNat := by
  have h : ∀ a b : Ipv4Addr, a = b ↔ a.toNat = b.toNat := fun a b => BitVec.toNat_inj.symm
  simp only [mgmtPool, Bool.not_eq_true', Bool.or_eq_false_iff, decide_eq_false_iff_not, Bool.not_eq_false',
    Ipv4Net.contains_iff, h]
  omega

theorem finds_mgmtPool (pool : Ipv4Net) (bound : Nat) : (mgmtPool pool).Finds bound := by
  intro used a _ hs
  obtain ⟨hstop, hfree, hle⟩ := searchFrom_spec hs
  refine ⟨hfree, rfl, valid_mgmtPool_iff.2 ?_⟩
  rw [toNat_saturatingAdd] at hle
  have hlt : a.toNat < pool.broadcast.toNat := by simpa [BitVec.le_def] using hstop
  have := pool.broadcast.isLt
  change pool.network.toNat < a.toNat ∧ a.toNat < pool.broadcast.toNat
  omega

theorem allocateMgmtIps_eq_ok {pool : Ipv4Net} {existing : Dict String Ipv4Addr} {hosts : List String}
    {r : Dict String Ipv4Addr × List Warning} :
    allocateMgmtIps pool existing hosts = .ok r ↔
      hosts.Nodup ∧ (mgmtPool pool).assign hosts existing.sorted = .ok r := by
  unfold allocateMgmtIps
  cases hd : firstDuplicate hosts with
  | none => simp [firstDuplicate_eq_none.1 hd]
  | some h =>
    have hnd : ¬ hosts.Nodup := fun hnd => by rw [firstDuplicate_eq_none.2 hnd] at hd; cases hd
    simp [hnd]

/-- The addresses depend on those in use only. -/
theorem allocateMgmtIps_congr {existing existing' : Dict String Ipv4Addr} (pool : Ipv4Net) (hosts : List String)
    (h : ∀ k, existing.lookup k = existing'.lookup k) :
    allocateMgmtIps pool existing hosts = allocateMgmtIps pool existing' hosts := by
  unfold allocateMgmtIps
  rw [Dict.sorted_congr h]

section Mgmt

variable {pool : Ipv4Net} {existing m : Dict String Ipv4Addr} {hosts : List String} {w : List Warning}

theorem isSome_lookup_mgmt (h : allocateMgmtIps pool existing hosts = .ok (m, w)) (k : String) :
    (m.lookup k).isSome ↔ k ∈ hosts :=
  (mgmtPool pool).isSome_lookup_assign existing.nodup_map_fst_sorted (allocateMgmtIps_eq_ok.1 h).2 k

/-- The addresses lie strictly inside the pool and are distinct. -/
theorem mgmt_ok (h : allocateMgmtIps pool existing hosts = .ok (m, w)) :
    (∀ k ip, m.lookup k = some ip → pool.network.toNat < ip.toNat ∧ ip.toNat < pool.broadcast.toNat) ∧
      ∀ k k' ip, m.lookup k = some ip → m.lookup k' = some ip → k = k' := by
  obtain ⟨hvalid, hinj⟩ := (mgmtPool pool).assign_ok (finds_mgmtPool pool _) existing.nodup_map_fst_sorted
    (allocateMgmtIps_eq_ok.1 h).2
  exact ⟨fun k ip hk => valid_mgmtPool_iff.1 (hvalid k ip hk), fun k k' ip hk hk' => hinj k k' ip ip hk hk' rfl⟩

/-- A host keeps a usable address that no other host of the mesh has. -/
theorem mgmt_keeps (h : allocateMgmtIps pool existing hosts = .ok (m, w)) {k : String} {ip : Ipv4Addr} (hk : k ∈ hosts)
    (hip : existing.lookup k = some ip)
    (hlt : pool.network.toNat < ip.toNat) (hlt' : ip.toNat < pool.broadcast.toNat)
    (huniq : ∀ k' ∈ hosts, existing.lookup k' = some ip → k' = k) : m.lookup k = some ip := by
  refine (mgmtPool pool).assign_keeps_of_unique existing.nodup_map_fst_sorted (allocateMgmtIps_eq_ok.1 h).2 hk
    (Dict.mem_sorted.2 hip) (valid_mgmtPool_iff.2 ⟨hlt, hlt'⟩) ?_
  rintro ⟨k', ip'⟩ hmem hk' - rfl
  exact huniq k' hk' (Dict.mem_sorted.1 hmem)

/-- A complete assignment of usable distinct addresses is kept as it is. -/
theorem mgmt_stable {existing' : Dict String Ipv4Addr} (h : allocateMgmtIps pool existing hosts = .ok (m, w))
    (heq : ∀ k ∈ hosts, existing'.lookup k = m.lookup k) :
    ∃ m', allocateMgmtIps pool existing' hosts = .ok (m', []) ∧ ∀ k, m'.lookup k = m.lookup k := by
  obtain ⟨hin, hinj⟩ := mgmt_ok h
  have haddr : ∀ k k' ip ip', m.lookup k = some ip → m.lookup k' = some ip' →
      (mgmtPool pool).addr ip = (mgmtPool pool).addr ip' → k = k' := by
    rintro k k' ip _ hk hk' rfl
    exact hinj k k' ip hk hk'
  obtain ⟨m', hassign, hm'⟩ := (mgmtPool pool).assign_stable existing'.nodup_map_fst_sorted (isSome_lookup_mgmt h)
    (fun k ip hk => valid_mgmtPool_iff.2 (hin k ip hk)) haddr (fun k hk ip => by rw [Dict.mem_sorted, heq k hk])
  exact ⟨m', allocateMgmtIps_eq_ok.2 ⟨(allocateMgmtIps_eq_ok.1 h).1, hassign⟩, hm'⟩

end Mgmt

/-! ### The container subnets of a mesh -/

theorem allocate_eq_ok {pool : Ipv4Net} {prefixLen : Nat} {existing : Dict String Ipv4Net} {hosts : List String}
    {r : Dict String Ipv4Net × List Warning} :
    allocate pool prefixLen existing hosts = .ok r ↔
      ∃ le : prefixLen ≤ 32, pool.prefixLen ≤ prefixLen ∧ hosts.Nodup ∧
        (subnetPool pool prefixLen le).assign hosts existing.sorted = .ok r := by
  unfold allocate
  by_cases h : prefixLen < pool.prefixLen ∨ 32 < prefixLen
  · rw [dif_pos h]
    constructor
    · intro hr
      cases hr
    · rintro ⟨h₁, h₂, -⟩
      omega
  · rw [dif_neg h]
    have hle : prefixLen ≤ 32 ∧ pool.prefixLen ≤ prefixLen := by omega
    cases hd : firstDuplicate hosts with
    | none => simp [firstDuplicate_eq_none.1 hd, hle]
    | some h =>
      have hnd : ¬ hosts.Nodup := fun hnd => by rw [firstDuplicate_eq_none.2 hnd] at hd; cases hd
      simp [hnd]

/-- Fewer addresses than a row has cannot cover the row. -/
theorem exists_free {base step count : Nat} {used : List Ipv4Addr} (hstep : 0 < step)
    (hend : ∀ i < count, base + i * step < 2 ^ 32) (hlen : used.length < count) :
    ∃ j < count, BitVec.ofNat 32 (base + j * step) ∉ used := by
  by_contra hno
  push Not at hno
  have hnd : ((List.range count).map fun i => BitVec.ofNat 32 (base + i * step)).Nodup := by
    refine List.Nodup.map_on ?_ List.nodup_range
    intro i hi i' hi' heq
    have h1 := hend i (List.mem_range.1 hi)
    have h2 := hend i' (List.mem_range.1 hi')
    have := congrArg BitVec.toNat heq
    rw [BitVec.toNat_ofNat, BitVec.toNat_ofNat, Nat.mod_eq_of_lt h1, Nat.mod_eq_of_lt h2] at this
    exact Nat.eq_of_mul_eq_mul_right hstep (by omega)
  have hsub : ((List.range count).map fun i => BitVec.ofNat 32 (base + i * step)) ⊆ used := by
    intro x hx
    obtain ⟨i, hi, rfl⟩ := List.mem_map.1 hx
    exact hno i (List.mem_range.1 hi)
  have hle := (List.subperm_of_subset hnd hsub).length_le
  rw [List.length_map, List.length_range] at hle
  omega

/-- A pool is a row of aligned subnets. -/
theorem pool_row (pool : Ipv4Net) {prefixLen : Nat} (le : prefixLen ≤ 32) (hpool : pool.prefixLen ≤ prefixLen) :
    pool.size = 2 ^ (prefixLen - pool.prefixLen) * 2 ^ (32 - prefixLen) ∧
      ∀ i < 2 ^ (prefixLen - pool.prefixLen), i * subnetStep prefixLen = i * 2 ^ (32 - prefixLen) ∧
        i * 2 ^ (32 - prefixLen) + 2 ^ (32 - prefixLen) ≤ pool.size := by
  have hsize : pool.size = 2 ^ (prefixLen - pool.prefixLen) * 2 ^ (32 - prefixLen) := by
    rw [Ipv4Net.size, ← Nat.pow_add]
    congr 1
    omega
  refine ⟨hsize, fun i hi => ⟨?_, ?_⟩⟩
  · unfold subnetStep
    split
    · rfl
    · -- a prefix of length zero leaves room for one subnet only
      have hz : prefixLen - pool.prefixLen = 0 := by omega
      rw [hz, Nat.pow_zero] at hi
      rw [show i = 0 by omega, Nat.zero_mul, Nat.zero_mul]
  · rw [hsize, ← Nat.succ_mul]
    exact Nat.mul_le_mul_right _ hi

theorem subnetStep_pos (prefixLen : Nat) : 0 < subnetStep prefixLen := by
  unfold subnetStep
  split
  · exact Nat.two_pow_pos _
  · exact Nat.one_pos

/-- An address of the row is the network address of a subnet of the pool. -/
private theorem subnet_of_row {pool : Ipv4Net} {prefixLen k : Nat} (le : prefixLen ≤ 32)
    (hpool : pool.prefixLen ≤ prefixLen) (hk : k < 2 ^ (prefixLen - pool.prefixLen)) {a : Ipv4Addr}
    (ha : a.toNat = pool.network.toNat + k * subnetStep prefixLen) :
    (⟨a, prefixLen, le⟩ : Ipv4Net).network = a ∧ (subnetPool pool prefixLen le).valid ⟨a, prefixLen, le⟩ = true := by
  obtain ⟨hnet, hbroad⟩ := pool.toNat_network_broadcast
  obtain ⟨hsize, hrow⟩ := pool_row pool le hpool
  have hpos : 0 < 2 ^ (32 - prefixLen) := Nat.two_pow_pos _
  obtain ⟨hmul, hle⟩ := hrow k hk
  rw [hmul] at ha
  have haddr : (⟨a, prefixLen, le⟩ : Ipv4Net).network = a := by
    rw [← BitVec.toNat_inj, (Ipv4Net.toNat_network_broadcast _).1]
    change a.toNat / 2 ^ (32 - prefixLen) * 2 ^ (32 - prefixLen) = a.toNat
    refine Nat.div_mul_cancel ?_
    rw [ha, hnet, hsize]
    exact Nat.dvd_add (Nat.dvd_trans (Nat.dvd_mul_left _ _) (Nat.dvd_mul_left _ _)) (Nat.dvd_mul_left _ _)
  have hin : pool.contains a = true := Ipv4Net.contains_iff.2 (by omega)
  have hvalid : (subnetPool pool prefixLen le).valid ⟨a, prefixLen, le⟩ = pool.contains a := by
    simp [subnetPool, haddr]
  exact ⟨haddr, hvalid.trans hin⟩

/-- With at most as many names as there are aligned subnets in the pool, a new subnet is an aligned one of the pool. -/
theorem finds_subnetPool {pool : Ipv4Net} {prefixLen bound : Nat} (le : prefixLen ≤ 32)
    (hpool : pool.prefixLen ≤ prefixLen) (hbound : bound ≤ 2 ^ (prefixLen - pool.prefixLen)) :
    (subnetPool pool prefixLen le).Finds bound := by
  intro used a hlen hs
  obtain ⟨hnet, hbroad⟩ := pool.toNat_network_broadcast
  obtain ⟨hsize, hrow⟩ := pool_row pool le hpool
  have hlast := pool.broadcast.isLt
  have hpos : 0 < 2 ^ (32 - prefixLen) := Nat.two_pow_pos _
  have hend : ∀ i < 2 ^ (prefixLen - pool.prefixLen), pool.network.toNat + i * subnetStep prefixLen < 2 ^ 32 := by
    intro i hi
    obtain ⟨hmul, hle⟩ := hrow i hi
    omega
  obtain ⟨j, hj, hjfree⟩ := exists_free (subnetStep_pos prefixLen) hend (Nat.lt_of_lt_of_le hlen hbound)
  obtain ⟨k, -, hkj, ha⟩ := searchFrom_row (i := 0) (by omega) (Nat.zero_le j) (hend j hj) hjfree hs
  obtain ⟨haddr, hvalid⟩ := subnet_of_row le hpool (Nat.lt_of_le_of_lt hkj hj) ha
  exact ⟨(searchFrom_spec hs).2.1, haddr, hvalid⟩

/-- Where the row is known to end before the addresses do, the search finds an address of the row. -/
private theorem searchFrom_row_end {stop : Ipv4Addr → Bool} {step count : Nat} {exhausted : String}
    {used : List Ipv4Addr} {tries : Nat} {base : Nat} {i : Nat} {n a : Ipv4Addr} (hn : n.toNat = base + i * step)
    (hi : i ≤ count) (hend : base + count * step < 2 ^ 32) (hstop : stop (BitVec.ofNat 32 (base + count * step)) = true)
    (h : searchFrom stop step exhausted used tries n = .ok a) : ∃ k < count, a.toNat = base + k * step := by
  induction tries generalizing i n with
  | zero => cases h
  | succ tries ih =>
    have hlt : i < count := by
      refine Nat.lt_of_le_of_ne hi ?_
      rintro rfl
      rw [← hn, BitVec.ofNat_toNat, BitVec.setWidth_eq] at hstop
      rw [searchFrom, if_pos hstop] at h
      cases h
    unfold searchFrom at h
    by_cases hs : stop n = true
    · rw [if_pos hs] at h
      cases h
    · rw [if_neg hs] at h
      by_cases hused : n ∉ used
      · rw [if_pos hused] at h
        cases h
        exact ⟨i, hlt, hn⟩
      · rw [if_neg hused] at h
        have hle : (i + 1) * step ≤ count * step := Nat.mul_le_mul_right step hlt
        have hmul : (i + 1) * step = i * step + step := by rw [Nat.add_mul, Nat.one_mul]
        exact ih (i := i + 1) (by rw [toNat_saturatingAdd]; omega) hlt h

/-- A new subnet is an aligned one of the pool also where there may be more names than subnets, if the pool ends before
the addresses do. -/
theorem finds_subnetPool_of_lt {pool : Ipv4Net} {prefixLen bound : Nat} (le : prefixLen ≤ 32)
    (hpool : pool.prefixLen ≤ prefixLen) (hlt : pool.broadcast.toNat < 2 ^ 32 - 1) :
    (subnetPool pool prefixLen le).Finds bound := by
  intro used a _ hs
  obtain ⟨hnet, hbroad⟩ := pool.toNat_network_broadcast
  obtain ⟨hsize, -⟩ := pool_row pool le hpool
  have hsizepos := pool.size_pos
  -- a subnet of all addresses would be a pool of all addresses
  have hne : prefixLen ≠ 0 := by
    rintro rfl
    have hall : pool.size = 2 ^ 32 := by rw [Ipv4Net.size, Nat.le_zero.1 hpool]
    omega
  have hstep : subnetStep prefixLen = 2 ^ (32 - prefixLen) := if_pos (by omega)
  have hend : pool.network.toNat + 2 ^ (prefixLen - pool.prefixLen) * subnetStep prefixLen =
      pool.broadcast.toNat + 1 := by
    rw [hstep, ← hsize]
    omega
  have hstop : decide (pool.broadcast < BitVec.ofNat 32 (pool.network.toNat +
      2 ^ (prefixLen - pool.prefixLen) * subnetStep prefixLen)) = true := by
    rw [hend, decide_eq_true_eq, BitVec.lt_def, BitVec.toNat_ofNat, Nat.mod_eq_of_lt (by omega)]
    omega
  obtain ⟨k, hk, ha⟩ := searchFrom_row_end (i := 0) (by omega) (Nat.zero_le _) (by omega) hstop hs
  obtain ⟨haddr, hvalid⟩ := subnet_of_row le hpool hk ha
  exact ⟨(searchFrom_spec hs).2.1, haddr, hvalid⟩

section Allocate

variable {pool : Ipv4Net} {prefixLen : Nat} {existing m : Dict String Ipv4Net} {hosts : List String} {w : List Warning}

private theorem isSome_lookup_allocate (h : allocate pool prefixLen existing hosts = .ok (m, w)) (k : String) :
    (m.lookup k).isSome ↔ k ∈ hosts := by
  obtain ⟨le, -, -, hassign⟩ := allocate_eq_ok.1 h
  exact (subnetPool pool prefixLen le).isSome_lookup_assign existing.nodup_map_fst_sorted hassign k

/-- What the search finds is right where the pool ends before the addresses do, or has room for all names. -/
private theorem finds_subnetPool_of_fits {pool : Ipv4Net} {prefixLen bound : Nat} (le : prefixLen ≤ 32)
    (hpool : pool.prefixLen ≤ prefixLen)
    (hfit : pool.broadcast.toNat < 2 ^ 32 - 1 ∨ bound ≤ 2 ^ (prefixLen - pool.prefixLen)) :
    (subnetPool pool prefixLen le).Finds bound :=
  hfit.elim (finds_subnetPool_of_lt le hpool) (finds_subnetPool le hpool)

/-- Where the subnets fit into the pool, a complete assignment is kept as it is. -/
private theorem allocate_stable {existing' : Dict String Ipv4Net}
    (h : allocate pool prefixLen existing hosts = .ok (m, w))
    (hfit : pool.broadcast.toNat < 2 ^ 32 - 1 ∨ hosts.length ≤ 2 ^ (prefixLen - pool.prefixLen))
    (heq : ∀ k ∈ hosts, existing'.lookup k = m.lookup k) :
    ∃ m', allocate pool prefixLen existing' hosts = .ok (m', []) ∧ ∀ k, m'.lookup k = m.lookup k := by
  obtain ⟨le, hpool, hnd, hassign⟩ := allocate_eq_ok.1 h
  obtain ⟨hvalid, hinj⟩ := (subnetPool pool prefixLen le).assign_ok (finds_subnetPool_of_fits le hpool hfit)
    existing.nodup_map_fst_sorted hassign
  obtain ⟨m', hassign', hm'⟩ := (subnetPool pool prefixLen le).assign_stable existing'.nodup_map_fst_sorted
    (isSome_lookup_allocate h) hvalid hinj (fun k hk net => by rw [Dict.mem_sorted, heq k hk])
  exact ⟨m', allocate_eq_ok.2 ⟨le, hpool, hnd, hassign'⟩, hm'⟩

end Allocate

section Namespaced

variable {pool : Ipv4Net} {prefixLen : Nat} {existing : String → Dict String Ipv4Net} {namespaces hosts : List String}
  {m : Subnets} {w : List Warning}

theorem mem_subnetPairs {k : String × String} : k ∈ subnetPairs namespaces hosts ↔ k.1 ∈ namespaces ∧ k.2 ∈ hosts := by
  obtain ⟨ns, h⟩ := k
  simp [subnetPairs]

private theorem length_subnetPairs : (subnetPairs namespaces hosts).length = namespaces.length * hosts.length := by
  induction namespaces with
  | nil => simp [subnetPairs]
  | cons ns l ih =>
    unfold subnetPairs at ih ⊢
    rw [List.flatMap_cons, List.length_append, List.length_map, ih, List.length_cons, Nat.succ_mul, Nat.add_comm]

theorem allocateNamespaced_eq_ok :
    allocateNamespaced pool prefixLen existing namespaces hosts = .ok (m, w) ↔
      namespaces.Nodup ∧ ∃ flat, allocate pool prefixLen (flattenExisting existing (subnetPairs namespaces hosts))
          ((subnetPairs namespaces hosts).map fun k => subnetKey k.1 k.2) = .ok (flat, w) ∧
        unflatten flat (subnetPairs namespaces hosts) = m := by
  unfold allocateNamespaced
  cases hd : firstDuplicate namespaces with
  | some ns =>
    have hnd : ¬ namespaces.Nodup := fun hnd => by rw [firstDuplicate_eq_none.2 hnd] at hd; cases hd
    simp [hnd]
  | none =>
    cases hf : allocate pool prefixLen (flattenExisting existing (subnetPairs namespaces hosts))
        ((subnetPairs namespaces hosts).map fun k => subnetKey k.1 k.2) with
    | error e => simp [hf]
    | ok r =>
      obtain ⟨flat, w'⟩ := r
      simp only [hf, firstDuplicate_eq_none.1 hd, true_and, Except.ok.injEq, Prod.mk.injEq]
      constructor
      · rintro ⟨rfl, rfl⟩
        exact ⟨flat, ⟨rfl, rfl⟩, rfl⟩
      · rintro ⟨_, ⟨rfl, rfl⟩, rfl⟩
        exact ⟨rfl, rfl⟩

theorem allocateNamespaced_congr {existing existing' : String → Dict String Ipv4Net} (pool : Ipv4Net) (prefixLen : Nat)
    (namespaces hosts : List String)
    (h : ∀ ns ∈ namespaces, ∀ host ∈ hosts, (existing ns).lookup host = (existing' ns).lookup host) :
    allocateNamespaced pool prefixLen existing namespaces hosts =
      allocateNamespaced pool prefixLen existing' namespaces hosts := by
  have hflat : flattenExisting existing (subnetPairs namespaces hosts) =
      flattenExisting existing' (subnetPairs namespaces hosts) := by
    unfold flattenExisting
    congr 1
    refine List.filterMap_congr fun k hk => ?_
    obtain ⟨hns, hhost⟩ := mem_subnetPairs.1 hk
    rw [h k.1 hns k.2 hhost]
  unfold allocateNamespaced
  dsimp only
  rw [hflat]

/-- The subnet of a namespace on a host is the one allocated under its name. -/
theorem lookup_unflatten {flat : Dict String Ipv4Net} {pairs : List (String × String)}
    (hnd : (pairs.map fun k => subnetKey k.1 k.2).Nodup) {k : String × String} (hk : k ∈ pairs) :
    (unflatten flat pairs).lookup k = flat.lookup (subnetKey k.1 k.2) := by
  have hpairs : (pairs.map id).Nodup := by
    rw [List.map_id]
    exact List.Nodup.of_map _ hnd
  exact Dict.lookup_collect_filterMap hpairs hk

/-- The namespaces and hosts of the lists have a subnet, and no others. -/
theorem isSome_lookup_subnets (h : allocateNamespaced pool prefixLen existing namespaces hosts = .ok (m, w))
    (k : String × String) : (m.lookup k).isSome ↔ k.1 ∈ namespaces ∧ k.2 ∈ hosts := by
  obtain ⟨-, flat, hflat, rfl⟩ := allocateNamespaced_eq_ok.1 h
  obtain ⟨-, -, hnd, -⟩ := allocate_eq_ok.1 hflat
  rw [← mem_subnetPairs]
  by_cases hk : k ∈ subnetPairs namespaces hosts
  · rw [lookup_unflatten hnd hk, isSome_lookup_allocate hflat]
    simp only [hk, iff_true]
    exact List.mem_map_of_mem hk
  · have hnone : (unflatten flat (subnetPairs namespaces hosts)).lookup k = none :=
      Dict.lookup_collect_filterMap_eq_none (g := id) (by rw [List.map_id]; exact hk)
    simp [hnone, hk]

/-- The subnets are of the wanted size, lie in the pool, and start at different addresses, unless the pool reaches the
last address there is and has fewer subnets than are asked for. -/
theorem subnets_ok (h : allocateNamespaced pool prefixLen existing namespaces hosts = .ok (m, w))
    (hfit : pool.broadcast.toNat < 2 ^ 32 - 1 ∨
      namespaces.length * hosts.length ≤ 2 ^ (prefixLen - pool.prefixLen)) :
    pool.prefixLen ≤ prefixLen ∧
      (∀ k net, m.lookup k = some net → net.prefixLen = prefixLen ∧ pool.contains net.network = true) ∧
      ∀ k k' net net', m.lookup k = some net → m.lookup k' = some net' → net.network = net'.network → k = k' := by
  obtain ⟨-, flat, hflat, rfl⟩ := allocateNamespaced_eq_ok.1 h
  obtain ⟨le, hpool, hnd, hassign⟩ := allocate_eq_ok.1 hflat
  obtain ⟨hvalid, hinj⟩ := (subnetPool pool prefixLen le).assign_ok
    (finds_subnetPool_of_fits le hpool (by rw [List.length_map, length_subnetPairs]; exact hfit))
    (Dict.nodup_map_fst_sorted _) hassign
  have hmem : ∀ k net, (unflatten flat (subnetPairs namespaces hosts)).lookup k = some net →
      k ∈ subnetPairs namespaces hosts ∧ flat.lookup (subnetKey k.1 k.2) = some net := by
    intro k net hk
    have hpair : k ∈ subnetPairs namespaces hosts := by
      rw [mem_subnetPairs, ← isSome_lookup_subnets h, hk]
      rfl
    exact ⟨hpair, (lookup_unflatten hnd hpair).symm.trans hk⟩
  refine ⟨hpool, fun k net hk => ?_, fun k k' net net' hk hk' heq => ?_⟩
  · simpa [subnetPool] using hvalid _ net (hmem k net hk).2
  · obtain ⟨hpair, hkey⟩ := hmem k net hk
    obtain ⟨hpair', hkey'⟩ := hmem k' net' hk'
    exact List.inj_on_of_nodup_map hnd hpair hpair' (hinj _ _ net net' hkey hkey' heq)

/-- Where the subnets fit into the pool, a complete assignment is kept as it is. -/
theorem subnets_stable {existing' : String → Dict String Ipv4Net}
    (h : allocateNamespaced pool prefixLen existing namespaces hosts = .ok (m, w))
    (hfit : pool.broadcast.toNat < 2 ^ 32 - 1 ∨
      namespaces.length * hosts.length ≤ 2 ^ (prefixLen - pool.prefixLen))
    (heq : ∀ ns ∈ namespaces, ∀ host ∈ hosts, (existing' ns).lookup host = m.lookup (ns, host)) :
    ∃ m', allocateNamespaced pool prefixLen existing' namespaces hosts = .ok (m', []) ∧
      ∀ k, m'.lookup k = m.lookup k := by
  obtain ⟨hns, flat, hflat, rfl⟩ := allocateNamespaced_eq_ok.1 h
  obtain ⟨-, -, hnd, -⟩ := allocate_eq_ok.1 hflat
  have hsame : ∀ key ∈ (subnetPairs namespaces hosts).map fun k => subnetKey k.1 k.2,
      (flattenExisting existing' (subnetPairs namespaces hosts)).lookup key = flat.lookup key := by
    intro key hkey
    obtain ⟨k, hk, rfl⟩ := List.mem_map.1 hkey
    have hmem := mem_subnetPairs.1 hk
    refine Eq.trans ?_ ((heq k.1 hmem.1 k.2 hmem.2).trans (lookup_unflatten hnd hk))
    exact Dict.lookup_collect_filterMap (g := fun k => subnetKey k.1 k.2) hnd hk
  obtain ⟨flat', hflat', hf'⟩ := allocate_stable hflat
    (by rw [List.length_map, length_subnetPairs]; exact hfit) hsame
  refine ⟨_, allocateNamespaced_eq_ok.2 ⟨hns, flat', hflat', rfl⟩, fun k => ?_⟩
  unfold unflatten
  simp only [hf']

end Namespaced

end Coold.Cli
