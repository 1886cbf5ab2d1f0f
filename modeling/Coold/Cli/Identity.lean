import Coold.Cli.Runs

/-!
# The identity of a host

A host is known by its keypair and its management address.  The keys are generated on the hosts whose first probe did
not report them, so a host with keys whose probe failed gets new ones (`keypair_lost`); they are kept exactly if every
host with a keypair has said so (`identity_kept`).  The address is allocated from the second probe, and one that is
usable and not a duplicate stays.
-/

namespace Coold.Cli

/-- The address of the host is one of the pool and of no other host of the mesh. -/
def OwnIp (d : DesiredMesh) (w : World) (host : String) (ip : Ipv4Addr) : Prop :=
  configuredIp w host = some ip ∧ (mgmtPool d.mgmtPool).valid ip = true ∧
    ∀ p ∈ d.hosts, configuredIp w p = some ip → p = host

/-- Keys are generated only where there are none, and no host gets another address than its own. -/
structure IdentityKept (d : DesiredMesh) (w : World) (log : Log) : Prop where
  keys : ∀ host s, (host, s) ∈ log → s.cmd = .genkey → (w host).hasKeypair = false
  address : ∀ host s, (host, s) ∈ log → ∀ iface ip port peers, s.cmd = .writeConfig iface ip port peers →
    ∀ own, OwnIp d w host own → ip = own

section Address

variable {sha256Hex : List UInt8 → String} {d : DesiredMesh} {keygen : String → String × String} {w : World}

/-- An own address is allocated again. -/
private theorem ip_of_ownIp {current : MeshState} {env : Env} {planned : Plan} {log₁ : Log}
    {mgmt : Dict String Ipv4Addr}
    {subnets : Subnets} (henv : env.Accurate sha256Hex d keygen w)
    (hr : Reached sha256Hex d current env planned log₁ mgmt subnets) {host : String} (hhost : host ∈ d.hosts)
    {own : Ipv4Addr} (hown : OwnIp d w host own) : mgmtOf mgmt host = own := by
  obtain ⟨hip, hvalid, huniq⟩ := hown
  obtain ⟨warnings, hmgmt⟩ := hr.mgmt
  have hassigned : ∀ p ∈ d.hosts, (env.reprobe log₁).assignedMgmtIps.lookup p = configuredIp w p := by
    intro p hp
    rw [henv log₁, assigned_probeMesh hp, configuredIp_execLog hr.phase_eq_one]
  obtain ⟨hlow, hhigh⟩ := valid_mgmtPool_iff.1 hvalid
  have hkept : mgmt.lookup host = some own := by
    refine mgmt_keeps hmgmt hhost (by rw [hassigned host hhost, hip]) hlow hhigh fun p hp heq => huniq p hp ?_
    rwa [hassigned p hp] at heq
  rw [mgmtOf, hkept, Option.getD_some]

end Address

section Keys

variable {sha256Hex : List UInt8 → String} {d : DesiredMesh} {current : MeshState} {planned : Plan} {host : String}
  {s : Step}

theorem genkey_mem_phase1 (hs : s ∈ phase1 d planned host current) (hcmd : s.cmd = .genkey) :
    (current.server host).keysExist = false ∧ shouldRun planned host .genKeyPair "" = true := by
  simp only [phase1, List.mem_append, mem_stepIf, Bool.and_eq_true, List.mem_ite_nil_right, Bool.not_eq_true'] at hs
  rcases hs with (⟨-, rfl⟩ | ⟨h, rfl⟩) | ⟨-, (⟨-, rfl⟩ | ⟨-, rfl⟩) | ⟨-, rfl⟩⟩
  case inl.inr => exact h
  all_goals cases hcmd

/-- An upgrade generates no keys. -/
private theorem ne_upgrade_of_genkey (hplan : buildPlan sha256Hex d current = .ok planned)
    (hs : s.Planned planned host) (hcmd : s.cmd = .genkey) : d.intent ≠ .upgrade := by
  intro hup
  unfold Step.Planned at hs
  rw [hcmd] at hs
  obtain ⟨a, ha, -, htype, -⟩ := shouldRun_iff.1 hs
  have hpass := ((isPlan_of_buildPlan hplan).mem_actions.1 ha).2.2
  change a.actionType = .genKeyPair at htype
  simp [decideAction, hup, categorize, htype] at hpass

/-- With another intent they are generated wherever they are not reported. -/
theorem genkey_of_not_reported (hplan : buildPlan sha256Hex d current = .ok planned) (hintent : d.intent ≠ .upgrade)
    (hhost : host ∈ d.hosts) (hkeys : (current.server host).keysExist = false) :
    (⟨.genKeyPair, "", .genkey⟩ : Step) ∈ phase1 d planned host current := by
  have hrun : shouldRun planned host .genKeyPair "" = true := by
    rw [(isPlan_of_buildPlan hplan).shouldRun_eq_hostTest hhost, hostTest, hkeys, dropsType]
    cases hi : d.intent with
    | bootstrap => rfl
    | extend => simp [extensionDrops]
    | upgrade => exact absurd hi hintent
  simp [phase1, mem_stepIf, hkeys, hrun]

end Keys

/-- A host whose keys are on its disk keeps them in every run with these answers to the first probe, and every host its
own address, if and only if there is no plan, or it is an upgrade, or every host with keys has answered that it has. -/
theorem identity_kept (sha256Hex : List UInt8 → String) (d : DesiredMesh) (keygen : String → String × String) (w : World)
    (answer : String → Option ServerState) :
    (∀ env : Env, env.Accurate sha256Hex d keygen w →
        IdentityKept d w (applyMesh sha256Hex d (reconstruct d.hosts answer) env).log) ↔
      (∃ err, buildPlan sha256Hex d (reconstruct d.hosts answer) = .error err) ∨ d.intent = .upgrade ∨
        ∀ host ∈ d.hosts, (w host).hasKeypair = true → (answer host).any ServerState.keysExist = true := by
  have hserver : ∀ host ∈ d.hosts,
      ((reconstruct d.hosts answer).server host).keysExist = (answer host).any ServerState.keysExist := by
    intro host hhost
    rw [MeshState.server, lookup_reconstruct, if_pos hhost]
    cases answer host <;> rfl
  constructor
  · intro hkept
    by_contra hno
    push Not at hno
    obtain ⟨hplan, hintent, host, hhost, hdisk, hansw⟩ := hno
    obtain ⟨planned, hplan⟩ : ∃ planned, buildPlan sha256Hex d (reconstruct d.hosts answer) = .ok planned := by
      cases h : buildPlan sha256Hex d (reconstruct d.hosts answer) with
      | error err => exact absurd h (hplan err)
      | ok planned => exact ⟨planned, rfl⟩
    -- with no failing command the keys are generated
    have hkeys : ((reconstruct d.hosts answer).server host).keysExist = false := by
      rw [hserver host hhost]
      simpa using hansw
    let env : Env := ⟨fun _ _ => none, fun log => probeMesh sha256Hex d (execLog keygen w log)⟩
    have hlog : (host, (⟨.genKeyPair, "", .genkey⟩ : Step)) ∈
        (applyMesh sha256Hex d (reconstruct d.hosts answer) env).log :=
      mem_log_of_phase1 hplan (List.mem_flatMap.2
        ⟨host, hhost, List.mem_map.2 ⟨_, genkey_of_not_reported hplan hintent hhost hkeys, rfl⟩⟩)
    have hnone := (hkept env fun _ => rfl).keys host _ hlog rfl
    rw [hdisk] at hnone
    cases hnone
  · intro hcond env henv
    refine ⟨fun host s hs hcmd => ?_, fun host s hs iface ip port peers hcmd own hown => ?_⟩
    · obtain ⟨planned, hplan, hplanned⟩ := planned_of_mem_log hs
      rcases hcond with ⟨err, herr⟩ | hup | hall
      · rw [hplan] at herr
        cases herr
      · exact absurd hup (ne_upgrade_of_genkey hplan hplanned hcmd)
      rcases mem_log_applyMesh hs with ⟨_, -, hhost, hs⟩ | ⟨_, _, _, _, -, ⟨-, hs⟩ | ⟨-, hs⟩⟩
      · have hkeys := (genkey_mem_phase1 hs hcmd).1
        rw [hserver host hhost] at hkeys
        by_contra hdisk
        rw [hall host hhost (by simpa using hdisk)] at hkeys
        cases hkeys
      · have hphase := phase_of_mem_phase2 hs
        rw [hcmd] at hphase
        cases hphase
      · have hphase := phase_of_mem_phase3 hs
        rw [hcmd] at hphase
        cases hphase
    · rcases mem_log_applyMesh hs with ⟨_, -, -, hs⟩ | ⟨_, _, _, _, hr, ⟨hhost, hs⟩ | ⟨-, hs⟩⟩
      · have hphase := phase_of_mem_phase1 hs
        rw [hcmd] at hphase
        cases hphase
      · rw [← ip_of_ownIp henv hr hhost hown]
        exact (writeConfig_mem_phase2 hs hcmd).2.1
      · have hphase := phase_of_mem_phase3 hs
        rw [hcmd] at hphase
        cases hphase

/-- The only host of a mesh has a keypair, and its first probe fails: another keypair is generated. -/
theorem keypair_lost :
    let w : World := fun _ => (Machine.blank.write privateKeyPath "old").write publicKeyPath "old"
    let env : Env := ⟨fun _ _ => none, fun log => probeMesh (fun _ => "0") (meshOf ["a"])
      (execLog (fun _ => ("new", "new")) w log)⟩
    ¬ IdentityKept (meshOf ["a"]) w
      (applyMesh (fun _ => "0") (meshOf ["a"]) (reconstruct ["a"] fun _ => none) env).log := by
  intro w env hkept
  have hsome : (buildPlan (fun _ => "0") (meshOf ["a"]) (reconstruct ["a"] fun _ => none)).toOption.any (fun _ => true) =
      true := by decide
  obtain ⟨planned, hplan, -⟩ := exists_buildPlan hsome
  have hlog : ("a", (⟨.genKeyPair, "", .genkey⟩ : Step)) ∈
      (applyMesh (fun _ => "0") (meshOf ["a"]) (reconstruct ["a"] fun _ => none) env).log :=
    mem_log_of_phase1 hplan (List.mem_flatMap.2 ⟨"a", List.mem_singleton_self _, List.mem_map.2
      ⟨_, genkey_of_not_reported hplan (by decide) (List.mem_singleton_self _) rfl, rfl⟩⟩)
  have hnone := hkept.keys "a" _ hlog rfl
  revert hnone
  decide

end Coold.Cli
