import Coold.Cli.Machine

/-!
# What a run does on one host

A command changes the files of its action and starts the units of its action (`ActionType.files`, `ActionType.units`),
so what a host keeps through a row of commands is read off their types.  A run that succeeds has carried out all steps
of its phases, and a host has seen the steps of its own phases in their order (`cmdsOf_of_ok`).
-/

namespace Coold.Cli

open Shell

/-- A file with its place beside it. -/
def withTmp (path : String) : List String := [path ++ ".tmp", path]

/-- The files the command of an action may change. -/
def ActionType.files : ActionType → List String
  | .genKeyPair => [privateKeyPath, publicKeyPath]
  | .installFirewall => withTmp Firewall.firewallUnitPath ++ withTmp Firewall.bridgeScaffoldPath
  | .installCorrosion => [binPath "corrosion", versionPath "corrosion"]
  | .installCoold => [binPath "coold", versionPath "coold"]
  | .writeCorrosionConfig =>
    withTmp Corrosion.gossipTlsCertPath ++ withTmp Corrosion.gossipTlsKeyPath ++ withTmp Corrosion.configPath
  | .writeCorrosionSchema => withTmp Corrosion.schemaPath
  | .installCorrosionService => withTmp Corrosion.unitPath
  | .installCooldService =>
    withTmp fluxPinPath ++ ["/etc/systemd/resolved.conf.d/coolify-internal.conf"] ++
      withTmp CooldService.meshDnsAnchorPath ++ withTmp CooldService.meshDnsResolverPath ++
      withTmp CooldService.unitPath
  | _ => []

/-- The units the command of an action may start. -/
def ActionType.units : ActionType → List String
  | .installFirewall => [Firewall.firewallServiceName]
  | .installCorrosionService => ["corrosion"]
  | .installCooldService => [CooldService.meshDnsAnchorService, CooldService.meshDnsResolverService, "coold"]
  | _ => []

section Frame

variable {keys : String × String} {m : Machine} {c : Cmd} {p u : String}

private theorem paths_andThen (s t : Script) :
    (andThen s t).flatten.flatMap Command.writes =
      s.flatten.flatMap Command.writes ++ t.flatten.flatMap Command.writes := by
  rw [flatten_andThen, List.flatMap_append]

private theorem mem_withTmp_of_heredoc {path body mode : String}
    (hp : p ∈ (heredoc path body mode).flatten.flatMap Command.writes) : p ∈ withTmp path := by
  change p ∈ [path ++ ".tmp", path ++ ".tmp", path] at hp
  simpa [withTmp] using hp

private theorem unitsOf_andThen (s t : Script) :
    (andThen s t).flatten.flatMap Command.starts =
      s.flatten.flatMap Command.starts ++ t.flatten.flatMap Command.starts := by
  rw [flatten_andThen, List.flatMap_append]

private theorem unitsOf_heredoc (path body mode : String) :
    (heredoc path body mode).flatten.flatMap Command.starts = [] := rfl

/-- The files a script changes are those of its action. -/
private theorem writes_script {k : Command} (hk : k ∈ c.script.flatten) (hp : p ∈ k.writes) :
    p ∈ c.actionType.files := by
  have hmem : p ∈ c.script.flatten.flatMap Command.writes := List.mem_flatMap.2 ⟨k, hk, hp⟩
  clear hk hp
  cases c
  case installFirewall iface namespaces subnets defaultDeny =>
    simp only [Cmd.script, Firewall.installFirewallScript, paths_andThen, List.mem_append] at hmem
    rcases hmem with hmem | hmem | hmem
    · refine List.mem_append_left _ ?_
      simpa [Command.writes, withTmp] using hmem
    · refine List.mem_append_right _ ?_
      cases defaultDeny
      · exact List.mem_cons_of_mem _ hmem
      · simpa [Command.writes, withTmp] using hmem
    · simp [Command.writes] at hmem
  case writeCorrosionConfig cfg gossipTls =>
    simp only [Cmd.script, paths_andThen, List.mem_append] at hmem
    rcases hmem with hmem | hmem | hmem
    · simp [Command.writes] at hmem
    · refine List.mem_append_left _ ?_
      cases gossipTls with
      | none => cases hmem
      | some tls =>
        simp only [paths_andThen, List.mem_append] at hmem
        rcases hmem with hmem | hmem | hmem
        · simp [Command.writes] at hmem
        · exact List.mem_append_left _ (mem_withTmp_of_heredoc hmem)
        · exact List.mem_append_right _ (mem_withTmp_of_heredoc hmem)
    · exact List.mem_append_right _ (mem_withTmp_of_heredoc hmem)
  case writeCorrosionSchema =>
    simp only [Cmd.script, paths_andThen, List.mem_append] at hmem
    rcases hmem with hmem | hmem
    · simp [Command.writes] at hmem
    · exact mem_withTmp_of_heredoc hmem
  case installCorrosionService =>
    simp only [Cmd.script, paths_andThen, List.mem_append] at hmem
    rcases hmem with hmem | hmem
    · exact mem_withTmp_of_heredoc hmem
    · simp [Command.writes] at hmem
  case installCooldService mgmtIp ns flux fluxTls =>
    simp only [Cmd.script, paths_andThen, List.mem_append] at hmem
    change p ∈ withTmp fluxPinPath ++ ["/etc/systemd/resolved.conf.d/coolify-internal.conf"] ++
      withTmp CooldService.meshDnsAnchorPath ++ withTmp CooldService.meshDnsResolverPath ++
      withTmp CooldService.unitPath
    simp only [List.mem_append]
    rcases hmem with hmem | hmem | hmem | hmem | hmem | hmem | hmem
    · simp [Command.writes] at hmem
    · cases fluxTls with
      | none => cases hmem
      | some tls => exact .inl (.inl (.inl (.inl (mem_withTmp_of_heredoc hmem))))
    · exact .inl (.inl (.inl (.inr hmem)))
    · exact .inl (.inl (.inr (mem_withTmp_of_heredoc hmem)))
    · exact .inl (.inr (mem_withTmp_of_heredoc hmem))
    · exact .inr (mem_withTmp_of_heredoc hmem)
    · simp [Command.writes] at hmem
  all_goals simp [Cmd.script] at hmem

/-- The units a script starts are those of its action. -/
private theorem starts_script {k : Command} (hk : k ∈ c.script.flatten) (hu : u ∈ k.starts) :
    u ∈ c.actionType.units := by
  have hmem : u ∈ c.script.flatten.flatMap Command.starts := List.mem_flatMap.2 ⟨k, hk, hu⟩
  clear hk hu
  cases c
  case installFirewall iface namespaces subnets defaultDeny =>
    simp only [Cmd.script, Firewall.installFirewallScript, unitsOf_andThen] at hmem
    cases defaultDeny <;> simpa [Cmd.actionType, ActionType.units, Command.starts] using hmem
  case writeCorrosionConfig cfg gossipTls =>
    simp only [Cmd.script, unitsOf_andThen, unitsOf_heredoc] at hmem
    cases gossipTls <;> simp [Command.starts, unitsOf_andThen, unitsOf_heredoc] at hmem
  case writeCorrosionSchema =>
    simp only [Cmd.script, unitsOf_andThen, unitsOf_heredoc] at hmem
    simp [Command.starts] at hmem
  case installCorrosionService =>
    simp only [Cmd.script, unitsOf_andThen, unitsOf_heredoc] at hmem
    simpa [Cmd.actionType, ActionType.units, Command.starts] using hmem
  case installCooldService mgmtIp ns flux fluxTls =>
    simp only [Cmd.script, unitsOf_andThen, unitsOf_heredoc] at hmem
    cases fluxTls <;> simpa [Cmd.actionType, ActionType.units, Command.starts, unitsOf_heredoc] using hmem
  all_goals simp [Cmd.script] at hmem

theorem files_effect_of_notMem (hp : p ∉ c.actionType.files) : (m.effect keys c).host.files p = m.host.files p := by
  have hscript : (run asGiven m.host c.script).files p = m.host.files p :=
    files_run_of_notMem fun k hk hpk => hp (writes_script hk hpk)
  cases c
  case genkey | installCorrosion | installCoold =>
    simp only [Cmd.actionType, ActionType.files, List.mem_cons, List.not_mem_nil, or_false, not_or] at hp
    simp [Machine.effect, Machine.tick, Machine.installBinary, Machine.write, hp.1, hp.2]
  case createNetwork =>
    unfold Machine.effect
    dsimp only
    split <;> rfl
  case installFirewall | writeCorrosionConfig | writeCorrosionSchema | installCorrosionService | installCooldService =>
    exact hscript
  all_goals rfl

theorem started_effect_of_notMem (hu : u ∉ c.actionType.units) :
    (m.effect keys c).host.started u = m.host.started u := by
  have hscript : (run asGiven m.host c.script).started u = m.host.started u :=
    started_run_of_notMem fun k hk huk => hu (starts_script hk huk)
  cases c
  case createNetwork =>
    unfold Machine.effect
    dsimp only
    split <;> rfl
  case installFirewall | writeCorrosionConfig | writeCorrosionSchema | installCorrosionService | installCooldService =>
    exact hscript
  all_goals rfl

theorem le_clock_effect : m.host.clock ≤ (m.effect keys c).host.clock := by
  have hscript : m.host.clock ≤ (run asGiven m.host c.script).clock := by
    rw [clock_run]
    exact Nat.le_add_right _ _
  cases c
  case genkey | installCorrosion | installCoold => exact Nat.le_succ _
  case createNetwork =>
    unfold Machine.effect
    dsimp only
    split <;> exact Nat.le_refl _
  case installFirewall | writeCorrosionConfig | writeCorrosionSchema | installCorrosionService | installCooldService =>
    exact hscript
  all_goals exact Nat.le_refl _

/-! ### Rows of commands -/

variable {cmds : List Cmd}

theorem files_exec_of_notMem (h : ∀ c ∈ cmds, p ∉ c.actionType.files) :
    (m.exec keys cmds).host.files p = m.host.files p :=
  exec_keeps (f := fun m => m.host.files p) (fun c hc _ => files_effect_of_notMem (h c hc)) m

theorem started_exec_of_notMem (h : ∀ c ∈ cmds, u ∉ c.actionType.units) :
    (m.exec keys cmds).host.started u = m.host.started u :=
  exec_keeps (f := fun m => m.host.started u) (fun c hc _ => started_effect_of_notMem (h c hc)) m

theorem exec_append (keys : String × String) (m : Machine) (cmds cmds' : List Cmd) :
    m.exec keys (cmds ++ cmds') = (m.exec keys cmds).exec keys cmds' :=
  List.foldl_append

/-- What every command of a row keeps, the row keeps. -/
theorem exec_invariant {P : Machine → Prop} (hkeep : ∀ c ∈ cmds, ∀ m : Machine, P m → P (m.effect keys c)) (h : P m) :
    P (m.exec keys cmds) := by
  induction cmds generalizing m with
  | nil => exact h
  | cons c cmds ih =>
    exact ih (fun c' hc' => hkeep c' (List.mem_cons_of_mem _ hc')) (hkeep c List.mem_cons_self m h)

/-- What one command of a row establishes and the others keep holds after the row; `I` always holds on the way. -/
theorem exec_holds {I P : Machine → Prop} (hI : ∀ c ∈ cmds, ∀ m : Machine, I m → I (m.effect keys c))
    (hkeep : ∀ c ∈ cmds, ∀ m : Machine, I m → P m → P (m.effect keys c)) (hm : I m)
    (h : P m ∨ ∃ c ∈ cmds, ∀ m : Machine, I m → P (m.effect keys c)) : P (m.exec keys cmds) := by
  induction cmds generalizing m with
  | nil => exact h.resolve_right fun ⟨_, hc, _⟩ => by cases hc
  | cons c cmds ih =>
    refine ih (fun c' hc' => hI c' (List.mem_cons_of_mem _ hc')) (fun c' hc' => hkeep c' (List.mem_cons_of_mem _ hc'))
      (hI c List.mem_cons_self m hm) ?_
    rcases h with h | ⟨c', hc', h⟩
    · exact .inl (hkeep c List.mem_cons_self m hm h)
    · rcases List.mem_cons.1 hc' with rfl | hc'
      · exact .inl (h m hm)
      · exact .inr ⟨c', hc', h⟩

end Frame

/-! ### The second probe -/

/-- The second probe reports in full what the commands before it have left. -/
def Env.Accurate (sha256Hex : List UInt8 → String) (d : DesiredMesh) (keygen : String → String × String) (w : World)
    (env : Env) : Prop :=
  ∀ log, env.reprobe log = probeMesh sha256Hex d (execLog keygen w log)

/-- The management address that is configured on a host. -/
def configuredIp (w : World) (host : String) : Option Ipv4Addr := (w host).conf.bind WgConf.mgmtIp

/-- The subnet of the network of a namespace on a host. -/
def configuredSubnet (w : World) (ns host : String) : Option Ipv4Net := (probeNamespace (w host) ns).containerSubnet

section Probe

variable {sha256Hex : List UInt8 → String} {d : DesiredMesh} {keygen : String → String × String} {w : World}
  {current : MeshState} {env : Env} {planned : Plan} {log log₁ : Log} {mgmt : Dict String Ipv4Addr} {subnets : Subnets}
  {host ns : String}

theorem assigned_probeMesh {host : String} (hhost : host ∈ d.hosts) :
    (probeMesh sha256Hex d w).assignedMgmtIps.lookup host = configuredIp w host := by
  rw [MeshState.lookup_assignedMgmtIps, lookup_probeMesh sha256Hex w hhost]
  rfl

/-- The first phase does not touch the configuration of WireGuard. -/
theorem configuredIp_execLog (h : ∀ e ∈ log, e.2.cmd.phase = 1) (host : String) :
    configuredIp (execLog keygen w log) host = configuredIp w host := by
  unfold configuredIp
  rw [execLog_apply, exec_keeps fun c hc m => conf_effect _ m ?_]
  obtain ⟨s, hs, rfl⟩ := mem_cmdsOf.1 hc
  have hphase := h _ hs
  revert hphase
  cases s.cmd <;> simp [Cmd.phase, Cmd.actionType, ActionType.phase]

theorem assignedSubnets_probeMesh (hhost : host ∈ d.hosts) (hns : ns ∈ d.namespaces) :
    ((probeMesh sha256Hex d w).assignedContainerSubnets ns).lookup host = configuredSubnet w ns host := by
  rw [MeshState.lookup_assignedContainerSubnets, lookup_probeMesh sha256Hex w hhost, Option.bind_some, probe,
    Dict.lookup_collect_map_self, if_pos hns]
  rfl

/-- The first phase does not touch the networks. -/
theorem configuredSubnet_execLog (h : ∀ e ∈ log, e.2.cmd.phase = 1) (ns host : String) :
    configuredSubnet (execLog keygen w log) ns host = configuredSubnet w ns host := by
  unfold configuredSubnet probeNamespace
  rw [execLog_apply, exec_keeps fun c hc m => networks_effect _ m ?_]
  obtain ⟨s, hs, rfl⟩ := mem_cmdsOf.1 hc
  rw [h _ hs]
  decide

/-- Where the second probe reports the addresses and subnets of the first one, they are allocated as in the plan. -/
theorem Reached.addresses_eq (hr : Reached sha256Hex d current env planned log₁ mgmt subnets)
    (hmgmtEq : ∀ k, (env.reprobe log₁).assignedMgmtIps.lookup k = current.assignedMgmtIps.lookup k)
    (hsubEq : ∀ ns ∈ d.namespaces, ∀ k ∈ d.nodes, ((env.reprobe log₁).assignedContainerSubnets ns).lookup k =
      (current.assignedContainerSubnets ns).lookup k) :
    mgmt = planned.mgmtAssignments ∧ subnets = planned.subnetAssignments := by
  have hplan := isPlan_of_buildPlan hr.plan
  obtain ⟨warnings, hmgmt⟩ := hr.mgmt
  obtain ⟨warnings', hmgmt'⟩ := hplan.mgmt
  obtain ⟨warnings₂, hsub⟩ := hr.subnets
  obtain ⟨warnings₂', hsub'⟩ := hplan.subnets
  rw [allocateMgmtIps_congr _ _ hmgmtEq, hmgmt'] at hmgmt
  rw [allocateNamespaced_congr _ _ _ _ hsubEq, hsub'] at hsub
  cases hmgmt
  cases hsub
  exact ⟨rfl, rfl⟩

/-- Where both probes report in full, the addresses are allocated as in the plan. -/
theorem Reached.same_addresses (hr : Reached sha256Hex d (probeMesh sha256Hex d w) env planned log₁ mgmt subnets)
    (henv : env.Accurate sha256Hex d keygen w) :
    mgmt = planned.mgmtAssignments ∧ subnets = planned.subnetAssignments := by
  refine hr.addresses_eq (fun k => ?_) fun ns hns k hk => ?_
  · rw [henv log₁]
    by_cases hk : k ∈ d.hosts
    · rw [assigned_probeMesh hk, assigned_probeMesh hk, configuredIp_execLog hr.phase_eq_one]
    · simp only [MeshState.lookup_assignedMgmtIps, probeMesh, lookup_reconstruct, if_neg hk]
  · have hk := d.nodes_subset k hk
    rw [henv log₁, assignedSubnets_probeMesh hk hns, assignedSubnets_probeMesh hk hns,
      configuredSubnet_execLog hr.phase_eq_one]

end Probe

/-! ### Runs that succeed -/

section Ok

variable {sha256Hex : List UInt8 → String} {d : DesiredMesh} {current : MeshState} {env : Env} {planned : Plan}

private theorem ran_eq_of_not_failed {fail : Option Nat} {steps : List Step} (h : failed fail steps = false) :
    ran fail steps = steps := by
  cases fail with
  | none => rfl
  | some k =>
    have hle : steps.length ≤ k := by simpa [failed] using h
    exact List.take_of_length_le (by omega)

/-- A phase that succeeds has carried out all steps. -/
private theorem forEachServer_of_not_failed {hosts : List String} {fails : String → Option Nat}
    {steps : String → List Step} {log : Log} (h : forEachServer hosts fails steps = (log, false)) :
    log = hosts.flatMap fun host => (steps host).map fun s => (host, s) := by
  unfold forEachServer at h
  rw [Prod.mk.injEq, List.any_eq_false] at h
  obtain ⟨rfl, hfails⟩ := h
  refine List.flatMap_congr fun host hhost => ?_
  rw [ran_eq_of_not_failed (by simpa using hfails host hhost)]

theorem cmdsOf_append (host : String) (log log' : Log) :
    cmdsOf host (log ++ log') = cmdsOf host log ++ cmdsOf host log' := by
  simp [cmdsOf]

private theorem cmdsOf_flatMap {hosts : List String} (hnd : hosts.Nodup) (steps : String → List Step) (host : String) :
    cmdsOf host (hosts.flatMap fun h => (steps h).map fun s => (h, s)) =
      if host ∈ hosts then (steps host).map Step.cmd else [] := by
  have hone : ∀ h, cmdsOf host ((steps h).map fun s => (h, s)) = if h = host then (steps h).map Step.cmd else [] := by
    intro h
    by_cases hh : h = host <;> simp [cmdsOf, List.filter_map, Function.comp_def, hh]
  induction hosts with
  | nil => rfl
  | cons h hosts ih =>
    rw [List.nodup_cons] at hnd
    rw [List.flatMap_cons, cmdsOf_append, hone, ih hnd.2]
    by_cases hh : h = host
    · subst hh
      simp [hnd.1]
    · simp [hh, Ne.symm hh]

/-- The commands of a host in a run that succeeds. -/
def hostCmds (d : DesiredMesh) (planned : Plan) (current fresh : MeshState) (mgmt : Dict String Ipv4Addr)
    (subnets : Subnets) (host : String) : List Cmd :=
  ((phase1 d planned host current ++ phase2 d planned host mgmt subnets fresh ++
    if d.isNode host && d.installCoold then phase3 d planned host mgmt subnets else []).map Step.cmd)

private theorem nodup_hosts (h : IsPlan sha256Hex d current planned) : d.hosts.Nodup := by
  obtain ⟨w, hmgmt⟩ := h.mgmt
  exact (allocateMgmtIps_eq_ok.1 hmgmt).1

/-- The agents are installed on distinct nodes: there is a namespace, and the subnets are distinct by their names. -/
private theorem nodup_nodes (h : IsPlan sha256Hex d current planned) (hcoold : d.installCoold = true) :
    d.nodes.Nodup := by
  by_cases hnodes : d.nodes = []
  · rw [hnodes]
    exact List.nodup_nil
  have hns : d.namespaces ≠ [] := by
    intro hns
    have hacc := h.accepted
    unfold refusal at hacc
    cases hp : d.installPodman <;> simp [hnodes, hcoold, hp, hns] at hacc
    split at hacc <;> cases hacc
  obtain ⟨w, hsubnets⟩ := h.subnets
  obtain ⟨-, flat, hflat, -⟩ := allocateNamespaced_eq_ok.1 hsubnets
  obtain ⟨-, -, hnd, -⟩ := allocate_eq_ok.1 hflat
  obtain ⟨ns, namespaces, hcons⟩ := List.exists_cons_of_ne_nil hns
  have hsub : (d.nodes.map fun p => subnetKey ns p).Sublist
      ((subnetPairs d.namespaces d.nodes).map fun k => subnetKey k.1 k.2) := by
    rw [subnetPairs, hcons, List.flatMap_cons, List.map_append, List.map_map]
    exact List.sublist_append_left _ _
  exact List.Nodup.of_map _ (hnd.sublist hsub)

/-- The steps of a phase on all its hosts. -/
def allSteps (hosts : List String) (steps : String → List Step) : Log :=
  hosts.flatMap fun host => (steps host).map fun s => (host, s)

private theorem applyFresh_of_ok {log₁ log : Log} {fresh : MeshState} {mgmt : Dict String Ipv4Addr} {subnets : Subnets}
    (hok : (applyFresh d planned env log₁ fresh mgmt subnets).result = .ok log) :
    (applyFresh d planned env log₁ fresh mgmt subnets).log =
      log₁ ++ allSteps d.hosts (fun h => phase2 d planned h mgmt subnets fresh) ++
        if d.installCoold then allSteps d.nodes fun h => phase3 d planned h mgmt subnets else [] := by
  unfold applyFresh at hok ⊢
  rcases h₂ : forEachServer d.hosts (env.fails 2) (fun h => phase2 d planned h mgmt subnets fresh) with ⟨log₂, failed₂⟩
  rcases h₃ : forEachServer d.nodes (env.fails 3) (fun h => phase3 d planned h mgmt subnets) with ⟨log₃, failed₃⟩
  simp only [h₂, h₃] at hok ⊢
  cases failed₂ with
  | true => cases hok
  | false =>
    rw [forEachServer_of_not_failed h₂]
    cases hcoold : d.installCoold with
    | false => simp [allSteps]
    | true =>
      simp only [hcoold] at hok ⊢
      cases failed₃ with
      | true => cases hok
      | false =>
        rw [forEachServer_of_not_failed h₃]
        simp [allSteps]

/-- Before the second probe a host has seen the steps of its first phase. -/
theorem Reached.cmdsOf_first {log₁ : Log} {mgmt : Dict String Ipv4Addr} {subnets : Subnets}
    (hr : Reached sha256Hex d current env planned log₁ mgmt subnets) (host : String) :
    cmdsOf host log₁ = if host ∈ d.hosts then (phase1 d planned host current).map Step.cmd else [] := by
  rw [forEachServer_of_not_failed hr.first, cmdsOf_flatMap (nodup_hosts (isPlan_of_buildPlan hr.plan))]

/-- A run that succeeds has come through all its phases, and a host has seen the steps of its own. -/
theorem cmdsOf_of_ok {log : Log} (hok : (applyMesh sha256Hex d current env).result = .ok log) :
    ∃ planned log₁ mgmt subnets, Reached sha256Hex d current env planned log₁ mgmt subnets ∧
      ∀ host, cmdsOf host (applyMesh sha256Hex d current env).log =
        if host ∈ d.hosts then hostCmds d planned current (env.reprobe log₁) mgmt subnets host else [] := by
  rcases applyMesh_cases sha256Hex d current env with ⟨err, -, h⟩ | ⟨planned, err, -, h⟩ |
    ⟨planned, log₁, mgmt, subnets, hr, h⟩
  · rw [h] at hok
    cases hok
  · rw [h] at hok
    cases hok
  have hplan := isPlan_of_buildPlan hr.plan
  have hnd := nodup_hosts hplan
  refine ⟨planned, log₁, mgmt, subnets, hr, fun host => ?_⟩
  rw [h] at hok ⊢
  rw [applyFresh_of_ok hok, cmdsOf_append, cmdsOf_append, hr.cmdsOf_first, allSteps, cmdsOf_flatMap hnd]
  have hthird : cmdsOf host (if d.installCoold then allSteps d.nodes fun h => phase3 d planned h mgmt subnets else []) =
      (if d.isNode host && d.installCoold then phase3 d planned host mgmt subnets else []).map Step.cmd := by
    cases hcoold : d.installCoold with
    | false => simp [cmdsOf]
    | true =>
      rw [if_pos rfl, allSteps, cmdsOf_flatMap (nodup_nodes hplan hcoold)]
      by_cases hnode : host ∈ d.nodes
      · simp [hnode, d.isNode_iff.2 hnode]
      · have hfalse : d.isNode host = false := by rw [← Bool.not_eq_true, d.isNode_iff]; exact hnode
        simp [hnode, hfalse]
  rw [hthird]
  by_cases hhost : host ∈ d.hosts
  · simp [hhost, hostCmds]
  · have hnode : d.isNode host = false := by
      rw [← Bool.not_eq_true, d.isNode_iff]
      exact fun hn => hhost (d.nodes_subset host hn)
    simp [hhost, hnode]

end Ok

end Coold.Cli
