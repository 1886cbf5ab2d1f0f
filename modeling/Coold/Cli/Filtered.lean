import Coold.Cli.Apply

/-!
# What an intent lets through

A plan is filtered action by action, while the units of the firewall and of coold are written from all the addresses of
the plan.  So a unit refers to networks that are made by the same plan or are there, unless the intent has dropped the
network action (`networks_of_units`).  On the other side everything that is run belongs to an action that was kept, so
neither an extension nor an upgrade runs what it must not (`existing_hosts_kept`).
-/

namespace Coold.Cli

/-- The plan has an action of this type for the host and the namespace. -/
def Plan.Has (plan : Plan) (host ns : String) (t : ActionType) : Prop :=
  ∃ a ∈ plan.actions, a.host = host ∧ a.ns = ns ∧ a.actionType = t

/-- An action of this type for the host and the namespace was dropped. -/
def Plan.Skips (plan : Plan) (host ns : String) (t : ActionType) : Prop :=
  ∃ s ∈ plan.skipped, s.action.host = host ∧ s.action.ns = ns ∧ s.action.actionType = t

section Skipped

variable {sha256Hex : List UInt8 → String} {d : DesiredMesh} {current : MeshState} {plan : Plan} {host ns : String}

/-- An action of a host is in the plan, or it is dropped for a reason. -/
private theorem IsPlan.kept_or_skipped (h : IsPlan sha256Hex d current plan) (hhost : host ∈ d.hosts)
    {a : PlannedAction}
    (ha : a ∈ hostActions sha256Hex d current plan.mgmtAssignments plan.subnetAssignments host) :
    plan.Has host a.ns a.actionType ∨ (plan.Skips host a.ns a.actionType ∧ (decideAction a d).isSome) := by
  obtain rfl := host_of_mem_hostActions ha
  cases hdec : decideAction a d with
  | none => exact .inl ⟨a, h.mem_actions.2 ⟨hhost, ha, hdec⟩, rfl, rfl, rfl⟩
  | some reason =>
    refine .inr ⟨⟨⟨a, reason⟩, ?_, rfl, rfl, rfl⟩, rfl⟩
    rw [h.skipped, List.mem_filterMap]
    exact ⟨a, List.mem_flatMap.2 ⟨a.host, hhost, ha⟩, by rw [hdec]; rfl⟩

/-- A unit that refers to the networks is planned for a node that has Podman. -/
private theorem IsPlan.podman_of_unit (h : IsPlan sha256Hex d current plan)
    (hrun : shouldRun plan host .installFirewall "" = true ∨ shouldRun plan host .installCooldService "" = true) :
    host ∈ d.hosts ∧ host ∈ d.nodes ∧ d.installPodman = true := by
  rcases hrun with hrun | hrun
  · obtain ⟨hhost, htest⟩ := h.hostTest_of_shouldRun hrun
    simp only [hostTest, hostTest.podman, Bool.and_eq_true, d.isNode_iff] at htest
    exact ⟨hhost, htest.1.1, htest.1.2⟩
  · obtain ⟨hhost, htest⟩ := h.hostTest_of_shouldRun hrun
    simp only [hostTest, hostTest.agents, Bool.and_eq_true, d.isNode_iff] at htest
    refine ⟨hhost, htest.1.1, ?_⟩
    -- the agents are refused without Podman
    by_contra hpodman
    have hnodes : d.nodes ≠ [] := List.ne_nil_of_mem htest.1.1
    have haccept := h.accepted
    unfold refusal at haccept
    rw [Bool.not_eq_true] at hpodman
    by_cases hdeny : d.defaultDenyContainers = true <;> simp [hnodes, hdeny, htest.1.2, hpodman] at haccept

/-- For every namespace of a node the host has a network action, or its network is what it should be. -/
private theorem network_action (sha256Hex : List UInt8 → String) (current : MeshState) (mgmt : Dict String Ipv4Addr)
    (subnets : Subnets) (hnode : host ∈ d.nodes) (hpodman : d.installPodman = true) (hns : ns ∈ d.namespaces) :
    (∃ a ∈ hostActions sha256Hex d current mgmt subnets host, a.ns = ns ∧ a.actionType = .createPodmanNetwork) ∨
      (∃ a ∈ hostActions sha256Hex d current mgmt subnets host, a.ns = ns ∧ a.actionType = .recreatePodmanNetwork) ∨
      ∃ nss, (current.server host).namespaces.lookup ns = some nss ∧ nss.networkExists = true ∧
        nss.containerSubnet = some (subnetOf subnets ns host) := by
  have hmem : ∀ a ∈ networkActions current subnets host ns,
      a ∈ hostActions sha256Hex d current mgmt subnets host := by
    intro a ha
    have hpod : a ∈ podmanActions sha256Hex d current subnets host := by
      simp only [podmanActions, List.mem_append, List.mem_flatMap]
      exact .inl (.inr ⟨ns, d.mem_sortedNamespaces.2 hns, ha⟩)
    simp only [hostActions, d.isNode_iff.2 hnode, hpodman, Bool.and_self, ↓reduceIte, List.mem_append]
    exact .inl (.inr hpod)
  have hplanned : ∀ t, ((networkActions current subnets host ns).any fun a => a.ns = ns ∧ a.actionType = t) = true →
      ∃ a ∈ hostActions sha256Hex d current mgmt subnets host, a.ns = ns ∧ a.actionType = t := by
    intro t ht
    obtain ⟨a, ha, hat⟩ := List.any_eq_true.1 ht
    exact ⟨a, hmem a ha, by simpa using hat⟩
  cases hmissing : networkMissing current host ns with
  | true => exact .inl (hplanned _ (by simp [networkActions, hmissing]))
  | false =>
    refine .inr ?_
    cases hdrift : networkDrift current subnets host ns with
    | true => exact .inl (hplanned _ (by simp [networkActions, hmissing, hdrift]))
    | false =>
      unfold networkMissing at hmissing
      unfold networkDrift at hdrift
      cases hl : (current.server host).namespaces.lookup ns with
      | none => simp [hl] at hmissing
      | some nss =>
        simp only [hl, Option.map_some, Option.getD_some, Bool.not_eq_false'] at hmissing
        simp only [hl, Bool.or_eq_false_iff, decide_eq_false_iff_not, not_not] at hdrift
        exact .inr ⟨nss, rfl, hmissing, hdrift.1.2⟩

/-- A network action that is dropped is dropped by an upgrade, or by an extension that must not replace the network of
an existing host. -/
private theorem decide_network {a : PlannedAction} (hdec : (decideAction a d).isSome) :
    (a.actionType = .createPodmanNetwork → d.intent = .upgrade) ∧
      (a.actionType = .recreatePodmanNetwork →
        d.intent = .upgrade ∨ (d.intent = .extend ∧ d.allowReplace = false ∧ a.host ∉ d.newNodes)) := by
  unfold decideAction at hdec
  cases hi : d.intent with
  | bootstrap => simp [hi] at hdec
  | upgrade => exact ⟨fun _ => rfl, fun _ => .inl rfl⟩
  | extend =>
    simp only [hi] at hdec
    split at hdec
    · cases hdec
    next hnew =>
      constructor
      · intro ht
        simp [categorize, ht] at hdec
      · intro ht
        refine .inr ⟨rfl, ?_, hnew⟩
        cases hreplace : d.allowReplace with
        | false => rfl
        | true => simp [categorize, ht, hreplace] at hdec

/-- Where a unit of the firewall or of coold is planned, the network of every namespace is planned, or it is there with
the allocated subnet, or its action has been dropped: by an upgrade, or by an extension that must not replace the
network of an existing host. -/
theorem networks_of_units (h : buildPlan sha256Hex d current = .ok plan) (hns : ns ∈ d.namespaces)
    (hrun : shouldRun plan host .installFirewall "" = true ∨ shouldRun plan host .installCooldService "" = true) :
    plan.Has host ns .createPodmanNetwork ∨ plan.Has host ns .recreatePodmanNetwork ∨
      (∃ nss, (current.server host).namespaces.lookup ns = some nss ∧ nss.networkExists = true ∧
        nss.containerSubnet = plan.subnetAssignments.lookup (ns, host) ∧ nss.containerSubnet ≠ none) ∨
      (d.intent = .upgrade ∧
        (plan.Skips host ns .createPodmanNetwork ∨ plan.Skips host ns .recreatePodmanNetwork)) ∨
      (d.intent = .extend ∧ d.allowReplace = false ∧ host ∉ d.newNodes ∧
        plan.Skips host ns .recreatePodmanNetwork) := by
  have hplan := isPlan_of_buildPlan h
  obtain ⟨hhost, hnode, hpodman⟩ := hplan.podman_of_unit hrun
  rcases network_action sha256Hex current plan.mgmtAssignments plan.subnetAssignments hnode hpodman hns with
    ⟨a, ha, rfl, ht⟩ | ⟨a, ha, rfl, ht⟩ | ⟨nss, hl, hex, hsub⟩
  · rcases hplan.kept_or_skipped hhost ha with hkept | ⟨hskip, hdec⟩
    · exact .inl (ht ▸ hkept)
    · exact .inr (.inr (.inr (.inl ⟨(decide_network hdec).1 ht, .inl (ht ▸ hskip)⟩)))
  · rcases hplan.kept_or_skipped hhost ha with hkept | ⟨hskip, hdec⟩
    · exact .inr (.inl (ht ▸ hkept))
    · rcases (decide_network hdec).2 ht with hup | ⟨hext, hreplace, hnew⟩
      · exact .inr (.inr (.inr (.inl ⟨hup, .inr (ht ▸ hskip)⟩)))
      · rw [host_of_mem_hostActions ha] at hnew
        exact .inr (.inr (.inr (.inr ⟨hext, hreplace, hnew, ht ▸ hskip⟩)))
  · obtain ⟨w, hsubnets⟩ := hplan.subnets
    obtain ⟨sn, hsn⟩ := Option.isSome_iff_exists.1 ((isSome_lookup_subnets hsubnets (ns, host)).2 ⟨hns, hnode⟩)
    refine .inr (.inr (.inl ⟨nss, hl, hex, ?_, by simp [hsub]⟩))
    rw [hsub, subnetOf, hsn, Option.getD_some]

end Skipped

/-- The prefix of the container subnets has changed since the network of the host was made. -/
def narrowedMesh : DesiredMesh := { meshOf ["a", "b"] with containerPrefix := 25, intent := .extend, newNodes := ["b"] }

def narrowedState : MeshState where
  servers := Dict.collect [("a", { namespaces := Dict.collect [("default", narrowedNetwork)] })]
where
  narrowedNetwork := { networkExists := true, containerSubnet := some (.ofLen 0x0AD20000 24), label := "default" }

/-- The firewall of the existing host is written for a subnet that its network does not have. -/
theorem narrowed_network_kept :
    ¬ ∀ (sha256Hex : List UInt8 → String) (d : DesiredMesh) (current : MeshState) (plan : Plan),
      buildPlan sha256Hex d current = .ok plan → ∀ host ∈ d.nodes, ∀ ns ∈ d.namespaces,
        shouldRun plan host .installFirewall "" = true ∨ shouldRun plan host .installCooldService "" = true →
          plan.Has host ns .createPodmanNetwork ∨ plan.Has host ns .recreatePodmanNetwork ∨
            ∃ nss, (current.server host).namespaces.lookup ns = some nss ∧ nss.networkExists = true ∧
              nss.containerSubnet = plan.subnetAssignments.lookup (ns, host) := by
  intro hall
  obtain ⟨plan, hb, hp⟩ := exists_buildPlan (p := fun plan => shouldRun plan "a" .installFirewall "" &&
    !shouldRun plan "a" .createPodmanNetwork "" && !shouldRun plan "a" .recreatePodmanNetwork "" &&
    plan.subnetAssignments.lookup ("default", "a") = some ⟨0x0AD20000, 25, by decide⟩)
    (show (buildPlan (fun _ => "") narrowedMesh narrowedState).toOption.any _ = true by decide)
  simp only [Bool.and_eq_true, Bool.not_eq_true', decide_eq_true_eq] at hp
  obtain ⟨⟨⟨hfirewall, hcreate⟩, hrecreate⟩, hsubnet⟩ := hp
  rcases hall _ _ _ plan hb "a" (by decide) "default" (by decide) (.inl hfirewall) with
    ⟨a, ha, hhost, -, ht⟩ | ⟨a, ha, hhost, -, ht⟩ | ⟨nss, hl, -, hsub⟩
  · rw [shouldRun_iff.2 ⟨a, ha, hhost, ht, .inl rfl⟩] at hcreate
    cases hcreate
  · rw [shouldRun_iff.2 ⟨a, ha, hhost, ht, .inl rfl⟩] at hrecreate
    cases hrecreate
  · rw [hsubnet] at hsub
    have hnet : (narrowedState.server "a").namespaces.lookup "default" = some narrowedState.narrowedNetwork := by
      decide
    rw [hnet, Option.some.injEq] at hl
    rw [← hl] at hsub
    exact absurd hsub (by decide)

/-- The action that is missing there has been dropped. -/
theorem networks_of_units_narrowed :
    ∃ plan, buildPlan (fun _ => "") narrowedMesh narrowedState = .ok plan ∧
      (plan.Has "a" "default" .createPodmanNetwork ∨ plan.Has "a" "default" .recreatePodmanNetwork ∨
        (∃ nss, (narrowedState.server "a").namespaces.lookup "default" = some nss ∧ nss.networkExists = true ∧
          nss.containerSubnet = plan.subnetAssignments.lookup ("default", "a") ∧ nss.containerSubnet ≠ none) ∨
        (narrowedMesh.intent = .upgrade ∧
          (plan.Skips "a" "default" .createPodmanNetwork ∨ plan.Skips "a" "default" .recreatePodmanNetwork)) ∨
        (narrowedMesh.intent = .extend ∧ narrowedMesh.allowReplace = false ∧ "a" ∉ narrowedMesh.newNodes ∧
          plan.Skips "a" "default" .recreatePodmanNetwork)) := by
  obtain ⟨plan, hb, hp⟩ := exists_buildPlan (p := fun plan => shouldRun plan "a" .installFirewall "")
    (show (buildPlan (fun _ => "") narrowedMesh narrowedState).toOption.any _ = true by decide)
  exact ⟨plan, hb, networks_of_units hb (by decide) (.inl hp)⟩

/-! ### What is run on the existing hosts -/

/-- The command removes a network of Podman. -/
def Cmd.removesNetwork : Cmd → Bool
  | .recreateNetwork .. => true
  | _ => false

/-- The command installs a binary of an agent. -/
def Cmd.installsBinary : Cmd → Bool
  | .installCorrosion .. | .installCoold .. => true
  | _ => false

/-- The command installs the service of an agent. -/
def Cmd.installsService : Cmd → Bool
  | .installCorrosionService .. | .installCooldService .. => true
  | _ => false

section Kept

variable {sha256Hex : List UInt8 → String} {d : DesiredMesh} {current : MeshState} {plan : Plan} {env : Env}
  {a : PlannedAction} {host : String}

/-- An extension that must not replace anything leaves the existing hosts their networks, binaries and database, an
upgrade runs nothing but the installation of the agents and their services, and a plan splits all actions in their order
into the kept and the dropped ones. -/
theorem existing_hosts_kept (sha256Hex : List UInt8 → String) (d : DesiredMesh) (current : MeshState) (env : Env) :
    (d.intent = .extend → d.allowReplace = false →
      ∀ e ∈ (applyMesh sha256Hex d current env).log, e.1 ∉ d.newNodes →
        e.2.cmd.removesNetwork = false ∧ e.2.cmd.installsBinary = false ∧
          ((current.server e.1).corrosionSchemaSha256 ≠ "" →
            (current.server e.1).corrosionSchemaSha256 ≠ schemaHash sha256Hex → e.2.cmd ≠ .writeCorrosionSchema)) ∧
      (d.intent = .upgrade → ∀ e ∈ (applyMesh sha256Hex d current env).log,
        e.2.cmd.installsBinary = true ∨ e.2.cmd.installsService = true) ∧
      ∀ plan, buildPlan sha256Hex d current = .ok plan →
        (d.hosts.flatMap (hostActions sha256Hex d current plan.mgmtAssignments plan.subnetAssignments)).partition
            (fun a => (decideAction a d).isNone) =
          (plan.actions, plan.skipped.map SkippedAction.action) := by
  refine ⟨fun hext hreplace e he hnew => ?_, fun hup e he => ?_, fun plan hb => ?_⟩
  · obtain ⟨plan, hb, hrun⟩ := planned_of_mem_log he
    have hkept := (isPlan_of_buildPlan hb).dropsType_of_shouldRun hrun
    simp only [dropsType, hext, hnew, not_false_eq_true, decide_true, Bool.true_and] at hkept
    refine ⟨?_, ?_, fun hsome hdrift hcmd => ?_⟩
    · cases hc : e.2.cmd <;> simp_all [Cmd.removesNetwork, Cmd.actionType, extensionDrops]
    · cases hc : e.2.cmd <;> simp_all [Cmd.installsBinary, Cmd.actionType, extensionDrops]
    · simp [hcmd, Cmd.actionType, extensionDrops, resetsDb, schemaDrift, hdrift, hsome] at hkept
  · obtain ⟨plan, hb, hrun⟩ := planned_of_mem_log he
    have hkept := (isPlan_of_buildPlan hb).dropsType_of_shouldRun hrun
    simp only [dropsType, hup] at hkept
    cases hc : e.2.cmd <;> simp_all [Cmd.installsBinary, Cmd.installsService, Cmd.actionType, upgradeDrops]
  · have hplan := isPlan_of_buildPlan hb
    rw [List.partition_eq_filter_filter, hplan.actions, hplan.skipped, List.map_filterMap, Prod.mk.injEq]
    refine ⟨rfl, ?_⟩
    rw [← List.filterMap_eq_filter]
    refine List.filterMap_congr fun a _ => ?_
    cases hdec : decideAction a d <;> simp [hdec]

end Kept

end Coold.Cli
