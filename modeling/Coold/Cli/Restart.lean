import Coold.Cli.Runs

/-!
# Processes and what they were started with

A service that is enabled and started is left alone if it runs, so an agent that runs keeps its process when its binary,
configuration, schema or unit is written anew (`stale_coold`); only the firewall is restarted.  With the times of the
writes and starts, the processes are newer than what a run installs for them exactly if no running agent gets anything
new (`agents_restarted`).
-/

namespace Coold.Cli

open Shell

/-- The services of a run with the files their processes use. -/
def usedBy : List (String × List String) :=
  [("coold", [binPath "coold", CooldService.unitPath]),
    ("corrosion", [binPath "corrosion", Corrosion.configPath, Corrosion.schemaPath]),
    (Firewall.firewallServiceName, [Firewall.firewallUnitPath])]

/-- A running service was started after the last write, at `since` or later, to the files it uses. -/
def Fresh (since : Nat) (unit : String) (paths : List String) (m : Machine) : Prop :=
  ∀ p ∈ paths, ∀ f t, m.host.files p = some f → since ≤ f.written → m.host.started unit = some t → f.written < t

/-- The processes of a host are newer than what was installed for them at `since` or later. -/
def UpToDate (since : Nat) (m : Machine) : Prop := ∀ e ∈ usedBy, Fresh since e.1 e.2 m

/-- The files among these that the command of an action puts in place. -/
def ActionType.installs : ActionType → List String
  | .installFirewall => [Firewall.firewallUnitPath]
  | .installCorrosion => [binPath "corrosion"]
  | .installCoold => [binPath "coold"]
  | .writeCorrosionConfig => [Corrosion.configPath]
  | .writeCorrosionSchema => [Corrosion.schemaPath]
  | .installCooldService => [CooldService.unitPath]
  | _ => []

section Effect

variable {keys : String × String} {m : Machine} {c : Cmd} {p u : String}

private theorem stamped_effect (hs : Stamped m.host) : Stamped (m.effect keys c).host := by
  have hwrite : ∀ path content path' content', Stamped ((m.write path content).write path' content').tick.host := by
    intro path content path' content'
    refine ⟨fun p f hf => ?_, fun u t ht => Nat.lt_succ_of_lt (hs.started u t ht)⟩
    simp only [Machine.tick, Machine.write, Function.update_apply] at hf ⊢
    split at hf
    · cases hf
      exact Nat.lt_succ_self _
    · split at hf
      · cases hf
        exact Nat.lt_succ_self _
      · exact Nat.lt_succ_of_lt (hs.written p f hf)
  cases c
  case genkey | installCorrosion | installCoold => exact hwrite _ _ _ _
  case createNetwork =>
    unfold Machine.effect
    dsimp only
    split <;> exact hs
  case installFirewall | writeCorrosionConfig | writeCorrosionSchema | installCorrosionService | installCooldService =>
    exact hs.run _
  all_goals exact hs

/-- What a command puts in place is from the time of the command. -/
private theorem clock_le_written (hp : p ∈ c.actionType.installs) :
    ∃ f, (m.effect keys c).host.files p = some f ∧ m.host.clock ≤ f.written := by
  have hdoc : ∀ h : Host, m.host.clock ≤ h.clock → ∀ path body mode,
      ∃ f, (run asGiven h (heredoc path body mode)).files path = some f ∧ m.host.clock ≤ f.written :=
    fun h hle path body mode => ⟨_, files_heredoc _ _ _ _ _, Nat.le_add_right_of_le hle⟩
  cases c
  case installCorrosion | installCoold =>
    obtain rfl := List.mem_singleton.1 hp
    exact ⟨_, (files_installBinary _ _ _).1, Nat.le_refl _⟩
  case installFirewall iface namespaces subnets defaultDeny =>
    obtain rfl := List.mem_singleton.1 hp
    change ∃ f, (run asGiven m.host (Firewall.installFirewallScript iface namespaces subnets defaultDeny)).files
      Firewall.firewallUnitPath = some f ∧ _
    unfold Firewall.installFirewallScript
    simp only [run_andThen]
    rw [files_run_of_notMem (by simp [Command.writes]), files_run_of_notMem]
    · refine ⟨⟨Firewall.firewallServiceUnit iface namespaces subnets defaultDeny, m.host.clock + 1⟩, ?_, Nat.le_succ _⟩
      simp [run, exec, effect, asGiven]
    · have h1 : Firewall.firewallUnitPath ≠ Firewall.bridgeScaffoldPath ++ ".tmp" := by decide
      have h2 : Firewall.firewallUnitPath ≠ Firewall.bridgeScaffoldPath := by decide
      cases defaultDeny <;> simp [Command.writes, h1, h2]
  case writeCorrosionConfig cfg gossipTls =>
    obtain rfl := List.mem_singleton.1 hp
    change ∃ f, (run asGiven m.host (Cmd.writeCorrosionConfig cfg gossipTls).script).files _ = some f ∧ _
    unfold Cmd.script
    simp only [run_andThen]
    refine hdoc _ ?_ _ _ _
    rw [clock_run, clock_run]
    omega
  case writeCorrosionSchema =>
    obtain rfl := List.mem_singleton.1 hp
    change ∃ f, (run asGiven m.host Cmd.writeCorrosionSchema.script).files _ = some f ∧ _
    unfold Cmd.script
    simp only [run_andThen]
    refine hdoc _ ?_ _ _ _
    rw [clock_run]
    omega
  case installCooldService mgmtIp ns flux fluxTls =>
    obtain rfl := List.mem_singleton.1 hp
    change ∃ f, (run asGiven m.host (Cmd.installCooldService mgmtIp ns flux fluxTls).script).files _ = some f ∧ _
    unfold Cmd.script
    simp only [run_andThen]
    rw [files_run_of_notMem (by simp [Command.writes])]
    refine hdoc _ ?_ _ _ _
    rw [clock_run, clock_run, clock_run, clock_run, clock_run]
    omega
  all_goals cases hp

/-- A script that ends with this command and starts nothing before. -/
def EndsWith (s : Script) (k : Command) : Prop := ∃ front, s.flatten = front ++ [k] ∧ ∀ k' ∈ front, k'.starts = []

theorem EndsWith.andThen {s t : Script} {k : Command} (hs : ∀ k' ∈ s.flatten, k'.starts = []) (ht : EndsWith t k) :
    EndsWith (andThen s t) k := by
  obtain ⟨front, hfront, hstarts⟩ := ht
  refine ⟨s.flatten ++ front, by rw [flatten_andThen, hfront, List.append_assoc], fun k' hk' => ?_⟩
  rcases List.mem_append.1 hk' with hk' | hk'
  · exact hs k' hk'
  · exact hstarts k' hk'

private theorem starts_heredoc (path body mode : String) : ∀ k ∈ (heredoc path body mode).flatten, k.starts = [] := by
  simp [heredoc, Command.starts]

/-- A command that starts services does so at the end of its script, and only the firewall is restarted. -/
theorem script_of_units (h : c.actionType.units ≠ []) :
    c.actionType ≠ .installFirewall ∧ EndsWith c.script (.enableNow c.actionType.units) ∨
      c.actionType = .installFirewall ∧ EndsWith c.script (.restart Firewall.firewallServiceName) := by
  cases c
  case installFirewall iface namespaces subnets defaultDeny =>
    refine .inr ⟨rfl, EndsWith.andThen (by simp [Command.starts]) (EndsWith.andThen ?_ ?_)⟩
    · cases defaultDeny <;> simp [Command.starts]
    · exact ⟨[.daemonReload, .enable Firewall.firewallServiceName], rfl, by simp [Command.starts]⟩
  case installCorrosionService =>
    exact .inl ⟨(fun h => by cases h), EndsWith.andThen (starts_heredoc _ _ _)
      ⟨[.daemonReload], rfl, by simp [Command.starts]⟩⟩
  case installCooldService mgmtIp ns flux fluxTls =>
    refine .inl ⟨(fun h => by cases h), EndsWith.andThen (by simp [Command.starts]) (EndsWith.andThen ?_ (EndsWith.andThen
      (by simp [Command.starts]) (EndsWith.andThen (starts_heredoc _ _ _) (EndsWith.andThen (starts_heredoc _ _ _)
        (EndsWith.andThen (starts_heredoc _ _ _) ⟨[.daemonReload], rfl, by simp [Command.starts]⟩)))))⟩
    cases fluxTls with
    | none => simp
    | some tls => exact starts_heredoc _ _ _
  all_goals exact absurd rfl h

theorem host_effect_of_units (h : c.actionType.units ≠ []) : (m.effect keys c).host = run asGiven m.host c.script := by
  cases c <;> first | rfl | exact absurd rfl h

/-- A service that a command starts anew is newer than all files. -/
private theorem written_lt_started_effect (hs : Stamped m.host) (hu : u ∈ c.actionType.units)
    (hnew : m.host.started u = none ∨ c.actionType = .installFirewall) {f : File}
    (hf : (m.effect keys c).host.files p = some f) {t : Nat} (ht : (m.effect keys c).host.started u = some t) :
    f.written < t := by
  have hunits : c.actionType.units ≠ [] := List.ne_nil_of_mem hu
  rw [host_effect_of_units hunits] at hf ht
  rcases script_of_units hunits with ⟨hne, front, hscript, hstarts⟩ | ⟨hfw, front, hscript, hstarts⟩
  · refine written_lt_started hs hscript (.inr ⟨_, rfl, hu, hnew.resolve_right hne, fun k hk => ?_⟩) hf ht
    rw [hstarts k hk]
    exact List.not_mem_nil
  · obtain rfl : u = Firewall.firewallServiceName := by
      rw [hfw] at hu
      exact List.mem_singleton.1 hu
    exact written_lt_started hs hscript (.inl rfl) hf ht

/-- An agent that runs keeps its process. -/
private theorem started_effect_of_running (hu : u ≠ Firewall.firewallServiceName) {t : Nat}
    (ht : m.host.started u = some t) :
    (m.effect keys c).host.started u = some t := by
  by_cases hunits : c.actionType.units = []
  · rw [started_effect_of_notMem (by rw [hunits]; exact List.not_mem_nil), ht]
  rw [host_effect_of_units hunits]
  refine started_run_of_running ht fun k hk => ?_
  rintro rfl
  have hfront : ∀ {front : List Command}, (∀ k' ∈ front, k'.starts = []) → Command.restart u ∉ front :=
    fun hstarts hmem => by cases hstarts _ hmem
  rcases script_of_units hunits with ⟨-, front, hscript, hstarts⟩ | ⟨-, front, hscript, hstarts⟩
  · rw [hscript] at hk
    rcases List.mem_append.1 hk with hk | hk
    · exact hfront hstarts hk
    · cases List.mem_singleton.1 hk
  · rw [hscript] at hk
    rcases List.mem_append.1 hk with hk | hk
    · exact hfront hstarts hk
    · cases List.mem_singleton.1 hk
      exact hu rfl

end Effect

/-! ### Rows of commands -/

section Row

variable {keys : String × String} {m : Machine} {u p : String} {paths : List String} {cmds front svc back : List Cmd}

private theorem stamped_exec (hs : Stamped m.host) : Stamped (m.exec keys cmds).host :=
  exec_invariant (P := fun m => Stamped m.host) (fun _ _ _ => stamped_effect) hs

/-- What has not been written by the row is older. -/
private theorem fresh_of_kept (hs : Stamped m.host) (hkept : ∀ c ∈ cmds, ∀ p ∈ paths, p ∉ c.actionType.files) :
    Fresh m.host.clock u paths (m.exec keys cmds) := by
  intro p hp f t hf hsince ht
  rw [files_exec_of_notMem fun c hc => hkept c hc p hp] at hf
  exact absurd (hs.written p f hf) (Nat.not_lt.2 hsince)

/-- A service that is started after the writes of its row, if at all, is newer than they are. -/
private theorem fresh_of_start (hs : Stamped m.host) (hfront : ∀ c ∈ front, u ∉ c.actionType.units)
    (hnew : m.host.started u = none ∨ u = Firewall.firewallServiceName)
    (hsvc : ∃ c, svc = [c] ∧ u ∈ c.actionType.units ∧
      (u = Firewall.firewallServiceName → c.actionType = .installFirewall))
    (hback : ∀ c ∈ back, u ∉ c.actionType.units ∧ ∀ p ∈ paths, p ∉ c.actionType.files) (since : Nat) :
    Fresh since u paths (m.exec keys (front ++ svc ++ back)) := by
  obtain ⟨c, rfl, hu, hfw⟩ := hsvc
  intro p hp f t hf _ ht
  rw [exec_append, exec_append] at hf ht
  rw [files_exec_of_notMem fun c hc => (hback c hc).2 p hp] at hf
  rw [started_exec_of_notMem fun c hc => (hback c hc).1] at ht
  refine written_lt_started_effect (stamped_exec hs) hu ?_ hf ht
  rcases hnew with hnone | hname
  · exact .inl (by rw [started_exec_of_notMem hfront, hnone])
  · exact .inr (hfw hname)

/-- A service that is not started at all has no process. -/
private theorem fresh_of_stopped (hnone : m.host.started u = none) (hcmds : ∀ c ∈ cmds, u ∉ c.actionType.units)
    (since : Nat) :
    Fresh since u paths (m.exec keys cmds) := by
  intro p _ f t _ _ ht
  rw [started_exec_of_notMem hcmds, hnone] at ht
  cases ht

/-- The process of an agent that runs is older than what is installed for it. -/
private theorem not_fresh_of_running (hs : Stamped m.host) {t : Nat} (ht : m.host.started u = some t)
    (hu : u ≠ Firewall.firewallServiceName) (hp : p ∈ paths) (hfiles : ∀ t : ActionType, p ∈ t.files → p ∈ t.installs)
    {c : Cmd} (hc : c ∈ cmds) (hinstalls : p ∈ c.actionType.installs) :
    ¬ Fresh m.host.clock u paths (m.exec keys cmds) := by
  intro hfresh
  have hrunning : (m.exec keys cmds).host.started u = some t :=
    exec_invariant (P := fun m => m.host.started u = some t) (fun _ _ _ => started_effect_of_running hu) ht
  obtain ⟨f, hf, hsince⟩ : ∃ f, (m.exec keys cmds).host.files p = some f ∧ m.host.clock ≤ f.written := by
    -- the clock does not go back, so a file that is put in place later is from later
    have hnew : ∀ c : Cmd, p ∈ c.actionType.installs → ∀ m' : Machine, m.host.clock ≤ m'.host.clock →
        ∃ f, (m'.effect keys c).host.files p = some f ∧ m.host.clock ≤ f.written := by
      intro c hp m' hle
      obtain ⟨f, hf, hle'⟩ := clock_le_written hp
      exact ⟨f, hf, hle.trans hle'⟩
    refine exec_holds (I := fun m' => m.host.clock ≤ m'.host.clock)
      (P := fun m' => ∃ f, m'.host.files p = some f ∧ m.host.clock ≤ f.written)
      (fun _ _ _ hle => hle.trans le_clock_effect) (fun c' _ m' hle hf => ?_) (Nat.le_refl _)
      (.inr ⟨c, hc, hnew c hinstalls⟩)
    by_cases hp' : p ∈ c'.actionType.files
    · exact hnew c' (hfiles _ hp') m' hle
    · rwa [files_effect_of_notMem hp']
  have hlt := hfresh p hp f t hf hsince hrunning
  have hold := hs.started u t ht
  omega

end Row

/-! ### The commands of a host -/

section HostCmds

variable {sha256Hex : List UInt8 → String} {d : DesiredMesh} {current fresh : MeshState} {planned : Plan}
  {mgmt : Dict String Ipv4Addr} {subnets : Subnets} {host : String} {keys : String × String} {m : Machine}

theorem planned_hostCmds {c : Cmd} (hc : c ∈ hostCmds d planned current fresh mgmt subnets host) :
    shouldRun planned host c.actionType "" = true := by
  obtain ⟨s, hs, rfl⟩ := List.mem_map.1 hc
  suffices hs : s.Planned planned host from shouldRun_of_ns hs
  simp only [List.mem_append, List.mem_ite_nil_right] at hs
  rcases hs with (hs | hs) | ⟨-, hs⟩
  · exact planned_phase1 hs
  · exact planned_phase2 hs
  · exact planned_phase3 hs

/-- What is planned for an agent is carried out. -/
theorem exists_hostCmds (hplan : IsPlan sha256Hex d current planned) {t : ActionType} (ht : t.phase = 3)
    (hrun : shouldRun planned host t "" = true) :
    ∃ c ∈ hostCmds d planned current fresh mgmt subnets host, c.actionType = t := by
  have hagents : (d.isNode host && d.installCoold) = true := by
    have htest := (hplan.hostTest_of_shouldRun hrun).2
    cases t <;> first | exact (Bool.and_eq_true_iff.1 htest).1 | cases ht
  suffices h : ∃ s ∈ phase3 d planned host mgmt subnets, s.cmd.actionType = t by
    obtain ⟨s, hs, rfl⟩ := h
    refine ⟨s.cmd, List.mem_map_of_mem ?_, rfl⟩
    rw [if_pos hagents]
    exact List.mem_append_right _ hs
  unfold phase3
  simp only [List.mem_append, mem_stepIf]
  cases t with
  | installCorrosion => exact ⟨_, .inl (.inl (.inl (.inl (.inl ⟨hrun, rfl⟩)))), rfl⟩
  | installCoold => exact ⟨_, .inl (.inl (.inl (.inl (.inr ⟨hrun, rfl⟩)))), rfl⟩
  | writeCorrosionConfig => exact ⟨_, .inl (.inl (.inl (.inr ⟨hrun, rfl⟩))), rfl⟩
  | writeCorrosionSchema => exact ⟨_, .inl (.inl (.inr ⟨hrun, rfl⟩)), rfl⟩
  | installCorrosionService => exact ⟨_, .inl (.inr ⟨hrun, rfl⟩), rfl⟩
  | installCooldService => exact ⟨_, .inr ⟨hrun, rfl⟩, rfl⟩
  | _ => cases ht

/-- A row has at most one command of an action, and after it only commands of later ones. -/
def Around (cmds : List Cmd) (t : ActionType) (later : ActionType → Prop) : Prop :=
  ∃ front svc back, cmds = front ++ svc ++ back ∧ (∀ c ∈ front, c.actionType ≠ t) ∧
    (svc = [] ∨ ∃ c, svc = [c] ∧ c.actionType = t) ∧ ∀ c ∈ back, later c.actionType

section Around

variable {cmds cmds' : List Cmd} {t : ActionType} {later : ActionType → Prop}

private theorem around_of_ne (h : ∀ c ∈ cmds, c.actionType ≠ t) : Around cmds t later :=
  ⟨cmds, [], [], by simp, h, .inl rfl, by simp⟩

private theorem around_stepIf (test : Bool) (ns : String) {cmd : Cmd} (h : cmd.actionType = t) :
    Around ((stepIf test t ns cmd).map Step.cmd) t later := by
  refine ⟨[], (stepIf test t ns cmd).map Step.cmd, [], by simp, by simp, ?_, by simp⟩
  cases test
  · exact .inl rfl
  · exact .inr ⟨cmd, rfl, h⟩

private theorem Around.append_front (hfront : ∀ c ∈ cmds, c.actionType ≠ t) (h : Around cmds' t later) :
    Around (cmds ++ cmds') t later := by
  obtain ⟨front, svc, back, rfl, hne, hsvc, hback⟩ := h
  refine ⟨cmds ++ front, svc, back, by simp, fun c hc => ?_, hsvc, hback⟩
  exact (List.mem_append.1 hc).elim (hfront c) (hne c)

private theorem Around.append_back (h : Around cmds t later) (hback' : ∀ c ∈ cmds', later c.actionType) :
    Around (cmds ++ cmds') t later := by
  obtain ⟨front, svc, back, rfl, hne, hsvc, hback⟩ := h
  refine ⟨front, svc, back ++ cmds', by simp, hne, hsvc, fun c hc => ?_⟩
  exact (List.mem_append.1 hc).elim (hback c) (hback' c)

end Around

private theorem ne_of_phase {c : Cmd} {t : ActionType} (h : c.phase ≠ t.phase) : c.actionType ≠ t := by
  rintro rfl
  exact h rfl

/-- The first two phases install no agents. -/
private theorem ne_of_mem_front {c : Cmd} {t : ActionType} (ht : t.phase = 3)
    (hc : c ∈ (phase1 d planned host current).map Step.cmd ++
      (phase2 d planned host mgmt subnets fresh).map Step.cmd) : c.actionType ≠ t := by
  refine ne_of_phase ?_
  rw [ht]
  rcases List.mem_append.1 hc with hc | hc
  · obtain ⟨s, hs, rfl⟩ := List.mem_map.1 hc
    rw [phase_of_mem_phase1 hs]
    decide
  · obtain ⟨s, hs, rfl⟩ := List.mem_map.1 hc
    rw [phase_of_mem_phase2 hs]
    decide

/-- coold is started last. -/
private theorem around_coold : Around (hostCmds d planned current fresh mgmt subnets host)
    .installCooldService fun _ => False := by
  unfold hostCmds
  rw [List.map_append, List.map_append]
  refine Around.append_front (fun c hc => ne_of_mem_front rfl hc) ?_
  cases d.isNode host && d.installCoold with
  | false => exact around_of_ne (by simp)
  | true =>
    rw [if_pos rfl]
    unfold phase3
    dsimp only
    rw [List.map_append]
    refine Around.append_front (fun c hc => ?_) (around_stepIf _ _ rfl)
    obtain ⟨s, hs, rfl⟩ := List.mem_map.1 hc
    simp only [List.mem_append, mem_stepIf] at hs
    rcases hs with (((⟨-, rfl⟩ | ⟨-, rfl⟩) | ⟨-, rfl⟩) | ⟨-, rfl⟩) | ⟨-, rfl⟩ <;> exact fun h => by cases h

/-- Corrosion is started before coold. -/
private theorem around_corrosion :
    Around (hostCmds d planned current fresh mgmt subnets host) .installCorrosionService (· = .installCooldService) := by
  unfold hostCmds
  rw [List.map_append, List.map_append]
  refine Around.append_front (fun c hc => ne_of_mem_front rfl hc) ?_
  cases d.isNode host && d.installCoold with
  | false => exact around_of_ne (by simp)
  | true =>
    rw [if_pos rfl]
    unfold phase3
    dsimp only
    rw [List.map_append, List.map_append]
    refine Around.append_back (Around.append_front (fun c hc => ?_) (around_stepIf _ _ rfl)) fun c hc => ?_
    · obtain ⟨s, hs, rfl⟩ := List.mem_map.1 hc
      simp only [List.mem_append, mem_stepIf] at hs
      rcases hs with ((⟨-, rfl⟩ | ⟨-, rfl⟩) | ⟨-, rfl⟩) | ⟨-, rfl⟩ <;> exact fun h => by cases h
    · obtain ⟨s, hs, rfl⟩ := List.mem_map.1 hc
      obtain ⟨-, rfl⟩ := mem_stepIf.1 hs
      rfl

/-- The firewall is restarted before the third phase. -/
private theorem around_firewall :
    Around (hostCmds d planned current fresh mgmt subnets host) .installFirewall (ActionType.phase · = 3) := by
  unfold hostCmds
  rw [List.map_append, List.map_append]
  refine Around.append_back (Around.append_front (fun c hc => ?_) ?_) fun c hc => ?_
  · obtain ⟨s, hs, rfl⟩ := List.mem_map.1 hc
    refine ne_of_phase ?_
    rw [phase_of_mem_phase1 hs]
    decide
  · unfold phase2
    dsimp only
    rw [List.map_append]
    refine Around.append_front (fun c hc => ?_) ?_
    · obtain ⟨s, hs, rfl⟩ := List.mem_map.1 hc
      simp only [List.mem_append, mem_stepIf] at hs
      rcases hs with ⟨-, rfl⟩ | ⟨-, rfl⟩
      · exact fun h => by cases h
      · dsimp only
        split <;> exact fun h => by cases h
    · cases d.isNode host && d.installPodman with
      | false => exact around_of_ne (by simp)
      | true =>
        rw [if_pos rfl, List.map_append]
        refine Around.append_front (fun c hc => ?_) (around_stepIf _ _ rfl)
        obtain ⟨s, hs, rfl⟩ := List.mem_map.1 hc
        obtain ⟨ns, -, hs⟩ := List.mem_flatMap.1 hs
        unfold networkSteps at hs
        dsimp only at hs
        split at hs
        · rw [List.mem_singleton] at hs
          subst hs
          exact fun h => by cases h
        · obtain ⟨-, rfl⟩ := mem_stepIf.1 hs
          exact fun h => by cases h
  · obtain ⟨s, hs, rfl⟩ := List.mem_map.1 hc
    exact phase_of_mem_phase3 (List.mem_ite_nil_right.1 hs).2

/-- Of the agents that run, none gets anything new by the plan. -/
def AgentsLeft (planned : Plan) (host : String) (m : Machine) : Prop :=
  (m.isActive "coold" = true → ∀ t ∈ [ActionType.installCoold, .installCooldService],
    shouldRun planned host t "" = false) ∧
  (m.isActive "corrosion" = true →
    ∀ t ∈ [ActionType.installCorrosion, .writeCorrosionConfig, .writeCorrosionSchema],
      shouldRun planned host t "" = false)

/-- The plan leaves an agent what the tests on the probed state leave it, and what the intent drops. -/
theorem agentsLeft_iff (hplan : IsPlan sha256Hex d current planned) (hhost : host ∈ d.hosts) {m : Machine} :
    AgentsLeft planned host m ↔
      (m.isActive "coold" = true → ∀ t ∈ [ActionType.installCoold, .installCooldService],
        hostTest sha256Hex d current planned.mgmtAssignments planned.subnetAssignments host t = true →
          dropsType sha256Hex d current host t = true) ∧
      (m.isActive "corrosion" = true →
        ∀ t ∈ [ActionType.installCorrosion, .writeCorrosionConfig, .writeCorrosionSchema],
          hostTest sha256Hex d current planned.mgmtAssignments planned.subnetAssignments host t = true →
            dropsType sha256Hex d current host t = true) := by
  have hleft : ∀ t, shouldRun planned host t "" = false ↔
      (hostTest sha256Hex d current planned.mgmtAssignments planned.subnetAssignments host t = true →
        dropsType sha256Hex d current host t = true) := by
    intro t
    rw [hplan.shouldRun_eq_hostTest hhost, Bool.and_eq_false_imp]
    simp
  unfold AgentsLeft
  simp only [hleft]

/-- The agent of a unit is fresh after the commands if and only if, where it runs, none of them installs what it uses. -/
private theorem fresh_agent_iff (hplan : IsPlan sha256Hex d current planned) (hs : Stamped m.host) {unit : String}
    {paths : List String} {t : ActionType} {later : ActionType → Prop} {types : List ActionType}
    (hunit : unit ≠ Firewall.firewallServiceName)
    (haround : Around (hostCmds d planned current fresh mgmt subnets host) t later)
    (hunits : ∀ t' : ActionType, unit ∈ t'.units ↔ t' = t)
    (hlater : ∀ t' : ActionType, later t' → t' ≠ t ∧ ∀ p ∈ paths, p ∉ t'.files)
    (hinstalls : ∀ p ∈ paths, ∀ t' : ActionType, p ∈ t'.files → p ∈ t'.installs)
    (htypes : ∀ t' : ActionType, t' ∈ types ↔ ∃ p ∈ paths, p ∈ t'.installs)
    (hthird : ∀ t' ∈ types, t'.phase = 3) :
    Fresh m.host.clock unit paths (m.exec keys (hostCmds d planned current fresh mgmt subnets host)) ↔
      (m.isActive unit = true → ∀ t' ∈ types, shouldRun planned host t' "" = false) := by
  obtain ⟨front, svc, back, hcmds, hfront, hsvc, hback⟩ := haround
  cases hrun : m.host.started unit with
  | none =>
    have hidle : m.isActive unit = false := by simp [Machine.isActive, hrun]
    rw [hidle, hcmds]
    refine ⟨(fun _ h => by cases h), fun _ => ?_⟩
    rcases hsvc with rfl | ⟨c, rfl, hc⟩
    · refine fresh_of_stopped hrun (fun c hc => ?_) _
      rw [hunits]
      rcases List.mem_append.1 hc with hc | hc
      · rw [List.append_nil] at hc
        exact hfront c hc
      · exact (hlater _ (hback c hc)).1
    · refine fresh_of_start hs (fun c hc => ?_) (.inl hrun) ⟨c, rfl, (hunits _).2 hc, fun h => absurd h hunit⟩
        (fun c hc => ⟨?_, (hlater _ (hback c hc)).2⟩) _
      · rw [hunits]
        exact hfront c hc
      · rw [hunits]
        exact (hlater _ (hback c hc)).1
  | some started =>
    have hactive : m.isActive unit = true := by simp [Machine.isActive, hrun]
    constructor
    · intro hfresh _ t' ht'
      by_contra hplanned
      have hex : ∃ c ∈ hostCmds d planned current fresh mgmt subnets host, c.actionType = t' :=
        exists_hostCmds hplan (hthird t' ht') (by simpa using hplanned)
      obtain ⟨c, hc, rfl⟩ := hex
      obtain ⟨p, hp, hinst⟩ := (htypes _).1 ht'
      exact not_fresh_of_running hs hrun hunit hp (hinstalls p hp) hc hinst hfresh
    · intro hnone
      refine fresh_of_kept hs fun c hc p hp hfile => ?_
      have hfalse := hnone hactive _ ((htypes _).2 ⟨p, hp, hinstalls p hp _ hfile⟩)
      rw [planned_hostCmds hc] at hfalse
      cases hfalse

private theorem fresh_firewall (hs : Stamped m.host) :
    Fresh m.host.clock Firewall.firewallServiceName [Firewall.firewallUnitPath]
      (m.exec keys (hostCmds d planned current fresh mgmt subnets host)) := by
  have haround : Around (hostCmds d planned current fresh mgmt subnets host) .installFirewall (ActionType.phase · = 3) :=
    around_firewall
  obtain ⟨front, svc, back, hcmds, hfront, hsvc, hback⟩ := haround
  have hunits : ∀ t : ActionType, Firewall.firewallServiceName ∈ t.units → t = .installFirewall := by
    intro t
    cases t <;> decide
  have hfiles : ∀ t : ActionType, Firewall.firewallUnitPath ∈ t.files → t = .installFirewall := by
    intro t
    cases t <;> decide
  have hlater : ∀ t : ActionType, t.phase = 3 → t ≠ .installFirewall := by
    rintro t ht rfl
    cases ht
  rw [hcmds]
  rcases hsvc with rfl | ⟨c, rfl, hc⟩
  · refine fresh_of_kept hs fun c hc p hp hfile => ?_
    obtain rfl := List.mem_singleton.1 hp
    rw [List.append_nil] at hc
    rcases List.mem_append.1 hc with hc | hc
    · exact hfront c hc (hfiles _ hfile)
    · exact hlater _ (hback c hc) (hfiles _ hfile)
  · refine fresh_of_start hs (fun c hc hu => hfront c hc (hunits _ hu)) (.inr rfl) ⟨c, rfl, ?_, fun _ => hc⟩
      (fun c hc => ⟨fun hu => hlater _ (hback c hc) (hunits _ hu), fun p hp hfile => ?_⟩) _
    · rw [hc]
      exact List.mem_singleton_self _
    · obtain rfl := List.mem_singleton.1 hp
      exact hlater _ (hback c hc) (hfiles _ hfile)

/-- The processes of a host are up to date after its commands if and only if no running agent gets anything new. -/
private theorem upToDate_iff (hplan : IsPlan sha256Hex d current planned) (hs : Stamped m.host) :
    UpToDate m.host.clock (m.exec keys (hostCmds d planned current fresh mgmt subnets host)) ↔
      AgentsLeft planned host m := by
  have hcoold : Fresh m.host.clock "coold" [binPath "coold", CooldService.unitPath]
      (m.exec keys (hostCmds d planned current fresh mgmt subnets host)) ↔
        (m.isActive "coold" = true → ∀ t ∈ [ActionType.installCoold, .installCooldService],
          shouldRun planned host t "" = false) :=
    fresh_agent_iff hplan hs (by decide) around_coold (by intro t; cases t <;> decide) (fun _ h => h.elim)
      (by intro p hp t; revert p; cases t <;> decide) (by intro t; cases t <;> decide) (by decide)
  have hcorrosion : Fresh m.host.clock "corrosion" [binPath "corrosion", Corrosion.configPath, Corrosion.schemaPath]
      (m.exec keys (hostCmds d planned current fresh mgmt subnets host)) ↔
        (m.isActive "corrosion" = true →
          ∀ t ∈ [ActionType.installCorrosion, .writeCorrosionConfig, .writeCorrosionSchema],
            shouldRun planned host t "" = false) :=
    fresh_agent_iff hplan hs (by decide) around_corrosion (by intro t; cases t <;> decide)
      (by rintro _ rfl; decide) (by intro p hp t; revert p; cases t <;> decide)
      (by intro t; cases t <;> decide) (by decide)
  unfold UpToDate usedBy AgentsLeft
  simp only [List.forall_mem_cons]
  rw [hcoold, hcorrosion]
  simp [fresh_firewall hs]

end HostCmds

/-- After a run that succeeds the processes of all nodes are newer than what the run has installed for them if and only
if no agent that was running gets a new binary, configuration, schema or unit. -/
theorem agents_restarted (sha256Hex : List UInt8 → String) (d : DesiredMesh) (current : MeshState) (env : Env)
    (keygen : String → String × String) (w : World) (hw : ∀ host ∈ d.nodes, Stamped (w host).host) {log : Log}
    (hok : (applyMesh sha256Hex d current env).result = .ok log) :
    ∃ planned, buildPlan sha256Hex d current = .ok planned ∧
      ((∀ host ∈ d.nodes, UpToDate (w host).host.clock
          (execLog keygen w (applyMesh sha256Hex d current env).log host)) ↔
        ∀ host ∈ d.nodes, AgentsLeft planned host (w host)) := by
  obtain ⟨planned, log₁, mgmt, subnets, hr, hcmds⟩ := cmdsOf_of_ok hok
  refine ⟨planned, hr.plan, forall₂_congr fun host hhost => ?_⟩
  rw [execLog_apply, hcmds host, if_pos (d.nodes_subset host hhost)]
  exact upToDate_iff (isPlan_of_buildPlan hr.plan) (hw host hhost)

/-- All commands succeed, and the second probe reports in full. -/
def envOk (sha256Hex : List UInt8 → String) (d : DesiredMesh) (keygen : String → String × String) (w : World) : Env where
  fails _ _ := none
  reprobe log := probeMesh sha256Hex d (execLog keygen w log)

/-- On a blank host everything is started after it is installed. -/
theorem agents_restarted_blank :
    let d := meshOf ["a"]
    let w : World := fun _ => Machine.blank
    let env := envOk (fun _ => "0") d (fun host => (host, host)) w
    UpToDate 0 (execLog (fun host => (host, host)) w
      (applyMesh (fun _ => "0") d (probeMesh (fun _ => "0") d w) env).log "a") := by
  intro d w env
  obtain ⟨log, hok⟩ := result_ok
    (show (applyMesh (fun _ => "0") d (probeMesh (fun _ => "0") d w) env).result.toOption.isSome = true by decide)
  obtain ⟨planned, -, hiff⟩ := agents_restarted (fun _ => "0") d (probeMesh (fun _ => "0") d w) env
    (fun host => (host, host)) w (fun _ _ => ⟨(fun _ _ h => by cases h), fun _ _ h => by cases h⟩) hok
  exact hiff.2 (fun _ _ => ⟨(fun h => by cases h), fun h => by cases h⟩) "a" (by decide)

/-- coold runs in an old version: it is installed anew and keeps its process. -/
theorem stale_coold :
    let d := meshOf ["a"]
    let old : Machine := { Machine.blank with host :=
      { clock := 2
        files := fun p => if p = binPath "coold" ∨ p = versionPath "coold" then some ⟨"v0\n", 0⟩ else none
        started := fun u => if u = "coold" then some 1 else none } }
    let w : World := fun _ => old
    let env := envOk (fun _ => "0") d (fun host => (host, host)) w
    let run := applyMesh (fun _ => "0") d (probeMesh (fun _ => "0") d w) env
    (∃ log, run.result = .ok log) ∧ ¬ UpToDate 2 (execLog (fun host => (host, host)) w run.log "a") := by
  intro d old w env run
  refine ⟨result_ok (by decide), fun h => ?_⟩
  have hcoold : Fresh 2 "coold" [binPath "coold", CooldService.unitPath]
      (execLog (fun host => (host, host)) w run.log "a") := h _ List.mem_cons_self
  have hstarted : (execLog (fun host => (host, host)) w run.log "a").host.started "coold" = some 1 := by decide
  have hwritten : ((execLog (fun host => (host, host)) w run.log "a").host.files (binPath "coold")).any
      (fun f => decide (2 ≤ f.written)) = true := by decide
  generalize execLog (fun host => (host, host)) w run.log "a" = after at hcoold hstarted hwritten
  obtain ⟨f, hf, hle⟩ := (Option.any_eq_true _ _).1 hwritten
  have hlt := hcoold _ List.mem_cons_self f 1 hf (by simpa using hle) hstarted
  have hle : 2 ≤ f.written := by simpa using hle
  omega

end Coold.Cli
