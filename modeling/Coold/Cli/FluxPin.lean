import Coold.Cli.Restart

/-!
# The pin of flux over a history of runs

Every run makes a new certificate for flux and writes it on the operator's side before it plans anything.  On a node the
certificate is pinned by the command that installs the unit of coold, and the test for this action looks at the unit,
not at the pin.  So after a run the pins are those of its certificate exactly if it has installed the unit on every
node (`pins_match`), and a run that finds nothing to do leaves an earlier certificate pinned (`stale_pin`).
-/

namespace Coold.Cli

open Shell

/-- The machines, and the certificate in the output directory on the operator's side. -/
structure Site where
  world : World
  fluxTlsOut : Option SelfSignedCert

/-- One invocation: the mesh that is asked for, with its new certificate, what the first probes report, and what the
remote side makes of the commands. -/
structure InitRun where
  desired : DesiredMesh
  current : MeshState
  env : Env
  keygen : String → String × String

/-- The certificate is written first; an empty plan is not carried out. -/
def runApply (sha256Hex : List UInt8 → String) (r : InitRun) (s : Site) : Site × Except CliError Unit :=
  let s := match r.desired.fluxTls with
    | some cert => { s with fluxTlsOut := some cert }
    | none => s
  match buildPlan sha256Hex r.desired r.current with
  | .error e => (s, .error e)
  | .ok plan =>
    if plan.isEmpty then (s, .ok ())
    else
      let run := applyMesh sha256Hex r.desired r.current r.env
      ({ s with world := execLog r.keygen s.world run.log }, run.result.map fun _ => ())

/-- What is pinned on a host. -/
def World.fluxPin (w : World) (host : String) : Option String := ((w host).host.files fluxPinPath).map File.content

/-- The certificate is new: nobody has pinned it. -/
def FreshCert (r : InitRun) (s : Site) : Prop :=
  ∃ cert, r.desired.fluxTls = some cert ∧ ∀ host ∈ r.desired.nodes, s.world.fluxPin host ≠ some cert.certPem

/-- A history of runs that succeed, each with a new certificate, with the sites they leave. -/
inductive History (sha256Hex : List UInt8 → String) : Site → List (InitRun × Site) → Prop where
  | nil (s : Site) : History sha256Hex s []
  | cons {s s' : Site} {r : InitRun} {rest : List (InitRun × Site)} (hrun : runApply sha256Hex r s = (s', .ok ()))
      (hfresh : FreshCert r s) (hrest : History sha256Hex s' rest) : History sha256Hex s ((r, s') :: rest)

/-- Every node has pinned the certificate in the output directory. -/
def PinsMatch (r : InitRun) (s : Site) : Prop :=
  ∃ cert, s.fluxTlsOut = some cert ∧ ∀ host ∈ r.desired.nodes, s.world.fluxPin host = some cert.certPem

/-- The unit of coold is installed on every node. -/
def InstallsAll (sha256Hex : List UInt8 → String) (r : InitRun) : Prop :=
  ∃ planned, buildPlan sha256Hex r.desired r.current = .ok planned ∧
    ∀ host ∈ r.desired.nodes, shouldRun planned host .installCooldService "" = true

section Pin

variable {sha256Hex : List UInt8 → String} {d : DesiredMesh} {current fresh : MeshState} {planned : Plan}
  {mgmt : Dict String Ipv4Addr} {subnets : Subnets} {host : String} {keys : String × String} {m : Machine}
  {cert : SelfSignedCert}

private theorem fluxPinPath_mem_files {t : ActionType} (h : fluxPinPath ∈ t.files) : t = .installCooldService := by
  revert h
  cases t <;> decide

/-- The command of the unit carries the certificate of the run. -/
private theorem cooldService_of_mem {c : Cmd} (hc : c ∈ hostCmds d planned current fresh mgmt subnets host)
    (ht : c.actionType = .installCooldService) :
    c = .installCooldService (mgmtOf mgmt host) (nsConfigs d subnets host) d.cooldFluxConfig d.fluxTls := by
  obtain ⟨s, hs, rfl⟩ := List.mem_map.1 hc
  simp only [List.mem_append, List.mem_ite_nil_right] at hs
  rcases hs with (hs | hs) | ⟨-, hs⟩
  · have hphase := phase_of_mem_phase1 hs
    rw [Cmd.phase, ht] at hphase
    cases hphase
  · have hphase := phase_of_mem_phase2 hs
    rw [Cmd.phase, ht] at hphase
    cases hphase
  · simp only [phase3, List.mem_append, mem_stepIf] at hs
    rcases hs with ((((⟨-, rfl⟩ | ⟨-, rfl⟩) | ⟨-, rfl⟩) | ⟨-, rfl⟩) | ⟨-, rfl⟩) | ⟨-, rfl⟩ <;> first | rfl | cases ht

/-- It pins the certificate. -/
private theorem fluxPin_effect (mgmtIp : Ipv4Addr) (ns : List CooldService.CooldNamespace) (flux : Option FluxConfig) :
    ((m.effect keys (.installCooldService mgmtIp ns flux (some cert))).host.files fluxPinPath).map File.content =
      some cert.certPem := by
  change ((run asGiven m.host (Cmd.installCooldService mgmtIp ns flux (some cert)).script).files fluxPinPath).map
    File.content = _
  unfold Cmd.script
  simp only [run_andThen]
  have hothers : ∀ path ∈ ["/etc/systemd/resolved.conf.d/coolify-internal.conf", CooldService.meshDnsAnchorPath,
      CooldService.meshDnsResolverPath, CooldService.unitPath], fluxPinPath ≠ path ∧ fluxPinPath ≠ path ++ ".tmp" := by
    decide
  simp only [List.forall_mem_cons] at hothers
  obtain ⟨hrm, hanchor, hresolver, hunit, -⟩ := hothers
  rw [files_run_of_notMem (by simp [Command.writes]),
    files_run_of_notMem (by simp [heredoc, Command.writes, hunit]),
    files_run_of_notMem (by simp [heredoc, Command.writes, hresolver]),
    files_run_of_notMem (by simp [heredoc, Command.writes, hanchor]),
    files_run_of_notMem (by simp [Command.writes, hrm]), files_heredoc]
  rfl

/-- After the commands of a node the new certificate is pinned if and only if its unit was to be installed. -/
private theorem fluxPin_exec_iff (hplan : IsPlan sha256Hex d current planned) (hcert : d.fluxTls = some cert)
    (hold : (m.host.files fluxPinPath).map File.content ≠ some cert.certPem) :
    ((m.exec keys (hostCmds d planned current fresh mgmt subnets host)).host.files fluxPinPath).map File.content =
      some cert.certPem ↔ shouldRun planned host .installCooldService "" = true := by
  constructor
  · intro hpin
    by_contra hrun
    rw [files_exec_of_notMem] at hpin
    · exact hold hpin
    · intro c hc hfile
      have htype := fluxPinPath_mem_files hfile
      have hplanned := planned_hostCmds hc
      rw [htype] at hplanned
      exact hrun hplanned
  · intro hrun
    have hex : ∃ c ∈ hostCmds d planned current fresh mgmt subnets host, c.actionType = .installCooldService :=
      exists_hostCmds hplan rfl hrun
    obtain ⟨c, hc, ht⟩ := hex
    have hpins : ∀ c ∈ hostCmds d planned current fresh mgmt subnets host, c.actionType = .installCooldService →
        ∀ m : Machine, ((m.effect keys c).host.files fluxPinPath).map File.content = some cert.certPem := by
      intro c hc ht m
      rw [cooldService_of_mem hc ht, hcert]
      exact fluxPin_effect _ _ _
    refine exec_holds (I := fun _ => True) (P := fun m => (m.host.files fluxPinPath).map File.content = some cert.certPem)
      (fun _ _ _ _ => trivial) (fun c' hc' m' _ hpin => ?_) trivial (.inr ⟨c, hc, fun m _ => hpins c hc ht m⟩)
    by_cases hfile : fluxPinPath ∈ c'.actionType.files
    · exact hpins c' hc' (fluxPinPath_mem_files hfile) m'
    · rwa [files_effect_of_notMem hfile]

end Pin

section Runs

variable {sha256Hex : List UInt8 → String} {r : InitRun} {s s' : Site}

/-- The unit is installed on every node if and only if the test for it says so of the probed state of every node: no
intent drops it. -/
theorem installsAll_iff :
    InstallsAll sha256Hex r ↔
      ∃ planned, buildPlan sha256Hex r.desired r.current = .ok planned ∧ ∀ host ∈ r.desired.nodes,
        hostTest sha256Hex r.desired r.current planned.mgmtAssignments planned.subnetAssignments host
          .installCooldService = true := by
  unfold InstallsAll
  refine exists_congr fun planned => and_congr_right fun hplan => forall₂_congr fun host hhost => ?_
  rw [(isPlan_of_buildPlan hplan).shouldRun_eq_hostTest (r.desired.nodes_subset host hhost), dropsType]
  cases r.desired.intent <;> simp [extensionDrops, upgradeDrops]

/-- One run that succeeds. -/
private theorem pinsMatch_runApply_iff (hrun : runApply sha256Hex r s = (s', .ok ())) (hfresh : FreshCert r s) :
    PinsMatch r s' ↔ InstallsAll sha256Hex r := by
  obtain ⟨cert, hcert, hnew⟩ := hfresh
  unfold runApply at hrun
  rw [hcert] at hrun
  dsimp only at hrun
  cases hplan : buildPlan sha256Hex r.desired r.current with
  | error e =>
    rw [hplan] at hrun
    cases hrun
  | ok planned =>
    rw [hplan] at hrun
    dsimp only at hrun
    have hinst : InstallsAll sha256Hex r ↔
        ∀ host ∈ r.desired.nodes, shouldRun planned host .installCooldService "" = true := by
      unfold InstallsAll
      rw [hplan]
      exact ⟨(fun ⟨_, heq, h⟩ => by cases heq; exact h), fun h => ⟨planned, rfl, h⟩⟩
    have hmatch : ∀ w : World, PinsMatch r ⟨w, some cert⟩ ↔
        ∀ host ∈ r.desired.nodes, w.fluxPin host = some cert.certPem := by
      intro w
      exact ⟨(fun ⟨_, heq, h⟩ => by cases heq; exact h), fun h => ⟨cert, rfl, h⟩⟩
    rw [hinst]
    split at hrun
    next hempty =>
      -- nothing is carried out, so the pins are the old ones
      cases hrun
      rw [hmatch]
      refine forall₂_congr fun host hhost => iff_of_false (hnew host hhost) ?_
      unfold shouldRun
      rw [List.isEmpty_iff.1 hempty]
      simp
    next =>
      rw [Prod.mk.injEq] at hrun
      obtain ⟨rfl, hres⟩ := hrun
      rw [hmatch]
      obtain ⟨log, hok⟩ : ∃ log, (applyMesh sha256Hex r.desired r.current r.env).result = .ok log := by
        cases hr : (applyMesh sha256Hex r.desired r.current r.env).result with
        | error err => rw [hr] at hres; cases hres
        | ok log => exact ⟨log, rfl⟩
      obtain ⟨planned', log₁, mgmt, subnets, hr, hcmds⟩ := cmdsOf_of_ok hok
      obtain rfl : planned' = planned := by
        have hplan' := hr.plan
        rw [hplan] at hplan'
        exact (Except.ok.inj hplan').symm
      refine forall₂_congr fun host hhost => ?_
      unfold World.fluxPin
      rw [execLog_apply, hcmds host, if_pos (r.desired.nodes_subset host hhost)]
      exact fluxPin_exec_iff (isPlan_of_buildPlan hr.plan) hcert (hnew host hhost)

/-- After every run of a history the certificate of the run is pinned on all its nodes if and only if every run has
installed the unit of coold on all its nodes. -/
theorem pins_match {hist : List (InitRun × Site)} (h : History sha256Hex s hist) :
    (∀ e ∈ hist, PinsMatch e.1 e.2) ↔ ∀ e ∈ hist, InstallsAll sha256Hex e.1 := by
  induction h with
  | nil s => simp
  | cons hrun hfresh hrest ih =>
    rw [List.forall_mem_cons, List.forall_mem_cons]
    exact and_congr (pinsMatch_runApply_iff hrun hfresh) ih

end Runs

/-! ### A mesh of one node -/

/-- Flux is served under this name, with this certificate. -/
def fluxMesh (cert : String) : DesiredMesh :=
  { meshOf ["a"] with fluxTls := some ⟨cert, ""⟩, fluxTlsUrl := some "https://flux:6443" }

/-- A run in which every host answers and every command succeeds. -/
def fluxRun (cert : String) (w : World) : InitRun where
  desired := fluxMesh cert
  current := probeMesh (fun _ => "0") (fluxMesh cert) w
  env := envOk (fun _ => "0") (fluxMesh cert) (fun host => (host, host)) w
  keygen host := (host, host)

private theorem history_cons {r : InitRun} {s : Site} {rest : List (InitRun × Site)}
    (hok : (runApply (fun _ => "0") r s).2.toOption.isSome = true) (hfresh : FreshCert r s)
    (hrest : History (fun _ => "0") (runApply (fun _ => "0") r s).1 rest) :
    History (fun _ => "0") s ((r, (runApply (fun _ => "0") r s).1) :: rest) := by
  refine History.cons (Prod.ext rfl ?_) hfresh hrest
  cases hr : (runApply (fun _ => "0") r s).2 with
  | error e => rw [hr] at hok; cases hok
  | ok u => rfl

private theorem freshCert_fluxRun {cert : String} {s : Site} (h : s.world.fluxPin "a" ≠ some cert) :
    FreshCert (fluxRun cert s.world) s := by
  refine ⟨_, rfl, fun host hhost => ?_⟩
  obtain rfl := List.mem_singleton.1 hhost
  exact h

/-- The site before anything was installed. -/
def blankSite : Site := ⟨fun _ => Machine.blank, none⟩

/-- The site after one run. -/
def fluxSite (cert : String) (s : Site) : Site := (runApply (fun _ => "0") (fluxRun cert s.world) s).1

/-- The first run pins its certificate. -/
theorem pins_match_first : PinsMatch (fluxRun "one" blankSite.world) (fluxSite "one" blankSite) := by
  have hist : History (fun _ => "0") blankSite [(fluxRun "one" blankSite.world, fluxSite "one" blankSite)] :=
    history_cons (by decide) (freshCert_fluxRun (by decide)) (.nil _)
  refine (pins_match hist).2 (List.forall_mem_singleton.2 ?_) _ (List.mem_singleton_self _)
  obtain ⟨planned, hplan, hrun⟩ := exists_buildPlan (p := fun planned => shouldRun planned "a" .installCooldService "")
    (show (buildPlan (fun _ => "0") (fluxMesh "one") (probeMesh (fun _ => "0") (fluxMesh "one")
      blankSite.world)).toOption.any _ = true by decide)
  refine ⟨planned, hplan, fun host hhost => ?_⟩
  obtain rfl := List.mem_singleton.1 hhost
  exact hrun

/-- A site on which everything is as it should be, with an earlier certificate pinned. -/
def pinnedSite : Site where
  world _ :=
    { host :=
        { clock := 1
          files := fun p => some ⟨if p = fluxPinPath then "one" else "v1", 0⟩
          started := fun _ => some 0 }
      wgInstalled := true
      conf := some ⟨some 0x64400001, 51820, []⟩
      wgActive := true
      podmanInstalled := true
      podmanSocketActive := true
      ipForwardEnabled := true
      networks := Dict.collect [("coolify-default-mesh", ⟨some (.ofLen 0x0AD20000 24), false, "default"⟩)]
      defaultDenyActive := false
      nftAvailable := true }
  fluxTlsOut := some ⟨"one", ""⟩

/-- The next run has nothing to do and leaves the earlier certificate pinned. -/
theorem stale_pin :
    History (fun _ => "0") pinnedSite [(fluxRun "two" pinnedSite.world, fluxSite "two" pinnedSite)] ∧
      ¬ PinsMatch (fluxRun "two" pinnedSite.world) (fluxSite "two" pinnedSite) := by
  refine ⟨history_cons (by decide) (freshCert_fluxRun (by decide)) (.nil _), ?_⟩
  rintro ⟨cert, hout, hpins⟩
  have hpin := hpins "a" (List.mem_singleton_self _)
  have hsame : ((fluxSite "two" pinnedSite).world.fluxPin "a" ==
      (fluxSite "two" pinnedSite).fluxTlsOut.map SelfSignedCert.certPem) = false := by decide
  rw [hpin, hout] at hsame
  simp at hsame

end Coold.Cli
