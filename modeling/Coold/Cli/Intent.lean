import Coold.Cli.State
import Coold.Lib.Str

/-!
# Planned actions and the intent of a run

A plan lists actions by host.  A bootstrap keeps all of them; an extension keeps on the existing hosts only what joins
them to the new ones, and an upgrade keeps the binaries and the services that run them.  What is dropped is listed with
the reason, so that every action is in exactly one of the two lists (`filterByIntent_spec`).
-/

namespace Coold.Cli

inductive ActionType where
  | installWg
  | genKeyPair
  | allocateMgmtIp
  | allocateContainerSubnet
  | writeConfig
  | enableService
  | reloadService
  | addPeer
  | removePeer
  | installPodman
  | enablePodmanSocket
  | enableIpForward
  | createPodmanNetwork
  | recreatePodmanNetwork
  | installFirewall
  | installCorrosion
  | installCoold
  | writeCorrosionConfig
  | writeCorrosionSchema
  | installCorrosionService
  | installCooldService
  deriving DecidableEq

structure PlannedAction where
  host : String
  ns : String
  actionType : ActionType
  detail : String
  deriving DecidableEq

structure SkippedAction where
  action : PlannedAction
  reason : String
  deriving DecidableEq

structure Plan where
  actions : List PlannedAction
  mgmtAssignments : Dict String Ipv4Addr
  subnetAssignments : Subnets
  warnings : List Warning
  skipped : List SkippedAction

def Plan.isEmpty (plan : Plan) : Bool := plan.actions.isEmpty

inductive Category where
  | safeAlways
  | peerRefresh
  | destructiveReplace
  | versionBump
  | wipeDb
  | schemaFirstWrite
  deriving DecidableEq

/-- `contains` of a string in a string. -/
def containsText (s pattern : String) : Bool := decide (pattern.toList <:+: s.toList)

def categorize (a : PlannedAction) : Category :=
  match a.actionType with
  | .installWg | .genKeyPair | .allocateMgmtIp | .allocateContainerSubnet | .enableService | .installPodman
  | .enablePodmanSocket | .enableIpForward | .createPodmanNetwork | .addPeer | .removePeer => .safeAlways
  | .writeConfig | .reloadService | .installFirewall | .writeCorrosionConfig | .installCorrosionService
  | .installCooldService => .peerRefresh
  | .recreatePodmanNetwork => .destructiveReplace
  | .installCorrosion | .installCoold => .versionBump
  | .writeCorrosionSchema => if containsText a.detail "DB will be reset" then .wipeDb else .schemaFirstWrite

def validateIntent (d : DesiredMesh) : Except CliError Unit :=
  match d.intent with
  | .bootstrap => .ok ()
  | .extend =>
    if d.newNodes = [] then .error (.bail "extend mode requires at least one node in --new-nodes")
    else
      match d.newNodes.find? fun h => h ∉ d.nodes with
      | some h =>
        let quoted := String.quote h
        .error (.bail s!"extend mode: new node {quoted} not in --nodes list")
      | none => .ok ()
  | .upgrade =>
    let versions :=
      if d.nodes = [] then [] else [("--coold-version", d.cooldVersion), ("--corrosion-version", d.corrosionVersion)]
    match versions.find? fun v => v.2 = "nightly" with
    | some v =>
      if d.allowNightly then .ok ()
      else
        .error (.bail ("upgrade mode rejects " ++ v.1 ++ "=nightly (moving target forces re-install every run); " ++
          "pin a version or pass --allow-nightly"))
    | none => .ok ()

/-- Why an action is dropped, if it is. -/
def decideAction (a : PlannedAction) (d : DesiredMesh) : Option String :=
  match d.intent with
  | .bootstrap => none
  | .extend =>
    if a.host ∈ d.newNodes then none
    else
      match categorize a with
      | .safeAlways | .peerRefresh | .schemaFirstWrite => none
      | .destructiveReplace =>
        if d.allowReplace then none
        else some "extend: destructive-replace on existing host blocked; pass --allow-replace to override"
      | .versionBump =>
        some ("extend: version-bump on existing host skipped; " ++
          "use \x60coolify init upgrade\x60 to bump versions")
      | .wipeDb =>
        some ("extend: corrosion DB wipe on existing host is never allowed; " ++
          "resolve schema drift with \x60coolify init upgrade\x60 on a fresh schema")
  | .upgrade =>
    match categorize a with
    | .versionBump => none
    | .peerRefresh =>
      if a.actionType = .installCorrosionService ∨ a.actionType = .installCooldService then none
      else
        some ("upgrade: peer-refresh skipped; " ++ "use \x60coolify init extend\x60 for mesh topology changes")
    | _ => some "upgrade: non-version-bump action skipped"

def filterByIntent (plan : Plan) (d : DesiredMesh) : Plan :=
  if d.intent = .bootstrap then plan
  else
    { plan with
      actions := plan.actions.filter fun a => (decideAction a d).isNone
      skipped := plan.skipped ++ plan.actions.filterMap fun a => (decideAction a d).map fun reason => ⟨a, reason⟩ }

/-- Whether a plan has an action of this type for the host, and for the namespace if one is given. -/
def shouldRun (plan : Plan) (host : String) (actionType : ActionType) (ns : String) : Bool :=
  plan.actions.any fun a => a.host == host && a.actionType == actionType && (ns.isEmpty || a.ns == ns)

theorem decideAction_bootstrap {d : DesiredMesh} (a : PlannedAction) (h : d.intent = .bootstrap) :
    decideAction a d = none := by
  simp [decideAction, h]

/-- The kept actions are the ones no reason speaks against, the skipped ones the others, both in the order of the
plan. -/
theorem filterByIntent_spec (plan : Plan) (d : DesiredMesh) :
    (filterByIntent plan d).actions = plan.actions.filter (fun a => (decideAction a d).isNone) ∧
      (filterByIntent plan d).skipped =
        plan.skipped ++ plan.actions.filterMap (fun a => (decideAction a d).map fun reason => ⟨a, reason⟩) := by
  unfold filterByIntent
  split
  next h => simp [decideAction_bootstrap _ h]
  next => exact ⟨rfl, rfl⟩

theorem shouldRun_iff {plan : Plan} {host ns : String} {t : ActionType} :
    shouldRun plan host t ns = true ↔
      ∃ a ∈ plan.actions, a.host = host ∧ a.actionType = t ∧ (ns = "" ∨ a.ns = ns) := by
  simp [shouldRun, and_assoc]

theorem shouldRun_of_ns {plan : Plan} {host ns : String} {t : ActionType} (h : shouldRun plan host t ns = true) :
    shouldRun plan host t "" = true := by
  obtain ⟨a, ha, hhost, ht, -⟩ := shouldRun_iff.1 h
  exact shouldRun_iff.2 ⟨a, ha, hhost, ht, .inl rfl⟩

end Coold.Cli
