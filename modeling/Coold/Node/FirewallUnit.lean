import Coold.Cli.Services
import Coold.Lib.Netfilter

/-!
# The firewall unit

The unit `coolify-mesh-fw.service` is a list of start commands.  `Line` are its lines as commands, and their texts are
the lines of the unit that the command line tool writes (`map_text_unitLines`).  `startUnit` runs them, up to the first
that fails.

The effect of a start on the filter table: `filter_startUnit_deny` and `startUnit_permit`.
-/

namespace Coold.Node

open Netfilter Cli

/-! ### Rules -/

inductive Chain where
  | forward
  | intra
  | allow
  deriving DecidableEq

instance : Fintype Chain := ⟨{.forward, .intra, .allow}, fun c => by cases c <;> simp⟩

def Chain.name : Chain → String
  | .forward => "FORWARD"
  | .intra => "COOLIFY-INTRA"
  | .allow => "COOLIFY-ALLOW"

/-- What a rule of the filter table matches; `A` are the allow rules. -/
inductive Cond (A : Type) where
  | addrs (src dst : Ipv4Net)
  | established
  | allowed (rule : A)
  deriving DecidableEq

/-- The network of an address, with the bits behind the mask set to zero. -/
def trunc (net : Ipv4Net) : Ipv4Net := ⟨net.network, net.prefixLen, net.le⟩

def anyNet : Ipv4Net := .ofLen 0 0

/-- The arguments of a rule. -/
inductive RuleSpec where
  | source (net : Ipv4Net) (target : Target Chain)
  | dest (net : Ipv4Net) (target : Target Chain)
  | established (target : Target Chain)
  | all (target : Target Chain)
  deriving DecidableEq

def targetName : Target Chain → String
  | .accept => "ACCEPT"
  | .drop => "DROP"
  | .jump c => c.name

def RuleSpec.text : RuleSpec → String
  | .source net target => "-s " ++ toString net ++ " -j " ++ targetName target
  | .dest net target => "-d " ++ toString net ++ " -j " ++ targetName target
  | .established target => "-m conntrack --ctstate ESTABLISHED,RELATED -j " ++ targetName target
  | .all target => "-j " ++ targetName target

/-- The rule for some arguments; an address that is not given is any address. -/
def RuleSpec.rule (A : Type) : RuleSpec → Rule (Cond A) Chain
  | .source net target => ⟨.addrs (trunc net) anyNet, target⟩
  | .dest net target => ⟨.addrs anyNet (trunc net), target⟩
  | .established target => ⟨.established, target⟩
  | .all target => ⟨.addrs anyNet anyNet, target⟩

/-- The rule of the chain `COOLIFY-ALLOW` for an allow rule. -/
def allowRule {A : Type} (rule : A) : Rule (Cond A) Chain := ⟨.allowed rule, .accept⟩

structure Packet where
  src : Ipv4Addr
  dst : Ipv4Addr
  established : Bool
  service : Option (String × UInt32)
  deriving DecidableEq

/-- Whether a rule matches a packet, where `hit` says it of the allow rules. -/
def Cond.hits {A : Type} (hit : A → Packet → Bool) : Cond A → Packet → Bool
  | .addrs src dst, p => src.contains p.src && dst.contains p.dst
  | .established, p => p.established
  | .allowed rule, p => hit rule p

/-! ### The bridge table -/

inductive BridgeChain where
  | coolifyAllow
  | coolifyIntra
  | forward
  deriving DecidableEq

instance : Fintype BridgeChain := ⟨{.coolifyAllow, .coolifyIntra, .forward}, fun c => by cases c <;> simp⟩

def BridgeChain.name : BridgeChain → String
  | .coolifyAllow => "coolify_allow"
  | .coolifyIntra => "coolify_intra"
  | .forward => "forward"

inductive BridgeCond (A : Type) where
  | all
  | notIp
  | established
  | saddr (nets : List Ipv4Net)
  | daddr (nets : List Ipv4Net)
  | allowed (rule : A)
  deriving DecidableEq

abbrev BridgeRule (A : Type) := Rule (BridgeCond A) BridgeChain

/-- The rule of the chain `coolify_allow` for an allow rule. -/
def bridgeAllowRule {A : Type} (rule : A) : BridgeRule A := ⟨.allowed rule, .accept⟩

/-- The commands of the scaffold; the base chain is added with its hook. -/
def scaffoldOps (A : Type) (subnets : List Ipv4Net) : List (ScriptOp (BridgeRule A) BridgeChain) :=
  [.addChain .coolifyIntra, .flushChain .coolifyIntra, .addRule .coolifyIntra ⟨.all, .jump .coolifyAllow⟩,
    .addRule .coolifyIntra ⟨.all, .drop⟩, .addChain .forward, .flushChain .forward,
    .addRule .forward ⟨.notIp, .accept⟩, .addRule .forward ⟨.established, .accept⟩,
    .addRule .forward ⟨.saddr subnets, .jump .coolifyIntra⟩, .addRule .forward ⟨.daddr subnets, .jump .coolifyIntra⟩]

/-! ### The lines of the unit -/

/-- A line of the unit, or a few of them. -/
inductive Line where
  | heading (lines : List String)
  /-- Keep the traffic of a subnet to the mesh from being masqueraded. -/
  | nat (iface : String) (subnet : Ipv4Net)
  | orTrue (op : Op RuleSpec Chain)
  | orElse (check op : Op RuleSpec Chain)
  | must (op : Op RuleSpec Chain)
  | restoreAllow
  | addBridgeTable
  | addBridgeAllow
  | deleteBridgeChain (chain : BridgeChain)
  | loadScaffold (subnets : List Ipv4Net)
  | loadBridgeAllow
  | deleteBridgeTable

def opText : Op RuleSpec Chain → String
  | .new c => "-N " ++ c.name
  | .flush c => "-F " ++ c.name
  | .append c s => "-A " ++ c.name ++ " " ++ s.text
  | .insert c num s => "-I " ++ c.name ++ (if num then " 1 " else " ") ++ s.text
  | .delete c s => "-D " ++ c.name ++ " " ++ s.text
  | .check c s => "-C " ++ c.name ++ " " ++ s.text
  | .deleteChain c => "-X " ++ c.name

def iptables (op : Op RuleSpec Chain) : String := "/usr/sbin/iptables " ++ opText op

open Cli.Firewall in
def Line.texts : Line → List String
  | .heading lines => lines
  | .nat iface subnet => natLines iface subnet
  | .orTrue op => [Cli.Firewall.orTrue (iptables op)]
  | .orElse check op => [startSh (iptables check ++ " 2>/dev/null || " ++ iptables op)]
  | .must op => ["ExecStart=" ++ iptables op]
  | .restoreAllow =>
    [startSh ("[ -s " ++ allowRulesPath ++ " ] && " ++ iptables (.flush .allow) ++
      " && /usr/sbin/iptables-restore --noflush < " ++ allowRulesPath ++ " || true")]
  | .addBridgeTable =>
    [startSh ("nft list table bridge " ++ bridgeTableName ++ " >/dev/null 2>&1 || nft add table bridge " ++
      bridgeTableName)]
  | .addBridgeAllow =>
    [Cli.Firewall.orTrue ("nft add chain bridge " ++ bridgeTableName ++ " " ++ BridgeChain.coolifyAllow.name ++
      " '\x7b \x7d'")]
  | .deleteBridgeChain c => [Cli.Firewall.orTrue ("nft delete chain bridge " ++ bridgeTableName ++ " " ++ c.name)]
  | .loadScaffold _ => [startSh ("nft -f " ++ bridgeScaffoldPath)]
  | .loadBridgeAllow =>
    [startSh ("[ -s " ++ bridgeAllowRulesPath ++ " ] && nft -f " ++ bridgeAllowRulesPath ++ " || true")]
  | .deleteBridgeTable => [Cli.Firewall.orTrue ("nft delete table bridge " ++ bridgeTableName)]

/-- Add a rule to the front of a chain, or to its end, unless it is there. -/
def insertLine (num : Bool) (spec : RuleSpec) : Line := .orElse (.check .forward spec) (.insert .forward num spec)
def appendLine (spec : RuleSpec) : Line := .orElse (.check .forward spec) (.append .forward spec)
def deleteLine (spec : RuleSpec) : Line := .orTrue (.delete .forward spec)

/-- The rules that accept the traffic of subnets, and those that hand it to `COOLIFY-INTRA`. -/
def acceptSpecs (subnets : List Ipv4Net) : List RuleSpec :=
  subnets.flatMap fun sn => [.source sn .accept, .dest sn .accept]
def jumpSpecs (subnets : List Ipv4Net) : List RuleSpec :=
  subnets.flatMap fun sn => [.dest sn (.jump .intra), .source sn (.jump .intra)]

/-- The lines of a default-deny unit for the filter table. -/
def filterDenyLines (subnets : List Ipv4Net) : List Line :=
  .heading ["# Remove blanket ACCEPT from prior mode-A run."] :: (acceptSpecs subnets).map deleteLine ++
  [.heading [""], .orTrue (.new .allow), .orTrue (.new .intra), .must (.flush .intra),
    .must (.append .intra (.all (.jump .allow))), .must (.append .intra (.all .drop)), .restoreAllow,
    insertLine true (.established .accept)] ++
  (jumpSpecs subnets).map appendLine

def bridgeDenyLines (subnets : List Ipv4Net) : List Line :=
  [.addBridgeTable, .addBridgeAllow, .deleteBridgeChain .forward, .deleteBridgeChain .coolifyIntra,
    .loadScaffold subnets, .loadBridgeAllow]

def permitUnitLines (subnets : List Ipv4Net) : List Line :=
  [.heading ["# Tear down default-deny scaffold from prior run."], .orTrue (.flush .intra), .orTrue (.deleteChain .intra),
    .deleteBridgeTable] ++
  (acceptSpecs subnets).map (insertLine false)

/-- The unit for the subnets of a host. -/
def unitLines (iface : String) (subnets : List Ipv4Net) (defaultDeny : Bool) : List Line :=
  .heading ["[Unit]", "Description=Coolify mesh firewall rules",
    s!"After=wg-quick@{iface}.service network-online.target", "Wants=network-online.target", "", "[Service]",
    "Type=oneshot", "RemainAfterExit=yes", ""] ::
  subnets.map (.nat iface) ++
  (if defaultDeny then filterDenyLines subnets ++ bridgeDenyLines subnets else permitUnitLines subnets) ++
  [.heading ["", "[Install]", "WantedBy=multi-user.target"]]

private theorem iptables_check (s : RuleSpec) :
    iptables (.check .forward s) = "/usr/sbin/iptables " ++ "-C FORWARD" ++ " " ++ s.text := by
  have h : "-C FORWARD" = "-C " ++ "FORWARD" := by decide
  rw [h]
  unfold iptables opText Chain.name
  simp only [String.append_assoc]

private theorem texts_orElse (check command : String) {a b : Op RuleSpec Chain} (s : RuleSpec)
    (ha : iptables a = "/usr/sbin/iptables " ++ check ++ " " ++ s.text)
    (hb : iptables b = "/usr/sbin/iptables " ++ command ++ " " ++ s.text) :
    (Line.orElse a b).texts = [Cli.Firewall.orElse "" check command s.text] := by
  have h : " 2>/dev/null || /usr/sbin/iptables " = " 2>/dev/null || " ++ "/usr/sbin/iptables " := by decide
  unfold Line.texts Cli.Firewall.orElse
  dsimp only
  rw [ha, hb, h]
  simp only [String.append_assoc, String.empty_append]

private theorem texts_insertLine (s : RuleSpec) :
    (insertLine false s).texts = [Cli.Firewall.orElse "" "-C FORWARD" "-I FORWARD" s.text] := by
  refine texts_orElse _ _ s (iptables_check s) ?_
  have h : "-I FORWARD" = "-I " ++ "FORWARD" := by decide
  rw [h]
  unfold iptables opText Chain.name
  simp only [String.append_assoc, Bool.false_eq_true, if_false]

private theorem texts_appendLine (s : RuleSpec) :
    (appendLine s).texts = [Cli.Firewall.orElse "" "-C FORWARD" "-A FORWARD" s.text] := by
  refine texts_orElse _ _ s (iptables_check s) ?_
  have h : "-A FORWARD" = "-A " ++ "FORWARD" := by decide
  rw [h]
  unfold iptables opText Chain.name
  simp only [String.append_assoc]

private theorem texts_deleteLine (s : RuleSpec) :
    (deleteLine s).texts = [Cli.Firewall.orTrue ("/usr/sbin/iptables -D FORWARD " ++ s.text)] := by
  have h : "/usr/sbin/iptables -D FORWARD " = "/usr/sbin/iptables " ++ ("-D " ++ ("FORWARD" ++ " ")) := by
    decide
  rw [h]
  unfold deleteLine Line.texts iptables opText Chain.name
  simp only [String.append_assoc]

private theorem flatMap_texts_map (line : RuleSpec → Line) (specs : Ipv4Net → List RuleSpec) (subnets : List Ipv4Net) :
    ((subnets.flatMap specs).map line).flatMap Line.texts =
      subnets.flatMap fun sn => ((specs sn).map line).flatMap Line.texts := by
  rw [List.map_flatMap, List.flatMap_assoc]

private theorem texts_acceptSpecs (subnets : List Ipv4Net) :
    ((acceptSpecs subnets).map (insertLine false)).flatMap Line.texts = subnets.flatMap fun sn =>
      [Cli.Firewall.orElse "" "-C FORWARD" "-I FORWARD" ("-s " ++ toString sn ++ " -j ACCEPT"),
        Cli.Firewall.orElse "" "-C FORWARD" "-I FORWARD" ("-d " ++ toString sn ++ " -j ACCEPT")] := by
  have h : " -j ACCEPT" = " -j " ++ "ACCEPT" := by decide
  rw [acceptSpecs, flatMap_texts_map, h]
  refine List.flatMap_congr fun sn _ => ?_
  simp only [List.map_cons, List.map_nil, List.flatMap_cons, List.flatMap_nil, texts_insertLine, List.cons_append,
    List.nil_append]
  unfold RuleSpec.text targetName
  simp only [String.append_assoc]

private theorem texts_permitUnitLines (subnets : List Ipv4Net) :
    (permitUnitLines subnets).flatMap Line.texts = Cli.Firewall.permitLines subnets := by
  have hhead : [Line.heading ["# Tear down default-deny scaffold from prior run."], .orTrue (.flush .intra),
      .orTrue (.deleteChain .intra), .deleteBridgeTable].flatMap Line.texts =
      ["# Tear down default-deny scaffold from prior run.", Cli.Firewall.orTrue "/usr/sbin/iptables -F COOLIFY-INTRA",
        Cli.Firewall.orTrue "/usr/sbin/iptables -X COOLIFY-INTRA",
        Cli.Firewall.orTrue ("nft delete table bridge " ++ Cli.Firewall.bridgeTableName)] := by
    decide
  unfold Cli.Firewall.permitLines permitUnitLines
  rw [List.flatMap_append, hhead, texts_acceptSpecs]

private theorem texts_deleteSpecs (subnets : List Ipv4Net) :
    ((acceptSpecs subnets).map deleteLine).flatMap Line.texts = subnets.flatMap fun sn =>
      [Cli.Firewall.orTrue ("/usr/sbin/iptables -D FORWARD -s " ++ toString sn ++ " -j ACCEPT"),
        Cli.Firewall.orTrue ("/usr/sbin/iptables -D FORWARD -d " ++ toString sn ++ " -j ACCEPT")] := by
  have h : " -j ACCEPT" = " -j " ++ "ACCEPT" := by decide
  have hs : "/usr/sbin/iptables -D FORWARD -s " = "/usr/sbin/iptables -D FORWARD " ++ "-s " := by decide
  have hd : "/usr/sbin/iptables -D FORWARD -d " = "/usr/sbin/iptables -D FORWARD " ++ "-d " := by decide
  rw [acceptSpecs, flatMap_texts_map, h, hs, hd]
  refine List.flatMap_congr fun sn _ => ?_
  simp only [List.map_cons, List.map_nil, List.flatMap_cons, List.flatMap_nil, texts_deleteLine, List.cons_append,
    List.nil_append]
  unfold RuleSpec.text targetName
  simp only [String.append_assoc]

private theorem texts_jumpSpecs (subnets : List Ipv4Net) :
    ((jumpSpecs subnets).map appendLine).flatMap Line.texts = subnets.flatMap fun sn =>
      [Cli.Firewall.orElse "" "-C FORWARD" "-A FORWARD" ("-d " ++ toString sn ++ " -j COOLIFY-INTRA"),
        Cli.Firewall.orElse "" "-C FORWARD" "-A FORWARD" ("-s " ++ toString sn ++ " -j COOLIFY-INTRA")] := by
  have h : " -j COOLIFY-INTRA" = " -j " ++ "COOLIFY-INTRA" := by decide
  rw [jumpSpecs, flatMap_texts_map, h]
  refine List.flatMap_congr fun sn _ => ?_
  simp only [List.map_cons, List.map_nil, List.flatMap_cons, List.flatMap_nil, texts_appendLine, List.cons_append,
    List.nil_append]
  unfold RuleSpec.text targetName Chain.name
  simp only [String.append_assoc]

private theorem texts_denyLines (subnets : List Ipv4Net) :
    (filterDenyLines subnets ++ bridgeDenyLines subnets).flatMap Line.texts = Cli.Firewall.denyLines subnets := by
  have hmiddle : [Line.heading [""], .orTrue (.new .allow), .orTrue (.new .intra), .must (.flush .intra),
      .must (.append .intra (.all (.jump .allow))), .must (.append .intra (.all .drop)), .restoreAllow,
      insertLine true (.established .accept)].flatMap Line.texts =
      ["", Cli.Firewall.orTrue "/usr/sbin/iptables -N COOLIFY-ALLOW",
        Cli.Firewall.orTrue "/usr/sbin/iptables -N COOLIFY-INTRA", "ExecStart=/usr/sbin/iptables -F COOLIFY-INTRA",
        "ExecStart=/usr/sbin/iptables -A COOLIFY-INTRA -j COOLIFY-ALLOW",
        "ExecStart=/usr/sbin/iptables -A COOLIFY-INTRA -j DROP",
        Cli.Firewall.startSh ("[ -s " ++ Cli.Firewall.allowRulesPath ++ " ] && /usr/sbin/iptables -F COOLIFY-ALLOW && " ++
          "/usr/sbin/iptables-restore --noflush < " ++ Cli.Firewall.allowRulesPath ++ " || true"),
        Cli.Firewall.orElse "" "-C FORWARD" "-I FORWARD 1" "-m conntrack --ctstate ESTABLISHED,RELATED -j ACCEPT"] := by
    decide +kernel
  have hbridge : (bridgeDenyLines subnets).flatMap Line.texts = (bridgeDenyLines []).flatMap Line.texts := rfl
  have hend : (bridgeDenyLines []).flatMap Line.texts =
      [Cli.Firewall.startSh ("nft list table bridge " ++ Cli.Firewall.bridgeTableName ++
          " >/dev/null 2>&1 || nft add table bridge " ++ Cli.Firewall.bridgeTableName),
        Cli.Firewall.orTrue ("nft add chain bridge " ++ Cli.Firewall.bridgeTableName ++ " coolify_allow '\x7b \x7d'"),
        Cli.Firewall.orTrue ("nft delete chain bridge " ++ Cli.Firewall.bridgeTableName ++ " forward"),
        Cli.Firewall.orTrue ("nft delete chain bridge " ++ Cli.Firewall.bridgeTableName ++ " coolify_intra"),
        Cli.Firewall.startSh ("nft -f " ++ Cli.Firewall.bridgeScaffoldPath),
        Cli.Firewall.startSh ("[ -s " ++ Cli.Firewall.bridgeAllowRulesPath ++ " ] && nft -f " ++
          Cli.Firewall.bridgeAllowRulesPath ++ " || true")] := by
    decide
  unfold Cli.Firewall.denyLines filterDenyLines
  rw [List.flatMap_append, List.flatMap_append, List.flatMap_append, List.flatMap_cons, hmiddle, hbridge, hend,
    texts_deleteSpecs, texts_jumpSpecs]
  rfl

/-- The lines are those that the command line tool writes. -/
theorem texts_unitLines (iface : String) (subnets : List Ipv4Net) (defaultDeny : Bool) :
    (unitLines iface subnets defaultDeny).flatMap Line.texts =
      Cli.Firewall.firewallUnitLines iface subnets defaultDeny := by
  have hnat : (subnets.map (Line.nat iface)).flatMap Line.texts = subnets.flatMap (Cli.Firewall.natLines iface) := by
    rw [List.flatMap_map]
    rfl
  have hmode : (if defaultDeny = true then filterDenyLines subnets ++ bridgeDenyLines subnets
      else permitUnitLines subnets).flatMap Line.texts =
      if defaultDeny = true then Cli.Firewall.denyLines subnets else Cli.Firewall.permitLines subnets := by
    cases defaultDeny with
    | true => exact texts_denyLines subnets
    | false => exact texts_permitUnitLines subnets
  unfold Cli.Firewall.firewallUnitLines unitLines
  rw [List.flatMap_append, List.flatMap_append, List.flatMap_cons, hnat, hmode]
  rfl

/-! ### Running the unit -/

/-- What the tools make of their files: the allow rules that `iptables-restore` and `nft -f` read from the two
snapshots, `none` where they refuse the file, and the subnets of which `nft` makes a set. -/
structure Tools (A B B' : Type) where
  restore : B → Option (List A)
  load : B' → Option (List A)
  set : List Ipv4Net → Bool

/-- What the unit works on; a snapshot is `none` if it is missing or empty. -/
structure Host (A B B' : Type) where
  filter : Table (Cond A) Chain
  postrouting : List (String × Ipv4Net)
  bridge : Option (Table (BridgeCond A) BridgeChain)
  allowRules : Option B
  bridgeAllowRules : Option B'

section Run

variable {A B B' : Type}

def Host.setForward (h : Host A B B') (rs : List (Rule (Cond A) Chain)) : Host A B B' :=
  { h with filter := Function.update h.filter .forward (some rs) }

variable {h : Host A B B'}

private theorem Host.setForward_self {forward : List (Rule (Cond A) Chain)} (hf : h.filter .forward = some forward) :
    h.setForward forward = h := by
  rw [Host.setForward, ← hf, Function.update_eq_self]

private theorem Host.setForward_setForward (rs rs' : List (Rule (Cond A) Chain)) :
    (h.setForward rs).setForward rs' = h.setForward rs' := by
  simp only [Host.setForward, Function.update_idem]

theorem Host.setForward_forward (rs : List (Rule (Cond A) Chain)) : (h.setForward rs).filter .forward = some rs := by
  simp only [Host.setForward, Function.update_self]

private theorem Host.setForward_of_ne {c : Chain} (hc : c ≠ .forward) (rs : List (Rule (Cond A) Chain)) :
    (h.setForward rs).filter c = h.filter c := by
  simp only [Host.setForward, Function.update_of_ne hc]

private theorem Host.hasTarget_setForward {rs : List (Rule (Cond A) Chain)} {target : Target Chain}
    (ht : h.filter.hasTarget target = true) : (h.setForward rs).filter.hasTarget target = true := by
  cases target with
  | jump c =>
    cases c with
    | forward => rfl
    | _ => exact ht
  | _ => rfl

variable (A) in
/-- The rules of specifications. -/
def rulesOf (specs : List RuleSpec) : List (Rule (Cond A) Chain) := specs.map (RuleSpec.rule A)

theorem target_of_mem_acceptSpecs {subnets : List Ipv4Net} {s : RuleSpec} (hs : s ∈ acceptSpecs subnets) :
    (s.rule A).target = .accept := by
  obtain ⟨sn, -, hs⟩ := List.mem_flatMap.1 hs
  simp only [List.mem_cons, List.not_mem_nil, or_false] at hs
  rcases hs with rfl | rfl <;> rfl

theorem target_of_mem_jumpSpecs {subnets : List Ipv4Net} {s : RuleSpec} (hs : s ∈ jumpSpecs subnets) :
    (s.rule A).target = .jump .intra := by
  obtain ⟨sn, -, hs⟩ := List.mem_flatMap.1 hs
  simp only [List.mem_cons, List.not_mem_nil, or_false] at hs
  rcases hs with rfl | rfl <;> rfl

variable [DecidableEq A] (tools : Tools A B B')

/-- `iptables-restore` appends the rules of its file. -/
def restoreAllow (file : B) (T : Table (Cond A) Chain) : Table (Cond A) Chain :=
  match tools.restore file with
  | none => T
  | some rules => Function.update T .allow ((T .allow).map fun old => old ++ rules.map allowRule)

def loadBridgeAllow (file : B') (T : Table (BridgeCond A) BridgeChain) : Table (BridgeCond A) BridgeChain :=
  match tools.load file with
  | none => T
  | some rules => (script id T (rules.map fun rule => .addRule .coolifyAllow (bridgeAllowRule rule))).getD T

/-- A line as a command; `none` if it fails. -/
def exec (h : Host A B B') : Line → Option (Host A B B')
  | .heading _ => some h
  | .nat iface subnet => some { h with postrouting := h.postrouting.insert (iface, trunc subnet) }
  | .orTrue op => some { h with filter := Netfilter.orTrue (RuleSpec.rule A) h.filter op }
  | .orElse check op => (Netfilter.orElse (RuleSpec.rule A) h.filter check op).map fun T => { h with filter := T }
  | .must op => (op.apply (RuleSpec.rule A) h.filter).map fun T => { h with filter := T }
  | .restoreAllow =>
    match h.allowRules, (Op.flush .allow).apply (RuleSpec.rule A) h.filter with
    | some file, some T => some { h with filter := restoreAllow tools file T }
    | _, _ => some h
  | .addBridgeTable => some { h with bridge := some (h.bridge.getD fun _ => none) }
  | .addBridgeAllow => some { h with bridge := h.bridge.map fun T => Netfilter.orTrue id T (.new .coolifyAllow) }
  | .deleteBridgeChain c => some { h with bridge := h.bridge.map fun T => Netfilter.orTrue id T (.deleteChain c) }
  | .loadScaffold subnets =>
    if tools.set subnets then
      (script id (h.bridge.getD fun _ => none) (scaffoldOps A subnets)).map fun T => { h with bridge := some T }
    else none
  | .loadBridgeAllow =>
    match h.bridgeAllowRules with
    | some file => some { h with bridge := h.bridge.map (loadBridgeAllow tools file) }
    | none => some h
  | .deleteBridgeTable => some { h with bridge := none }

/-- Run the lines up to the first that fails. -/
def runLines (h : Host A B B') : List Line → Host A B B'
  | [] => h
  | line :: rest =>
    match exec tools h line with
    | some h' => runLines h' rest
    | none => h

/-- Start the unit. -/
def startUnit (iface : String) (subnets : List Ipv4Net) (defaultDeny : Bool) (h : Host A B B') : Host A B B' :=
  runLines tools h (unitLines iface subnets defaultDeny)

/-- All of the lines run. -/
def execAll (h : Host A B B') (lines : List Line) : Option (Host A B B') := lines.foldlM (exec tools) h

variable {tools} {h' : Host A B B'}

@[simp] theorem execAll_nil : execAll tools h [] = some h := rfl

private theorem execAll_cons (line : Line) (rest : List Line) :
    execAll tools h (line :: rest) = (exec tools h line).bind fun h => execAll tools h rest := by
  rw [execAll, List.foldlM_cons]
  rfl

private theorem execAll_append (lines rest : List Line) :
    execAll tools h (lines ++ rest) = (execAll tools h lines).bind fun h => execAll tools h rest := by
  rw [execAll, List.foldlM_append]
  rfl

/-- After lines that all run the rest is run. -/
private theorem runLines_append {lines : List Line} (rest : List Line) (hl : execAll tools h lines = some h') :
    runLines tools h (lines ++ rest) = runLines tools h' rest := by
  induction lines generalizing h with
  | nil =>
    cases hl
    rfl
  | cons line lines ih =>
    rw [execAll_cons] at hl
    obtain ⟨h₁, h₁eq, hrest⟩ := Option.bind_eq_some_iff.1 hl
    rw [List.cons_append, runLines, h₁eq]
    exact ih hrest

/-- What every line keeps is kept by the lines. -/
private theorem runLines_keeps {β : Type} (f : Host A B B' → β) {lines : List Line}
    (hf : ∀ line ∈ lines, ∀ h h', exec tools h line = some h' → f h' = f h) : f (runLines tools h lines) = f h := by
  induction lines generalizing h with
  | nil => rfl
  | cons line lines ih =>
    rw [List.forall_mem_cons] at hf
    rw [runLines]
    cases hline : exec tools h line with
    | none => rfl
    | some h₁ => exact (ih hf.2).trans (hf.1 h h₁ hline)

/-! ### The filter table after a start -/

/-- The chain `FORWARD` after a default-deny start. -/
def denyForward (subnets : List Ipv4Net) (forward : List (Rule (Cond A) Chain)) : List (Rule (Cond A) Chain) :=
  (rulesOf A (jumpSpecs subnets)).foldl ensureLast
    ((forward.diff (rulesOf A (acceptSpecs subnets))).insert ⟨.established, .accept⟩)

/-- The chain `FORWARD` after a permissive start. -/
def permitForward (subnets : List Ipv4Net) (forward : List (Rule (Cond A) Chain)) : List (Rule (Cond A) Chain) :=
  (rulesOf A (acceptSpecs subnets)).foldl (fun rs r => rs.insert r) forward

/-- The allow rules after a default-deny start. -/
def restoredAllow (tools : Tools A B B') (h : Host A B B') : List (Rule (Cond A) Chain) :=
  match h.allowRules with
  | some file => ((tools.restore file).getD []).map allowRule
  | none => (h.filter .allow).getD []

/-- Lines that change the chain `FORWARD` rule by rule. -/
private theorem execAll_forward {line : RuleSpec → Line}
    {change : List (Rule (Cond A) Chain) → Rule (Cond A) Chain → List (Rule (Cond A) Chain)}
    (hline : ∀ (h : Host A B B') (s : RuleSpec) (rs : List (Rule (Cond A) Chain)), h.filter .forward = some rs →
      h.filter.hasTarget (s.rule A).target = true → exec tools h (line s) = some (h.setForward (change rs (s.rule A))))
    {specs : List RuleSpec} {forward : List (Rule (Cond A) Chain)} (hf : h.filter .forward = some forward)
    (ht : ∀ s ∈ specs, h.filter.hasTarget (s.rule A).target = true) :
    execAll tools h (specs.map line) = some (h.setForward ((rulesOf A specs).foldl change forward)) := by
  induction specs generalizing h forward with
  | nil =>
    rw [List.map_nil, execAll_nil]
    exact congrArg some (Host.setForward_self hf).symm
  | cons s specs ih =>
    rw [List.forall_mem_cons] at ht
    have hrest := ih (h := h.setForward (change forward (s.rule A))) (Host.setForward_forward _)
      fun s' hs' => Host.hasTarget_setForward (ht.2 s' hs')
    rw [List.map_cons, execAll_cons, hline h s forward hf ht.1, Option.bind_some, hrest, Host.setForward_setForward]
    rfl

private theorem exec_insertLine {num : Bool} {s : RuleSpec} {rs : List (Rule (Cond A) Chain)}
    (hf : h.filter .forward = some rs) (ht : h.filter.hasTarget (s.rule A).target = true) :
    exec tools h (insertLine num s) = some (h.setForward (rs.insert (s.rule A))) := by
  rw [insertLine, exec, orElse_insert hf ht]
  rfl

private theorem execAll_insertLines {num : Bool} {specs : List RuleSpec} {forward : List (Rule (Cond A) Chain)}
    (hf : h.filter .forward = some forward) (ht : ∀ s ∈ specs, h.filter.hasTarget (s.rule A).target = true) :
    execAll tools h (specs.map (insertLine num)) =
      some (h.setForward ((rulesOf A specs).foldl (fun rs r => rs.insert r) forward)) :=
  execAll_forward (fun _ _ _ => exec_insertLine) hf ht

private theorem exec_appendLine {s : RuleSpec} {rs : List (Rule (Cond A) Chain)} (hf : h.filter .forward = some rs)
    (ht : h.filter.hasTarget (s.rule A).target = true) :
    exec tools h (appendLine s) = some (h.setForward (ensureLast rs (s.rule A))) := by
  rw [appendLine, exec, orElse_append hf ht]
  rfl

private theorem exec_deleteLine {s : RuleSpec} {rs : List (Rule (Cond A) Chain)} (hf : h.filter .forward = some rs) :
    exec tools h (deleteLine s) = some (h.setForward (rs.erase (s.rule A))) := by
  rw [deleteLine, exec, orTrue_delete hf]
  rfl

/-- The chain `COOLIFY-INTRA` of a default-deny host. -/
def intraRules : List (Rule (Cond A) Chain) := rulesOf A [.all (.jump .allow), .all .drop]

private theorem execAll_nat (iface : String) (subnets : List Ipv4Net) :
    ∃ postrouting, execAll tools h (subnets.map (.nat iface)) = some { h with postrouting := postrouting } := by
  induction subnets generalizing h with
  | nil => exact ⟨h.postrouting, rfl⟩
  | cons sn subnets ih =>
    rw [List.map_cons, execAll_cons]
    exact ih (h := { h with postrouting := h.postrouting.insert (iface, trunc sn) })

/-- The chains of a default-deny host are made, and the allow rules are restored. -/
private theorem execAll_chains {forward : List (Rule (Cond A) Chain)} (hf : h.filter .forward = some forward) :
    ∃ h', execAll tools h [.heading [""], .orTrue (.new .allow), .orTrue (.new .intra), .must (.flush .intra),
        .must (.append .intra (.all (.jump .allow))), .must (.append .intra (.all .drop)), .restoreAllow] = some h' ∧
      h'.filter .forward = some forward ∧ h'.filter .intra = some intraRules ∧
      h'.filter .allow = some (restoredAllow tools h) ∧ h'.bridge = h.bridge ∧
      h'.bridgeAllowRules = h.bridgeAllowRules := by
  simp only [execAll_cons, exec, orTrue_new, Op.apply, Option.bind_some, Option.map_some, Function.update_self,
    Function.update_idem, execAll_nil, RuleSpec.rule, Table.hasTarget, if_true, Option.isSome_some,
    Function.update_of_ne (by decide : Chain.allow ≠ .intra)]
  cases hfile : h.allowRules with
  | none =>
    refine ⟨_, rfl, ?_, ?_, ?_, rfl, rfl⟩
    · simpa using hf
    · simp [intraRules, rulesOf, RuleSpec.rule]
    · simp [restoredAllow, hfile]
  | some file =>
    refine ⟨_, rfl, ?_, ?_, ?_, rfl, rfl⟩
    all_goals
      simp only [restoreAllow, restoredAllow, hfile]
      cases tools.restore file <;> simp [hf, intraRules, rulesOf, RuleSpec.rule]

/-- The lines of a default-deny unit for the filter table all run. -/
private theorem execAll_filterDenyLines {subnets : List Ipv4Net} {forward : List (Rule (Cond A) Chain)}
    (hf : h.filter .forward = some forward) :
    ∃ h', execAll tools h (filterDenyLines subnets) = some h' ∧
      h'.filter .forward = some (denyForward subnets forward) ∧ h'.filter .intra = some intraRules ∧
      h'.filter .allow = some (restoredAllow tools h) ∧ h'.bridge = h.bridge ∧
      h'.bridgeAllowRules = h.bridgeAllowRules := by
  have hdel : execAll tools h ((acceptSpecs subnets).map deleteLine) =
      some (h.setForward (forward.diff (rulesOf A (acceptSpecs subnets)))) := by
    rw [List.diff_eq_foldl]
    exact execAll_forward (fun _ _ _ hrs _ => exec_deleteLine hrs) hf fun s hs => by
      rw [target_of_mem_acceptSpecs hs]
      rfl
  obtain ⟨h₁, hchains, hf₁, hi₁, ha₁, hb₁, hr₁⟩ :=
    execAll_chains (Host.setForward_forward (h := h) (forward.diff (rulesOf A (acceptSpecs subnets))))
  have hins : exec tools h₁ (insertLine true (.established .accept)) =
      some (h₁.setForward ((forward.diff (rulesOf A (acceptSpecs subnets))).insert ⟨.established, .accept⟩)) :=
    exec_insertLine hf₁ rfl
  have happ : execAll tools
      (h₁.setForward ((forward.diff (rulesOf A (acceptSpecs subnets))).insert ⟨.established, .accept⟩))
      ((jumpSpecs subnets).map appendLine) = some (h₁.setForward (denyForward subnets forward)) := by
    rw [execAll_forward (fun _ _ _ => exec_appendLine) (Host.setForward_forward _), Host.setForward_setForward]
    · rfl
    · intro s hs
      rw [target_of_mem_jumpSpecs hs]
      refine Host.hasTarget_setForward ?_
      simp only [Table.hasTarget, hi₁, Option.isSome_some]
  have hlines : filterDenyLines subnets = [.heading ["# Remove blanket ACCEPT from prior mode-A run."]] ++
      ((acceptSpecs subnets).map deleteLine ++
        ([.heading [""], .orTrue (.new .allow), .orTrue (.new .intra), .must (.flush .intra),
          .must (.append .intra (.all (.jump .allow))), .must (.append .intra (.all .drop)), .restoreAllow] ++
        ([insertLine true (.established .accept)] ++ (jumpSpecs subnets).map appendLine))) := by
    simp only [filterDenyLines, List.append_assoc, List.cons_append, List.nil_append]
  refine ⟨_, ?_, Host.setForward_forward _, ?_, ?_, hb₁, hr₁⟩
  · rw [hlines, execAll_append, execAll_cons, exec, Option.bind_some, execAll_nil, Option.bind_some, execAll_append,
      hdel, Option.bind_some, execAll_append, hchains, Option.bind_some, execAll_append, execAll_cons, hins,
      Option.bind_some, execAll_nil, Option.bind_some]
    exact happ
  · rw [Host.setForward_of_ne (by decide), hi₁]
  · rw [Host.setForward_of_ne (by decide), ha₁, restoredAllow, restoredAllow, Host.setForward_of_ne (by decide)]
    rfl

/-- A start runs the lines before the mode, and then those of the mode. -/
private theorem startUnit_eq (iface : String) (subnets : List Ipv4Net) (defaultDeny : Bool) :
    ∃ postrouting, startUnit tools iface subnets defaultDeny h = runLines tools { h with postrouting := postrouting }
      ((if defaultDeny then filterDenyLines subnets ++ bridgeDenyLines subnets else permitUnitLines subnets) ++
        [.heading ["", "[Install]", "WantedBy=multi-user.target"]]) := by
  obtain ⟨postrouting, hnat⟩ := execAll_nat (h := h) iface subnets
  refine ⟨postrouting, ?_⟩
  rw [startUnit, unitLines, List.append_assoc]
  refine runLines_append _ ?_
  rw [execAll_cons, exec, Option.bind_some, hnat]

/-- A default-deny start does the lines for the filter table and goes on with those for the bridge table. -/
private theorem startUnit_deny {iface : String} {subnets : List Ipv4Net} {forward : List (Rule (Cond A) Chain)}
    (hf : h.filter .forward = some forward) :
    ∃ h', startUnit tools iface subnets true h = runLines tools h' (bridgeDenyLines subnets ++
        [.heading ["", "[Install]", "WantedBy=multi-user.target"]]) ∧
      h'.filter .forward = some (denyForward subnets forward) ∧ h'.filter .intra = some intraRules ∧
      h'.filter .allow = some (restoredAllow tools h) ∧ h'.bridge = h.bridge ∧
      h'.bridgeAllowRules = h.bridgeAllowRules := by
  obtain ⟨postrouting, hstart⟩ := startUnit_eq (h := h) iface subnets true
  obtain ⟨h', hrun, hfacts⟩ := execAll_filterDenyLines (h := { h with postrouting := postrouting }) hf
  refine ⟨h', ?_, hfacts⟩
  rw [hstart, if_pos rfl, List.append_assoc]
  exact runLines_append _ hrun

/-- The lines for the bridge table keep the filter table. -/
private theorem filter_runLines_bridge (subnets : List Ipv4Net) (rest : List String) :
    (runLines tools h (bridgeDenyLines subnets ++ [.heading rest])).filter = h.filter := by
  refine runLines_keeps Host.filter fun line hline h h' hexec => ?_
  simp only [bridgeDenyLines, List.cons_append, List.nil_append, List.mem_cons, List.not_mem_nil, or_false] at hline
  rcases hline with rfl | rfl | rfl | rfl | rfl | rfl | rfl
  · cases hexec
    rfl
  · cases hexec
    rfl
  · cases hexec
    rfl
  · cases hexec
    rfl
  · obtain ⟨-, hmap⟩ := Option.ite_none_right_eq_some.1 hexec
    obtain ⟨T, -, rfl⟩ := Option.map_eq_some_iff.1 hmap
    rfl
  · rw [exec] at hexec
    split at hexec <;> cases hexec <;> rfl
  · cases hexec
    rfl

/-- The filter table after a default-deny start. -/
theorem filter_startUnit_deny {iface : String} {subnets : List Ipv4Net} {forward : List (Rule (Cond A) Chain)}
    (hf : h.filter .forward = some forward) :
    (startUnit tools iface subnets true h).filter .forward = some (denyForward subnets forward) ∧
      (startUnit tools iface subnets true h).filter .intra = some intraRules ∧
      (startUnit tools iface subnets true h).filter .allow = some (restoredAllow tools h) := by
  obtain ⟨h', hstart, hf', hi', ha', -, -⟩ := startUnit_deny hf
  rw [hstart, filter_runLines_bridge]
  exact ⟨hf', hi', ha'⟩

/-- The chain `COOLIFY-INTRA` is gone, or empty if it is still called, and the bridge table is gone. -/
def Host.tornDown (h : Host A B B') : Host A B B' :=
  { h with
    filter := Netfilter.orTrue (RuleSpec.rule A)
      (Netfilter.orTrue (RuleSpec.rule A) h.filter (.flush .intra)) (.deleteChain .intra)
    bridge := none }

private theorem Host.filter_tornDown {c : Chain} (hc : c ≠ .intra) : h.tornDown.filter c = h.filter c :=
  (orTrue_of_ne hc).trans (orTrue_of_ne hc)

/-- The lines of a permissive unit all run. -/
private theorem execAll_permitUnitLines {subnets : List Ipv4Net} {forward : List (Rule (Cond A) Chain)}
    (hf : h.filter .forward = some forward) :
    execAll tools h (permitUnitLines subnets) = some (h.tornDown.setForward (permitForward subnets forward)) := by
  have hteardown : execAll tools h [.heading ["# Tear down default-deny scaffold from prior run."],
      .orTrue (.flush .intra), .orTrue (.deleteChain .intra), .deleteBridgeTable] = some h.tornDown := rfl
  rw [permitUnitLines, execAll_append, hteardown, Option.bind_some]
  refine execAll_insertLines ((Host.filter_tornDown (by decide)).trans hf) fun s hs => ?_
  rw [target_of_mem_acceptSpecs hs]
  rfl

/-- The filter table after a permissive start; the bridge table is gone. -/
theorem startUnit_permit {iface : String} {subnets : List Ipv4Net} {forward : List (Rule (Cond A) Chain)}
    (hf : h.filter .forward = some forward) :
    (startUnit tools iface subnets false h).filter .forward = some (permitForward subnets forward) ∧
      (startUnit tools iface subnets false h).filter .allow = h.filter .allow ∧
      (startUnit tools iface subnets false h).bridge = none := by
  obtain ⟨postrouting, hstart⟩ := startUnit_eq (h := h) iface subnets false
  have hrun : execAll tools { h with postrouting := postrouting } (permitUnitLines subnets) = some _ :=
    execAll_permitUnitLines hf
  rw [hstart, if_neg Bool.false_ne_true, runLines_append _ hrun]
  have hlast : ∀ (h : Host A B B') (lines : List String), runLines tools h [.heading lines] = h := fun _ _ => rfl
  rw [hlast]
  refine ⟨Host.setForward_forward _, ?_, rfl⟩
  rw [Host.setForward_of_ne (by decide), Host.filter_tornDown (by decide)]

/-- The unit reads the snapshots and does not write them. -/
theorem files_startUnit (iface : String) (subnets : List Ipv4Net) (defaultDeny : Bool) :
    (startUnit tools iface subnets defaultDeny h).allowRules = h.allowRules ∧
      (startUnit tools iface subnets defaultDeny h).bridgeAllowRules = h.bridgeAllowRules := by
  let read := fun h : Host A B B' => (h.allowRules, h.bridgeAllowRules)
  have hkeeps : read (startUnit tools iface subnets defaultDeny h) = read h := by
    refine runLines_keeps read fun line _ h h' hexec => ?_
    cases line with
    | orElse check op =>
      obtain ⟨T, -, rfl⟩ := Option.map_eq_some_iff.1 hexec
      rfl
    | must op =>
      obtain ⟨T, -, rfl⟩ := Option.map_eq_some_iff.1 hexec
      rfl
    | restoreAllow =>
      rw [exec] at hexec
      split at hexec <;> cases hexec <;> rfl
    | loadScaffold subnets =>
      obtain ⟨-, hmap⟩ := Option.ite_none_right_eq_some.1 hexec
      obtain ⟨T, -, rfl⟩ := Option.map_eq_some_iff.1 hmap
      rfl
    | loadBridgeAllow =>
      rw [exec] at hexec
      split at hexec <;> cases hexec <;> rfl
    | _ =>
      cases hexec
      rfl
  exact Prod.mk.inj hkeeps

/-! ### The bridge table after a start -/

/-- The rules of the chain `coolify_allow`. -/
def Host.bridgeAllow (h : Host A B B') : List (BridgeRule A) :=
  ((h.bridge.bind fun T => T .coolifyAllow)).getD []

/-- What a default-deny start adds to the chain `coolify_allow`: nothing if the scaffold before it fails. -/
def addedBridgeAllow (tools : Tools A B B') (subnets : List Ipv4Net) (h : Host A B B') : List A :=
  if tools.set subnets then ((h.bridgeAllowRules.bind tools.load).getD []) else []

/-- The scaffold is loaded next to the chain `coolify_allow`. -/
private theorem script_scaffoldOps {T : Table (BridgeCond A) BridgeChain} {rs : List (BridgeRule A)}
    (ha : T .coolifyAllow = some rs) (subnets : List Ipv4Net) :
    ∃ T', script id T (scaffoldOps A subnets) = some T' ∧ T' .coolifyAllow = some rs := by
  simp only [script, scaffoldOps, List.foldlM_cons, List.foldlM_nil, ScriptOp.apply, orTrue_new, Op.apply,
    Option.bind_eq_bind, Option.bind_some, Function.update_self, Option.map_some, Function.update_idem, id,
    Table.hasTarget, Option.pure_def]
  simp [ha]

private theorem loadBridgeAllow_allow {T : Table (BridgeCond A) BridgeChain} {rs : List (BridgeRule A)} {file : B'}
    (ha : T .coolifyAllow = some rs) :
    loadBridgeAllow tools file T .coolifyAllow = some (rs ++ ((tools.load file).getD []).map bridgeAllowRule) := by
  rw [loadBridgeAllow]
  cases tools.load file with
  | none => simpa using ha
  | some rules =>
    have hscript : script id T ((rules.map bridgeAllowRule).map (.addRule .coolifyAllow)) =
        some (Function.update T .coolifyAllow (some (rs ++ (rules.map bridgeAllowRule).map id))) := by
      refine script_addRules ha fun s hs => ?_
      obtain ⟨rule, -, rfl⟩ := List.mem_map.1 hs
      rfl
    rw [List.map_map, List.map_id] at hscript
    dsimp only
    rw [show (rules.map fun rule => ScriptOp.addRule BridgeChain.coolifyAllow (bridgeAllowRule rule)) =
      rules.map (ScriptOp.addRule BridgeChain.coolifyAllow ∘ bridgeAllowRule) from rfl, hscript, Option.getD_some,
      Function.update_self]
    rfl

/-- The lines for the bridge table keep the allow rules of the bridge and add those of the snapshot. -/
private theorem bridgeAllow_runLines (subnets : List Ipv4Net) (rest : List String) :
    (runLines tools h (bridgeDenyLines subnets ++ [.heading rest])).bridgeAllow =
      h.bridgeAllow ++ (addedBridgeAllow tools subnets h).map bridgeAllowRule := by
  obtain ⟨T, hT, ha⟩ : ∃ T, execAll tools h [.addBridgeTable, .addBridgeAllow, .deleteBridgeChain .forward,
      .deleteBridgeChain .coolifyIntra] = some { h with bridge := some T } ∧
      T .coolifyAllow = some h.bridgeAllow := by
    refine ⟨_, rfl, ?_⟩
    beta_reduce
    rw [orTrue_of_ne (by simp [Op.chain]), orTrue_of_ne (by simp [Op.chain]), orTrue_new, Function.update_self,
      Host.bridgeAllow]
    cases h.bridge <;> rfl
  obtain ⟨T', hT', ha'⟩ := script_scaffoldOps ha subnets
  have hrun : runLines tools h (bridgeDenyLines subnets ++ [.heading rest]) =
      runLines tools { h with bridge := some T } [.loadScaffold subnets, .loadBridgeAllow, .heading rest] :=
    runLines_append [.loadScaffold subnets, .loadBridgeAllow, .heading rest] hT
  rw [hrun, runLines, exec, addedBridgeAllow]
  cases hset : tools.set subnets with
  | false => simp [Host.bridgeAllow, ha]
  | true =>
    simp only [if_true, Option.getD_some, hT', Option.map_some, runLines, exec]
    cases hfile : h.bridgeAllowRules with
    | none => simp [Host.bridgeAllow, ha']
    | some file => simp [Host.bridgeAllow, loadBridgeAllow_allow ha']

/-- The allow rules after a default-deny start: the first chain is rebuilt from its snapshot, and the rules of the other
snapshot are added to the second. -/
theorem allow_startUnit_deny {iface : String} {subnets : List Ipv4Net} {forward : List (Rule (Cond A) Chain)}
    (hf : h.filter .forward = some forward) :
    (startUnit tools iface subnets true h).filter .allow = some (restoredAllow tools h) ∧
      (startUnit tools iface subnets true h).bridgeAllow =
        h.bridgeAllow ++ (addedBridgeAllow tools subnets h).map bridgeAllowRule := by
  refine ⟨(filter_startUnit_deny hf).2.2, ?_⟩
  obtain ⟨h', hstart, -, -, -, hb, hr⟩ := startUnit_deny hf
  rw [hstart, bridgeAllow_runLines, Host.bridgeAllow, Host.bridgeAllow, addedBridgeAllow, addedBridgeAllow, hb, hr]

end Run

end Coold.Node
