import Coold.Agent.FirewallRules
import Coold.Lib.Lts

/-!
# The firewall of a host

The allow rules of a host are kept in three places: the state file, the chain `COOLIFY-ALLOW` of `iptables` and the
bridge chain `coolify_allow` of `nft`.  `firewallAllow` replaces the rule of an id in the file and inserts the new rule
into the chains; `firewallRevoke` removes the rule of an id from the file and rebuilds the chains from it;
`firewallReconcile` rebuilds them.

A handler is a state machine (`Pc`, `advance`), one step for each read of the file, each save and each command that it
runs.  `Io` is what the world makes of a step.  `call` runs one handler alone to its end; the handlers of one host
together are the subject of `Coold.Agent.FirewallRuns`.
-/

namespace Coold.Agent.Firewall

/-! ### The handlers -/

/-- The texts of the state file and of the two snapshots that are written with it. -/
structure Files where
  state : Option String
  allowRules : String
  bridgeAllowRules : String
  deriving DecidableEq

structure Host (N : Type) where
  files : Files
  iptables : List (Entry N)
  nft : List (Entry N)
  deriving DecidableEq

def Host.rules {N : Type} (host : Host N) : List FirewallRule := loadFirewallRules host.files.state

def saveFirewallRules (rules : List FirewallRule) : Files where
  state := some (renderFirewallState rules)
  allowRules := renderIptablesSnapshot rules
  bridgeAllowRules := renderNftSnapshot rules

/-- The rules of a host whose files have just been saved. -/
theorem Host.rules_save {N : Type} {rules : List FirewallRule} (h : ∀ rule ∈ rules, rule.IsPlain)
    (iptables nft : List (Entry N)) : Host.rules ⟨saveFirewallRules rules, iptables, nft⟩ = rules :=
  loadFirewallRules_render h

/-- Who reads the state file. -/
inductive Reader where
  | allow (normalized : FirewallRule)
  | revoke (id : String)
  | reconcile (output : String)
  deriving DecidableEq

/-- What is done once the files are saved. -/
inductive Saver where
  | apply (normalized : FirewallRule)
  | reconcile
  | flush (output : String)
  deriving DecidableEq

/-- The step that a handler does next, or what it returned.  `output` is the answer of the handler that rebuilds the
chains. -/
inductive Pc where
  | allow (rule : FirewallRule) (src dst : Lookup)
  | load (reader : Reader)
  | save (rules : List FirewallRule) (next : Saver)
  | iptablesInsert (normalized : FirewallRule)
  | nftAdd (normalized : FirewallRule)
  | iptablesFlush (output : String)
  | iptablesRestore (output : String)
  | nftFlush (output : String)
  | nftRestore (output : String)
  | returned (result : Except String String)
  deriving DecidableEq

/-- `retain` and `push` of an allowance. -/
def replaceRule (rules : List FirewallRule) (normalized : FirewallRule) : List FirewallRule :=
  rules.filter (fun existing => existing.id ≠ normalized.id) ++ [normalized]

/-- What is true of a rule and of those before is true of the rules after an allowance of it. -/
theorem forall_mem_replaceRule {P : FirewallRule → Prop} {rules : List FirewallRule} {normalized : FirewallRule}
    (h : ∀ rule ∈ rules, P rule) (hn : P normalized) : ∀ rule ∈ replaceRule rules normalized, P rule :=
  List.forall_mem_append.2 ⟨fun rule hr => h rule (List.mem_filter.1 hr).1, List.forall_mem_singleton.2 hn⟩

/-- The rules after an allowance of a plain rule are plain. -/
theorem isPlain_of_mem_replaceRule {N : Type} {host : Host N} {normalized rule : FirewallRule}
    (hn : normalized.IsPlain) (h : rule ∈ replaceRule host.rules normalized) : rule.IsPlain :=
  forall_mem_replaceRule (P := FirewallRule.IsPlain) (fun _ hr => isPlain_of_mem_load hr) hn rule h

/-- What is made of the rules of the state file. -/
def Reader.next (rules : List FirewallRule) : Reader → Pc
  | .allow normalized => .save (replaceRule rules normalized) (.apply normalized)
  | .revoke id =>
    let kept := rules.filter fun rule => rule.id ≠ id
    if kept.length = rules.length then .returned (.error s!"firewall rule not found: {id}")
    else .save kept .reconcile
  | .reconcile output => .save rules (.flush output)

/-- A revocation goes on exactly when there is a rule of its id. -/
theorem Reader.next_revoke (rules : List FirewallRule) (id : String) :
    (Reader.revoke id).next rules =
      if ∃ rule ∈ rules, rule.id = id then .save (rules.filter fun rule => rule.id ≠ id) .reconcile
      else .returned (.error s!"firewall rule not found: {id}") := by
  have hlen : (rules.filter fun rule => rule.id ≠ id).length = rules.length ↔ ¬ ∃ rule ∈ rules, rule.id = id := by
    rw [List.length_filter_eq_length_iff]
    simp
  by_cases h : ∃ rule ∈ rules, rule.id = id
  · rw [if_pos h, Reader.next, if_neg fun hl => hlen.1 hl h]
  · rw [if_neg h, Reader.next, if_pos (hlen.2 h)]

def Saver.pc : Saver → Pc
  | .apply normalized => .iptablesInsert normalized
  | .reconcile => .load (.reconcile "Firewall rule removed.")
  | .flush output => .iptablesFlush output

/-- What the world makes of a step.  A save that fails may have written part of its files. -/
inductive Io where
  | ok
  | fail
  | saveFails (error : String) (left : Files)
  deriving DecidableEq

section Handlers

variable {N : Type} (check : EndpointOwnerCheck) (R : RuleReader N)

/-- One step of a handler.  A command with an argument that is not an address can only fail, and so can one with a
script that the tool refuses; a failed command changes nothing. -/
def advance (pc : Pc) (host : Host N) (io : Io) : Option (Pc × Host N) :=
  match pc, io with
  | .allow rule src dst, .ok =>
    match normalizeFirewallRule check rule src dst with
    | .error e => some (.returned (.error e), host)
    | .ok normalized => some (.load (.allow normalized), host)
  | .load reader, .ok => some (reader.next host.rules, host)
  | .load _, .fail => some (.returned (.error "read Coolify firewall rules"), host)
  | .save rules next, .ok => some (next.pc, { host with files := saveFirewallRules rules })
  | .save _ _, .saveFails error left => some (.returned (.error error), { host with files := left })
  | .iptablesInsert rule, .ok =>
    let args := firewallIptablesInsertArgs rule
    if R.accepts args then
      some (.nftAdd rule, { host with iptables := R.iptablesEntry args :: host.iptables })
    else none
  | .iptablesInsert _, .fail => some (.returned (.error "apply Coolify iptables allow rule"), host)
  | .nftAdd rule, .ok =>
    let args := firewallNftAddArgs rule
    if R.accepts args then
      some (.returned (.ok "Firewall rule applied."), { host with nft := host.nft ++ [R.nftEntry args] })
    else none
  | .nftAdd _, .fail => some (.returned (.error "apply Coolify bridge allow rule"), host)
  | .iptablesFlush output, .ok => some (.iptablesRestore output, { host with iptables := [] })
  | .iptablesFlush _, .fail => some (.returned (.error "flush Coolify allow iptables chain"), host)
  | .iptablesRestore output, .ok =>
    (R.restore host.files.allowRules).map fun entries =>
      (.nftFlush output, { host with iptables := host.iptables ++ entries })
  | .iptablesRestore _, .fail => some (.returned (.error "restore Coolify allow iptables snapshot"), host)
  | .nftFlush output, .ok => some (.nftRestore output, { host with nft := [] })
  | .nftFlush _, .fail => some (.returned (.error "flush Coolify bridge allow chain"), host)
  | .nftRestore output, .ok =>
    (R.load host.rules host.files.bridgeAllowRules).map fun entries =>
      (.returned (.ok output), { host with nft := host.nft ++ entries })
  | .nftRestore _, .fail => some (.returned (.error "restore Coolify bridge allow snapshot"), host)
  | _, _ => none

/-- What a step can do. -/
inductive Advance : Pc → Host N → Io → Pc → Host N → Prop
  | refuse {rule src dst host e} : normalizeFirewallRule check rule src dst = .error e →
      Advance (.allow rule src dst) host .ok (.returned (.error e)) host
  | normalize {rule src dst host normalized} : normalizeFirewallRule check rule src dst = .ok normalized →
      Advance (.allow rule src dst) host .ok (.load (.allow normalized)) host
  | load {reader host} : Advance (.load reader) host .ok (reader.next host.rules) host
  | save {rules next host} :
      Advance (.save rules next) host .ok next.pc { host with files := saveFirewallRules rules }
  | insert {rule host} : R.accepts (firewallIptablesInsertArgs rule) = true →
      Advance (.iptablesInsert rule) host .ok (.nftAdd rule)
        { host with iptables := rule.entry R :: host.iptables }
  | add {rule host} : R.accepts (firewallNftAddArgs rule) = true →
      Advance (.nftAdd rule) host .ok (.returned (.ok "Firewall rule applied."))
        { host with nft := host.nft ++ [rule.entry R] }
  | flushIptables {output host} :
      Advance (.iptablesFlush output) host .ok (.iptablesRestore output) { host with iptables := [] }
  | restoreIptables {output host entries} : R.restore host.files.allowRules = some entries →
      Advance (.iptablesRestore output) host .ok (.nftFlush output) { host with iptables := host.iptables ++ entries }
  | flushNft {output host} : Advance (.nftFlush output) host .ok (.nftRestore output) { host with nft := [] }
  | restoreNft {output host entries} : R.load host.rules host.files.bridgeAllowRules = some entries →
      Advance (.nftRestore output) host .ok (.returned (.ok output)) { host with nft := host.nft ++ entries }
  | fail {pc host e} : Advance pc host .fail (.returned (.error e)) host
  | saveFails {rules next host e left} :
      Advance (.save rules next) host (.saveFails e left) (.returned (.error e)) { host with files := left }

variable {check R} in
theorem advance_sound {pc pc' : Pc} {host host' : Host N} {io : Io}
    (h : advance check R pc host io = some (pc', host')) : Advance check R pc host io pc' host' := by
  cases io with
  | fail => cases pc <;> cases h <;> exact .fail
  | saveFails e left =>
    cases pc <;> cases h
    exact .saveFails
  | ok =>
    cases pc with
    | allow rule src dst =>
      simp only [advance] at h
      split at h
      · rename_i hn
        cases h
        exact .refuse hn
      · rename_i hn
        cases h
        exact .normalize hn
    | load reader =>
      cases h
      exact .load
    | save rules next =>
      cases h
      exact .save
    | iptablesInsert rule =>
      obtain ⟨hacc, ⟨⟩⟩ := Option.ite_none_right_eq_some.1 h
      exact .insert hacc
    | nftAdd rule =>
      obtain ⟨hacc, ⟨⟩⟩ := Option.ite_none_right_eq_some.1 h
      exact .add hacc
    | iptablesFlush output =>
      cases h
      exact .flushIptables
    | iptablesRestore output =>
      obtain ⟨entries, hentries, ⟨⟩⟩ := Option.map_eq_some_iff.1 h
      exact .restoreIptables hentries
    | nftFlush output =>
      cases h
      exact .flushNft
    | nftRestore output =>
      obtain ⟨entries, hentries, ⟨⟩⟩ := Option.map_eq_some_iff.1 h
      exact .restoreNft hentries
    | returned result => cases h

/-- A command; `src` and `dst` are what is answered when its endpoints are looked up. -/
inductive Command where
  | firewallAllow (rule : Coold.FirewallRule) (src dst : Lookup)
  | firewallRevoke (id : String)
  | firewallReconcile
  deriving DecidableEq

/-- The first step of the handler of a command. -/
def Command.start : Command → Pc
  | .firewallAllow rule src dst => .allow (FirewallRule.ofProto rule) src dst
  | .firewallRevoke id => .load (.revoke id)
  | .firewallReconcile => .load (.reconcile "Firewall rules reconciled.")

/-- A handler that runs alone, from its first step to its return. -/
def call (command : Command) (ios : List Io) (host : Host N) : Option (Except String String × Host N) :=
  match Lts.run (fun s io => advance check R s.1 s.2 io) (command.start, host) ios with
  | some (.returned result, host') => some (result, host')
  | _ => none

/-! ### The rule of ingress -/

/-- The output of `podman network inspect` must not be blank. -/
def meshNetworkSubnet (inspect : Option String) : Except String String :=
  match inspect with
  | none => .error "inspect Caddy mesh network subnet"
  | some value => if Str.trim value = "" then .error "mesh network subnet is empty" else .ok (Str.trim value)

def caddyIptablesEntry (caddyIp meshSubnet : String) : Entry N :=
  ⟨none, ⟨R.net (caddyIp ++ "/32"), R.net meshSubnet, none⟩⟩

def caddyNftEntry (caddyIp meshSubnet : String) : Entry N :=
  ⟨none, ⟨R.net (cidr caddyIp), R.net (cidr meshSubnet), none⟩⟩

/-- What the world makes of the commands for the rule of ingress: the outputs of the two inspections, and whether the
check, the insertion, the listing and the addition run. -/
structure CaddyIo where
  container : Option String
  network : Option String
  checks : Bool
  inserts : Bool
  lists : Bool
  adds : Bool

/-- Insert the rule unless the check finds it; a check that cannot run counts as a missing rule. -/
def allowCaddyIptables [DecidableEq N] (io : CaddyIo) (entry : Entry N) (host : Host N) : Option (Host N) :=
  if io.checks ∧ entry ∈ host.iptables then some host
  else if io.inserts then some { host with iptables := entry :: host.iptables }
  else none

/-- Add the rule unless the listing shows it; a listing that cannot run counts as an empty one. -/
def allowCaddyNft [DecidableEq N] (io : CaddyIo) (entry : Entry N) (host : Host N) : Option (Host N) :=
  if io.lists ∧ entry ∈ host.nft then some host
  else if io.adds then some { host with nft := host.nft ++ [entry] }
  else none

/-- The last part of a successful `ingress.apply`: let Caddy reach the mesh. -/
def ensureCaddyMeshFirewall [DecidableEq N] (io : CaddyIo) (host : Host N) : Except String Unit × Host N :=
  match containerIp io.container with
  | .error e => (.error e, host)
  | .ok caddyIp =>
    match meshNetworkSubnet io.network with
    | .error e => (.error e, host)
    | .ok meshSubnet =>
      match allowCaddyIptables io (caddyIptablesEntry R caddyIp meshSubnet) host with
      | none => (.error "allow Caddy ingress through iptables", host)
      | some host =>
        match allowCaddyNft io (caddyNftEntry R caddyIp meshSubnet) host with
        | none => (.error "allow Caddy ingress through bridge firewall", host)
        | some host => (.ok (), host)

end Handlers

end Coold.Agent.Firewall
