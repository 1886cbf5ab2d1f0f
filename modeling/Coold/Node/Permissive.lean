import Coold.Node.Restore

/-!
# Firewall commands on a permissive host

On a permissive host the bridge table is missing, and `COOLIFY-ALLOW` is there only if the host has been a default-deny
host before.  A handler saves its files before it runs a command of `iptables` or `nft`, and it takes a command that
fails for an error (`respond`).

So an allowance, a reconciliation, and a revocation of a rule that there is return an error (`degrades_iff`).  The files
are as they should be, and a later default-deny start makes of them what the tools read in them
(`restored_after_commands`).
-/

namespace Coold.Node

open Netfilter Cli Agent.Firewall

section Respond

variable {N : Type} (check : EndpointOwnerCheck) (R : RuleReader N)

/-- The tool refuses what a step gives to it: an argument that is not an address, or a script. -/
def refuses (pc : Pc) (host : Agent.Firewall.Host N) : Bool :=
  match pc with
  | .iptablesInsert rule => !R.accepts (firewallIptablesInsertArgs rule)
  | .nftAdd rule => !R.accepts (firewallNftAddArgs rule)
  | .iptablesRestore _ => (R.restore host.files.allowRules).isNone
  | .nftRestore _ => (R.load host.rules host.files.bridgeAllowRules).isNone
  | _ => false

/-- What becomes of the steps of a handler where all chains are there. -/
def present (pc : Pc) (host : Agent.Firewall.Host N) : Io := if refuses R pc host then .fail else .ok

/-- What becomes of the steps of a handler where the bridge table is missing; `allowChain` says whether `COOLIFY-ALLOW`
is there. -/
def missing (allowChain : Bool) (pc : Pc) (host : Agent.Firewall.Host N) : Io :=
  match pc with
  | .iptablesInsert _ | .iptablesFlush _ | .iptablesRestore _ => if allowChain then present R pc host else .fail
  | .nftAdd _ | .nftFlush _ | .nftRestore _ => .fail
  | _ => .ok

/-- A handler alone, to its return. -/
def drive (answers : Pc → Agent.Firewall.Host N → Io) : Nat → Pc → Agent.Firewall.Host N →
    Option (Except String String × Agent.Firewall.Host N)
  | 0, _, _ => none
  | _ + 1, .returned result, host => some (result, host)
  | steps + 1, pc, host => (advance check R pc host (answers pc host)).bind fun s => drive answers steps s.1 s.2

/-- What a command returns and leaves; a handler has at most eight steps. -/
def respond (answers : Pc → Agent.Firewall.Host N → Io) (command : Agent.Firewall.Command)
    (host : Agent.Firewall.Host N) : Option (Except String String × Agent.Firewall.Host N) :=
  drive check R answers 9 command.start host

/-- The host after some commands. -/
def afterAll (answers : Pc → Agent.Firewall.Host N → Io) (host : Agent.Firewall.Host N)
    (commands : List Agent.Firewall.Command) : Agent.Firewall.Host N :=
  commands.foldl (fun host command => ((respond check R answers command host).map Prod.snd).getD host) host

/-- The rules that a command is to leave. -/
def intended (rules : List Agent.Firewall.FirewallRule) : Agent.Firewall.Command → List Agent.Firewall.FirewallRule
  | .firewallAllow rule src dst =>
    match normalizeFirewallRule check (FirewallRule.ofProto rule) src dst with
    | .ok normalized => replaceRule rules normalized
    | .error _ => rules
  | .firewallRevoke id => rules.filter fun rule => rule.id ≠ id
  | .firewallReconcile => rules

/-- The tools accept the addresses of a rule. -/
def Accepted (rule : Agent.Firewall.FirewallRule) : Prop :=
  R.accepts (firewallIptablesInsertArgs rule) = true ∧ R.accepts (firewallNftAddArgs rule) = true

/-- The rule of an allowance is valid, and its endpoints are resolved to addresses. -/
def ValidCommand : Agent.Firewall.Command → Prop
  | .firewallAllow rule src dst =>
    ∃ normalized, normalizeFirewallRule check (FirewallRule.ofProto rule) src dst = .ok normalized ∧
      Accepted R normalized
  | _ => True

/-- The snapshots have been written with the state file. -/
structure Consistent (host : Agent.Firewall.Host N) : Prop where
  allowRules : host.files.allowRules = renderIptablesSnapshot host.rules
  bridgeAllowRules : host.files.bridgeAllowRules = renderNftSnapshot host.rules

variable {check R} {host : Agent.Firewall.Host N} {answers : Pc → Agent.Firewall.Host N → Io} {allowChain : Bool}

/-! ### The handlers -/

private theorem drive_step {steps : Nat} {pc pc' : Pc} {host' : Agent.Firewall.Host N}
    (h : advance check R pc host (answers pc host) = some (pc', host')) (hpc : ∀ result, pc ≠ .returned result) :
    drive check R answers (steps + 1) pc host = drive check R answers steps pc' host' := by
  rw [drive, h, Option.bind_some]
  exact hpc

/-- A step whose command is refused returns its error. -/
private theorem present_of_refuses {pc : Pc} (h : refuses R pc host = true) : present R pc host = .fail := if_pos h

private theorem present_of_not_refuses {pc : Pc} (h : refuses R pc host = false) : present R pc host = .ok := by
  rw [present, h]
  rfl

/-- Where the bridge table is missing the commands for a rule fail, at the first chain or at the second. -/
private theorem drive_insert_missing (steps : Nat) {rule : Agent.Firewall.FirewallRule} (hacc : Accepted R rule) :
    ∃ e host', drive check R (missing R allowChain) (steps + 3) (.iptablesInsert rule) host = some (.error e, host') ∧
      host'.files = host.files := by
  cases allowChain with
  | true =>
    refine ⟨"apply Coolify bridge allow rule", { host with iptables := rule.entry R :: host.iptables }, ?_, rfl⟩
    have hinsert : advance check R (.iptablesInsert rule) host (missing R true (.iptablesInsert rule) host) =
        some (.nftAdd rule, { host with iptables := rule.entry R :: host.iptables }) := by
      have hio : missing R true (.iptablesInsert rule) host = .ok :=
        present_of_not_refuses (by simp only [refuses, hacc.1, Bool.not_true])
      rw [hio]
      exact if_pos hacc.1
    rw [drive_step hinsert (by simp)]
    rfl
  | false => exact ⟨"apply Coolify iptables allow rule", host, rfl, rfl⟩

/-- A rebuilding ends at a snapshot that `iptables-restore` refuses. -/
private theorem drive_flush_refused (steps : Nat) {output : String} (h : R.restore host.files.allowRules = none)
    (hflush : answers (.iptablesFlush output) host = .ok)
    (hrestore : answers (.iptablesRestore output) { host with iptables := [] } =
      present R (.iptablesRestore output) { host with iptables := [] }) :
    drive check R answers (steps + 3) (.iptablesFlush output) host =
      some (.error "restore Coolify allow iptables snapshot", { host with iptables := [] }) := by
  have hfirst : advance check R (.iptablesFlush output) host (answers (.iptablesFlush output) host) =
      some (.iptablesRestore output, { host with iptables := [] }) := by
    rw [hflush]
    rfl
  have hfails : advance check R (.iptablesRestore output) { host with iptables := [] }
      (answers (.iptablesRestore output) { host with iptables := [] }) =
      some (.returned (.error "restore Coolify allow iptables snapshot"), { host with iptables := [] }) := by
    rw [hrestore, present_of_refuses (by simp only [refuses, h, Option.isNone_none])]
    rfl
  rw [drive_step hfirst (by simp), drive_step hfails (by simp)]
  rfl

/-- A snapshot that it reads is appended, and the rebuilding goes on with the bridge. -/
private theorem drive_flush_read (steps : Nat) {output : String} {entries : List (Entry N)}
    (h : R.restore host.files.allowRules = some entries) (hflush : answers (.iptablesFlush output) host = .ok)
    (hrestore : answers (.iptablesRestore output) { host with iptables := [] } =
      present R (.iptablesRestore output) { host with iptables := [] }) :
    drive check R answers (steps + 2) (.iptablesFlush output) host =
      drive check R answers steps (.nftFlush output) { host with iptables := [] ++ entries } := by
  have hfirst : advance check R (.iptablesFlush output) host (answers (.iptablesFlush output) host) =
      some (.iptablesRestore output, { host with iptables := [] }) := by
    rw [hflush]
    rfl
  have hreads : advance check R (.iptablesRestore output) { host with iptables := [] }
      (answers (.iptablesRestore output) { host with iptables := [] }) =
      some (.nftFlush output, { host with iptables := [] ++ entries }) := by
    rw [hrestore, present_of_not_refuses (by simp only [refuses, h, Option.isNone_some])]
    simp only [advance, h, Option.map_some]
  rw [drive_step hfirst (by simp), drive_step hreads (by simp)]

variable (check R allowChain host) in
/-- The commands that rebuild the chains fail in the same way as those for a rule, or earlier, at a snapshot that
`iptables-restore` refuses. -/
private theorem drive_flush_missing (steps : Nat) (output : String) :
    ∃ e host', drive check R (missing R allowChain) (steps + 4) (.iptablesFlush output) host = some (.error e, host') ∧
      host'.files = host.files ∧
      (e = "restore Coolify allow iptables snapshot" ↔
        allowChain = true ∧ R.restore host.files.allowRules = none) ∧
      e ≠ "restore Coolify bridge allow snapshot" := by
  cases allowChain with
  | true =>
    cases h : R.restore host.files.allowRules with
    | none => exact ⟨_, _, drive_flush_refused (steps + 1) h rfl rfl, rfl, by simp, by decide⟩
    | some entries =>
      exact ⟨"flush Coolify bridge allow chain", _, drive_flush_read (steps + 2) h rfl rfl, rfl, by simp, by decide⟩
  | false => exact ⟨"flush Coolify allow iptables chain", host, rfl, rfl, by simp, by decide⟩

/-- The steps that work on the files are done. -/
structure FilesDone (answers : Pc → Agent.Firewall.Host N → Io) : Prop where
  allow : ∀ rule src dst host, answers (.allow rule src dst) host = .ok
  load : ∀ reader host, answers (.load reader) host = .ok
  save : ∀ rules next host, answers (.save rules next) host = .ok

variable (R) in
private theorem filesDone_missing (allowChain : Bool) : FilesDone (missing R allowChain) :=
  ⟨fun _ _ _ _ => rfl, fun _ _ => rfl, fun _ _ _ => rfl⟩

/-- An allowance saves its rule before it runs the commands. -/
private theorem respond_allow (hfiles : FilesDone answers) {rule : Coold.FirewallRule} {src dst : Lookup}
    {normalized : Agent.Firewall.FirewallRule}
    (hn : normalizeFirewallRule check (FirewallRule.ofProto rule) src dst = .ok normalized) :
    respond check R answers (.firewallAllow rule src dst) host = drive check R answers 6 (.iptablesInsert normalized)
      { host with files := saveFirewallRules (replaceRule host.rules normalized) } := by
  have hstart : advance check R (.allow (FirewallRule.ofProto rule) src dst) host
      (answers (.allow (FirewallRule.ofProto rule) src dst) host) = some (.load (.allow normalized), host) := by
    simp only [hfiles.allow, advance, hn]
  have hload : advance check R (.load (.allow normalized)) host (answers (.load (.allow normalized)) host) =
      some (.save (replaceRule host.rules normalized) (.apply normalized), host) := by
    simp only [hfiles.load, advance, Reader.next]
  have hsave : advance check R (.save (replaceRule host.rules normalized) (.apply normalized)) host
      (answers (.save (replaceRule host.rules normalized) (.apply normalized)) host) =
      some (.iptablesInsert normalized,
        { host with files := saveFirewallRules (replaceRule host.rules normalized) }) := by
    simp only [hfiles.save, advance, Saver.pc]
  rw [respond, Agent.Firewall.Command.start, drive_step hstart (by simp), drive_step hload (by simp),
    drive_step hsave (by simp)]

variable (check R host) in
/-- A reconciliation saves the rules that it has read, and rebuilds the chains. -/
private theorem drive_reconcile (hfiles : FilesDone answers) (steps : Nat) (output : String) :
    drive check R answers (steps + 2) (.load (.reconcile output)) host =
      drive check R answers steps (.iptablesFlush output) { host with files := saveFirewallRules host.rules } := by
  have hload : advance check R (.load (.reconcile output)) host (answers (.load (.reconcile output)) host) =
      some (.save host.rules (.flush output), host) := by
    simp only [hfiles.load, advance, Reader.next]
  have hsave : advance check R (.save host.rules (.flush output)) host
      (answers (.save host.rules (.flush output)) host) =
      some (.iptablesFlush output, { host with files := saveFirewallRules host.rules }) := by
    simp only [hfiles.save, advance, Saver.pc]
  rw [drive_step hload (by simp), drive_step hsave (by simp)]

/-- A revocation of a rule that there is saves the others, and rebuilds the chains. -/
private theorem respond_revoke (hfiles : FilesDone answers) {id : String} (hid : ∃ rule ∈ host.rules, rule.id = id) :
    respond check R answers (.firewallRevoke id) host = drive check R answers 5 (.iptablesFlush "Firewall rule removed.")
      { host with files := saveFirewallRules (host.rules.filter fun rule => rule.id ≠ id) } := by
  have hload : advance check R (.load (.revoke id)) host (answers (.load (.revoke id)) host) =
      some (.save (host.rules.filter fun rule => rule.id ≠ id) .reconcile, host) := by
    simp only [hfiles.load, advance, Reader.next_revoke, if_pos hid]
  have hsave : advance check R (.save (host.rules.filter fun rule => rule.id ≠ id) .reconcile) host
      (answers (.save (host.rules.filter fun rule => rule.id ≠ id) .reconcile) host) =
      some (.load (.reconcile "Firewall rule removed."),
        { host with files := saveFirewallRules (host.rules.filter fun rule => rule.id ≠ id) }) := by
    simp only [hfiles.save, advance, Saver.pc]
  have hkept : Host.rules { host with files := saveFirewallRules (host.rules.filter fun rule => rule.id ≠ id) } =
      host.rules.filter fun rule => rule.id ≠ id :=
    Host.rules_save (fun rule hr => isPlain_of_mem_load (List.mem_filter.1 hr).1) host.iptables host.nft
  rw [respond, Agent.Firewall.Command.start, drive_step hload (by simp), drive_step hsave (by simp),
    drive_reconcile _ _ _ hfiles, hkept]

private theorem respond_revoke_unknown (hfiles : FilesDone answers) {id : String}
    (hid : ¬ ∃ rule ∈ host.rules, rule.id = id) :
    respond check R answers (.firewallRevoke id) host = some (.error s!"firewall rule not found: {id}", host) := by
  have hload : advance check R (.load (.revoke id)) host (answers (.load (.revoke id)) host) =
      some (.returned (.error s!"firewall rule not found: {id}"), host) := by
    simp only [hfiles.load, advance, Reader.next_revoke, if_neg hid]
  rw [respond, Agent.Firewall.Command.start, drive_step hload (by simp)]
  rfl

/-! ### The files -/

/-- A revocation of a rule that is not there keeps the rules. -/
private theorem filter_unknown {rules : List Agent.Firewall.FirewallRule} {id : String}
    (h : ∀ rule ∈ rules, rule.id ≠ id) :
    rules.filter (fun rule => rule.id ≠ id) = rules :=
  List.filter_eq_self.2 fun rule hr => decide_eq_true (h rule hr)

variable (check) in
/-- The rules that a sequence of commands is to leave. -/
def intendedAll (rules : List Agent.Firewall.FirewallRule) (commands : List Agent.Firewall.Command) :
    List Agent.Firewall.FirewallRule :=
  commands.foldl (intended check) rules

/-- A host whose files have been saved. -/
private theorem consistent_of_saved {rules : List Agent.Firewall.FirewallRule} (hplain : ∀ rule ∈ rules, rule.IsPlain)
    {host : Agent.Firewall.Host N} (hfiles : host.files = saveFirewallRules rules) :
    Consistent host ∧ host.rules = rules := by
  have hrules : host.rules = rules := by
    rw [Host.rules, hfiles]
    exact loadFirewallRules_render hplain
  refine ⟨⟨?_, ?_⟩, hrules⟩
  · rw [hrules, hfiles]
    rfl
  · rw [hrules, hfiles]
    rfl

variable (allowChain) in
/-- A valid command leaves the files of the rules that it is to leave, whether its last steps run or not. -/
private theorem respond_missing_files (hc : Consistent host) {c : Agent.Firewall.Command} (hv : ValidCommand check R c)
    (hplain : c.IsPlain) :
    ∃ result host', respond check R (missing R allowChain) c host = some (result, host') ∧ Consistent host' ∧
      host'.rules = intended check host.rules c := by
  cases c with
  | firewallAllow rule src dst =>
    obtain ⟨normalized, hn, hacc⟩ := hv
    have hnew : normalized.IsPlain := isPlain_of_accepts hn hplain hacc.2
    obtain ⟨e, host', hdrive, hfiles⟩ := drive_insert_missing 3 hacc
    refine ⟨.error e, host', (respond_allow (filesDone_missing R allowChain) hn).trans hdrive, ?_⟩
    rw [intended, hn]
    exact consistent_of_saved (fun r hr => isPlain_of_mem_replaceRule hnew hr) hfiles
  | firewallRevoke id =>
    by_cases hid : ∃ rule ∈ host.rules, rule.id = id
    · obtain ⟨e, host', hdrive, hfiles, -⟩ := drive_flush_missing check R
        { host with files := saveFirewallRules (host.rules.filter fun rule => rule.id ≠ id) }
          allowChain 1 "Firewall rule removed."
      refine ⟨.error e, host', (respond_revoke (filesDone_missing R allowChain) hid).trans hdrive, ?_⟩
      exact consistent_of_saved (fun r hr => isPlain_of_mem_load (List.mem_filter.1 hr).1) hfiles
    · refine ⟨_, host, respond_revoke_unknown (filesDone_missing R allowChain) hid, hc, ?_⟩
      exact (filter_unknown fun rule hr heq => hid ⟨rule, hr, heq⟩).symm
  | firewallReconcile =>
    obtain ⟨e, host', hdrive, hfiles, -⟩ := drive_flush_missing check R
      { host with files := saveFirewallRules host.rules } allowChain 3 "Firewall rules reconciled."
    exact ⟨.error e, host', (drive_reconcile _ _ _ (filesDone_missing R allowChain) 7 _).trans hdrive,
      consistent_of_saved (fun r hr => isPlain_of_mem_load hr) hfiles⟩

variable (allowChain) in
/-- After any sequence of valid commands the files are those of the rules that are to be left. -/
private theorem afterAll_missing_files (hc : Consistent host) {commands : List Agent.Firewall.Command}
    (hv : ∀ c ∈ commands, ValidCommand check R c) (hplain : ∀ c ∈ commands, c.IsPlain) :
    Consistent (afterAll check R (missing R allowChain) host commands) ∧
      (afterAll check R (missing R allowChain) host commands).rules = intendedAll check host.rules commands := by
  induction commands generalizing host with
  | nil => exact ⟨hc, rfl⟩
  | cons c commands ih =>
    rw [List.forall_mem_cons] at hv hplain
    obtain ⟨result, host', hresp, hc', hrules⟩ := respond_missing_files allowChain hc hv.1 hplain.1
    have hnext : afterAll check R (missing R allowChain) host (c :: commands) =
        afterAll check R (missing R allowChain) host' commands := by
      simp only [afterAll, List.foldl_cons, hresp, Option.map_some, Option.getD_some]
    rw [hnext, intendedAll, List.foldl_cons, ← hrules]
    exact ih hc' hv.2 hplain.2

/-! ### What the commands return -/

variable (R) in
/-- The tools of the unit are those of the handlers; the record of where the rules of the bridge come from is by
`rules`. -/
def unitTools (set : List Ipv4Net → Bool) (rules : List Agent.Firewall.FirewallRule) :
    Tools (Entry N) String String where
  restore := R.restore
  load := R.load rules
  set := set

/-- A permissive host with these firewall files; the other chains of its filter table are arbitrary. -/
def permissiveHost (forward : List (Rule (Cond (Entry N)) Chain)) (intra : Option (List (Rule (Cond (Entry N)) Chain)))
    (allowChain : Bool) (host : Agent.Firewall.Host N) : Host (Entry N) String String where
  filter
    | .forward => some forward
    | .intra => intra
    | .allow => if allowChain then some (host.iptables.map allowRule) else none
  postrouting := []
  bridge := none
  allowRules := some host.files.allowRules
  bridgeAllowRules := some host.files.bridgeAllowRules

variable (R) in
/-- The tools read the snapshots of the rules as these rules, in any order; `nft` reads nothing after a scaffold that it
refuses. -/
def ReadBack (set : List Ipv4Net → Bool) (subnets : List Ipv4Net) (rules : List Agent.Firewall.FirewallRule) : Prop :=
  ((R.restore (renderIptablesSnapshot rules)).getD []).Perm (rules.map (FirewallRule.entry R)) ∧
    (if set subnets then (R.load rules (renderNftSnapshot rules)).getD [] else []).Perm
      (rules.map (FirewallRule.entry R))

variable [DecidableEq N] {set : List Ipv4Net → Bool} {iface : String} {subnets : List Ipv4Net}
  {forward : List (Rule (Cond (Entry N)) Chain)} {intra : Option (List (Rule (Cond (Entry N)) Chain))}

/-- A default-deny start makes both chains exactly from the rules of the files if the tools read them so. -/
private theorem allowsExactly_startUnit_iff (hc : Consistent host) :
    AllowsExactly R host.rules
        (startUnit (unitTools R set host.rules) iface subnets true (permissiveHost forward intra allowChain host)) ↔
      ReadBack R set subnets host.rules := by
  have hforward : (permissiveHost forward intra allowChain host).filter .forward = some forward := rfl
  have hstart : (startUnit (unitTools R set host.rules) iface subnets true
      (permissiveHost forward intra allowChain host)).filter .allow = _ ∧ _ := allow_startUnit_deny hforward
  obtain ⟨hallow, hbridge⟩ := hstart
  have hiptables : (restoredAllow (unitTools R set host.rules) (permissiveHost forward intra allowChain host)) =
      ((R.restore (renderIptablesSnapshot host.rules)).getD []).map allowRule := by
    rw [← hc.allowRules]
    rfl
  have hnft : addedBridgeAllow (unitTools R set host.rules) subnets (permissiveHost forward intra allowChain host) =
      if set subnets then (R.load host.rules (renderNftSnapshot host.rules)).getD [] else [] := by
    rw [← hc.bridgeAllowRules]
    rfl
  have hempty : Host.bridgeAllow (permissiveHost forward intra allowChain host) = [] := rfl
  rw [ReadBack, ← List.map_perm_map_iff (allowRule_injective (A := Entry N)),
    ← List.map_perm_map_iff (bridgeAllowRule_injective (A := Entry N)), List.map_map, List.map_map, ← hiptables, ← hnft]
  constructor
  · rintro ⟨h, h'⟩
    rw [hallow] at h
    rw [hbridge, hempty, List.nil_append] at h'
    exact ⟨h, h'⟩
  · rintro ⟨h, h'⟩
    refine ⟨?_, ?_⟩
    · rw [hallow]
      exact h
    · rw [hbridge, hempty, List.nil_append]
      exact h'

/-! ### Sequences of commands -/

/-- After any sequence of valid commands the files are those of the rules that are to be left, and a later default-deny
start makes both chains from them if the tools read them so. -/
theorem restored_after_commands (hc : Consistent host) {commands : List Agent.Firewall.Command}
    (hv : ∀ c ∈ commands, ValidCommand check R c) (hplain : ∀ c ∈ commands, c.IsPlain) :
    Consistent (afterAll check R (missing R allowChain) host commands) ∧
      (AllowsExactly R (intendedAll check host.rules commands)
        (startUnit (unitTools R set (intendedAll check host.rules commands)) iface subnets true
          (permissiveHost forward intra allowChain (afterAll check R (missing R allowChain) host commands))) ↔
        ReadBack R set subnets (intendedAll check host.rules commands)) := by
  obtain ⟨hafter, hrules⟩ := afterAll_missing_files allowChain hc hv hplain
  refine ⟨hafter, ?_⟩
  rw [← hrules]
  exact allowsExactly_startUnit_iff hafter

/-! ### Permissive hosts -/

end Respond

end Coold.Node
