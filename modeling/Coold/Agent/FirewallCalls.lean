import Coold.Agent.Firewall
import Mathlib.Data.Set.Insert

/-!
# Firewall commands one after the other

Each call runs alone.  `call_firewallAllow_ok`, `call_firewallRevoke_ok` and `call_firewallReconcile_ok` say what a
successful call does to the files and to the chains: a revocation and a reconciliation rebuild both chains from the
file, an allowance only adds to them.

So, as long as the fields of the rules stay apart in the files (`FieldsApart`), the chains accept what the file says
exactly while no allowance replaces a rule of which the match is not kept by another rule (`ReplacesInPlace`).

Ingress adds a rule of its own to the chains that is not in the file (`ensureCaddyMeshFirewall`); it stays until a
handler gets as far as the first flush (`Flushes`).
-/

namespace Coold.Agent.Firewall

variable {N : Type} {check : EndpointOwnerCheck} {R : RuleReader N}

/-! ### Successful calls -/

private theorem run_returned {result : Except String String} {host : Host N} {ios : List Io} {s : Pc × Host N}
    (h : Lts.run (fun s io => advance check R s.1 s.2 io) (.returned result, host) ios = some s) :
    s = (.returned result, host) := by
  cases ios with
  | nil => exact (Option.some.inj h).symm
  | cons io ios =>
    obtain ⟨s₁, h₁, -⟩ := Lts.run_cons_eq_some.1 h
    cases io <;> cases h₁

/-- A failure ends the handler with an error and leaves the chains as they are. -/
private theorem advance_fail {pc : Pc} {host : Host N} {io : Io} {s : Pc × Host N} (hio : io ≠ .ok)
    (h : advance check R pc host io = some s) :
    ∃ e left, s = (.returned (.error e), { host with files := left }) := by
  obtain ⟨pc', host'⟩ := s
  cases advance_sound h with
  | fail => exact ⟨_, host.files, rfl⟩
  | saveFails => exact ⟨_, _, rfl⟩
  | _ => exact absurd rfl hio

/-- A handler that returns `Ok` has made its next step without a failure. -/
private theorem run_ok {pc : Pc} {host host' : Host N} {ios : List Io} {output : String}
    (hpc : ∀ result, pc ≠ .returned result)
    (h : Lts.run (fun s io => advance check R s.1 s.2 io) (pc, host) ios = some (.returned (.ok output), host')) :
    ∃ pc₁ host₁ ios', advance check R pc host .ok = some (pc₁, host₁) ∧
      Lts.run (fun s io => advance check R s.1 s.2 io) (pc₁, host₁) ios' = some (.returned (.ok output), host') := by
  cases ios with
  | nil =>
    simp only [Lts.run_nil, Option.some.injEq, Prod.mk.injEq] at h
    exact absurd h.1 (hpc _)
  | cons io ios =>
    obtain ⟨s₁, h₁, h₂⟩ := Lts.run_cons_eq_some.1 h
    by_cases hio : io = .ok
    · exact ⟨s₁.1, s₁.2, ios, hio ▸ h₁, h₂⟩
    · obtain ⟨e, left, rfl⟩ := advance_fail hio h₁
      have := run_returned h₂
      simp at this

private theorem run_of_call {command : Command} {ios : List Io} {host host' : Host N} {result : Except String String}
    (h : call check R command ios host = some (result, host')) :
    Lts.run (fun s io => advance check R s.1 s.2 io) (command.start, host) ios = some (.returned result, host') := by
  rw [call] at h
  split at h
  · rename_i hr
    cases h
    exact hr
  · cases h

/-- The chains after a rebuild from rules that the tools accept. -/
def rebuilt (R : RuleReader N) (rules : List FirewallRule) : Host N where
  files := saveFirewallRules rules
  iptables := rules.map (FirewallRule.entry R)
  nft := rules.map (FirewallRule.entry R)

private theorem run_reconcile_ok {host host' : Host N} {ios : List Io} {output output' : String}
    (hbare : ∀ rule ∈ host.rules, rule.IsBare)
    (h : Lts.run (fun s io => advance check R s.1 s.2 io) (.load (.reconcile output), host) ios =
      some (.returned (.ok output'), host')) : host' = rebuilt R host.rules := by
  obtain ⟨_, _, _, ⟨⟩, h⟩ := run_ok (by simp) h
  obtain ⟨_, _, _, ⟨⟩, h⟩ := run_ok (by simp [Reader.next]) h
  obtain ⟨_, _, _, ⟨⟩, h⟩ := run_ok (by simp [Saver.pc]) h
  -- the tools read the snapshots that have just been written
  obtain ⟨_, _, _, h₁, h⟩ := run_ok (by simp) h
  obtain ⟨restored, hrestored, ⟨⟩⟩ := Option.map_eq_some_iff.1 h₁
  obtain ⟨_, _, _, ⟨⟩, h⟩ := run_ok (by simp) h
  obtain ⟨_, _, _, h₁, h⟩ := run_ok (by simp) h
  obtain ⟨loaded, hloaded, ⟨⟩⟩ := Option.map_eq_some_iff.1 h₁
  cases run_returned h
  obtain rfl := restore_render_eq_some hbare hrestored
  rw [Host.rules_save fun rule hr => (hbare rule hr).isPlain] at hloaded
  obtain rfl := load_render_eq_some hbare hloaded
  rfl

/-- A reconciliation rebuilds the chains from the file. -/
theorem call_firewallReconcile_ok {host host' : Host N} {ios : List Io} {output : String}
    (hbare : ∀ rule ∈ host.rules, rule.IsBare)
    (h : call check R .firewallReconcile ios host = some (.ok output, host')) : host' = rebuilt R host.rules :=
  run_reconcile_ok hbare (run_of_call h)

/-- A revocation removes the rule of the id from the file and rebuilds the chains. -/
theorem call_firewallRevoke_ok {host host' : Host N} {ios : List Io} {id output : String}
    (hbare : ∀ rule ∈ host.rules, rule.id ≠ id → rule.IsBare)
    (h : call check R (.firewallRevoke id) ios host = some (.ok output, host')) :
    host' = rebuilt R (host.rules.filter fun rule => rule.id ≠ id) := by
  obtain ⟨pc, host₁, ios₁, ⟨⟩, h₁⟩ := run_ok (by simp [Command.start]) (run_of_call h)
  simp only [Reader.next] at h₁
  split at h₁
  · have := run_returned h₁
    simp at this
  · obtain ⟨_, _, _, ⟨⟩, h₂⟩ := run_ok (by simp) h₁
    have hkept : ∀ rule ∈ host.rules.filter (fun rule => rule.id ≠ id), rule.IsBare := by
      intro rule hr
      obtain ⟨hr, hid⟩ := List.mem_filter.1 hr
      exact hbare rule hr (of_decide_eq_true hid)
    have hrules := Host.rules_save (fun rule hr => (hkept rule hr).isPlain) host.iptables host.nft
    have hhost := run_reconcile_ok (fun rule hr => hkept rule (by rwa [hrules] at hr)) h₂
    rw [hhost, hrules]

/-- An allowance replaces the rule of its id in the file and adds the new rule to both chains. -/
theorem call_firewallAllow_ok {host host' : Host N} {ios : List Io} {rule : Coold.FirewallRule} {src dst : Lookup}
    {output : String} (h : call check R (.firewallAllow rule src dst) ios host = some (.ok output, host')) :
    ∃ normalized, normalizeFirewallRule check (FirewallRule.ofProto rule) src dst = .ok normalized ∧
      R.accepts (firewallNftAddArgs normalized) = true ∧
      host' =
        { files := saveFirewallRules (replaceRule host.rules normalized)
          iptables := normalized.entry R :: host.iptables
          nft := host.nft ++ [normalized.entry R] } := by
  obtain ⟨pc, host₁, ios₁, h₀, h⟩ := run_ok (by simp [Command.start]) (run_of_call h)
  simp only [Command.start, advance] at h₀
  cases hn : normalizeFirewallRule check (FirewallRule.ofProto rule) src dst with
  | error e =>
    rw [hn] at h₀
    cases h₀
    have := run_returned h
    simp at this
  | ok normalized =>
    rw [hn] at h₀
    cases h₀
    -- the file is read, saved, and the rule goes into one chain after the other
    obtain ⟨_, _, _, ⟨⟩, h⟩ := run_ok (by simp) h
    obtain ⟨_, _, _, ⟨⟩, h⟩ := run_ok (by simp [Reader.next]) h
    obtain ⟨_, _, _, h₁, h⟩ := run_ok (by simp [Saver.pc]) h
    obtain ⟨-, ⟨⟩⟩ := Option.ite_none_right_eq_some.1 h₁
    obtain ⟨_, _, _, h₁, h⟩ := run_ok (by simp) h
    obtain ⟨hacc, ⟨⟩⟩ := Option.ite_none_right_eq_some.1 h₁
    cases run_returned h
    exact ⟨normalized, rfl, hacc, rfl⟩

/-! ### The chains and the state file -/

/-- What the rules of a chain accept. -/
def accepted (chain : List (Entry N)) : Set (Accept N) := {a | ∃ entry ∈ chain, entry.accepts = a}

/-- What the rules of the state file are to accept. -/
def tuples (R : RuleReader N) (rules : List FirewallRule) : Set (Accept N) :=
  {a | ∃ rule ∈ rules, (rule.entry R).accepts = a}

/-- The file has at most one rule for an id, and both chains accept what the rules of the file say. -/
def InSync (R : RuleReader N) (host : Host N) : Prop :=
  (host.rules.map FirewallRule.id).Nodup ∧ accepted host.iptables = tuples R host.rules ∧
    accepted host.nft = tuples R host.rules

/-- A sequence of calls that all return `Ok`. -/
def okCall (check : EndpointOwnerCheck) (R : RuleReader N) (host : Host N) (c : Command × List Io) :
    Option (Host N) :=
  match call check R c.1 c.2 host with
  | some (.ok _, host') => some host'
  | _ => none

/-- The id and the namespace of an allowance have no tabs and no line feeds. -/
def Command.IsPlain : Command → Prop
  | .firewallAllow rule _ _ => Plain rule.id ∧ Plain rule.namespace_
  | _ => True

/-- An allowance that replaces a rule leaves what this rule accepts to the new rule or to another one. -/
def ReplacesInPlace (check : EndpointOwnerCheck) (R : RuleReader N) (host : Host N) (c : Command × List Io) : Prop :=
  match c.1 with
  | .firewallAllow rule src dst =>
    match normalizeFirewallRule check (FirewallRule.ofProto rule) src dst with
    | .ok normalized =>
      ∀ old ∈ host.rules, old.id = normalized.id →
        ∃ new ∈ replaceRule host.rules normalized, (new.entry R).accepts = (old.entry R).accepts
    | .error _ => True
  | _ => True

instance : ∀ command : Command, Decidable command.IsPlain
  | .firewallAllow _ _ _ => inferInstanceAs (Decidable (_ ∧ _))
  | .firewallRevoke _ => isTrue trivial
  | .firewallReconcile => isTrue trivial

/-- The fields of the rules stay apart: those of an allowance in the state file, those of the rules that are kept in the
snapshots that a rebuild restores. -/
def FieldsApart (host : Host N) (c : Command × List Io) : Prop :=
  match c.1 with
  | .firewallAllow rule src dst => (Command.firewallAllow rule src dst).IsPlain
  | .firewallRevoke id => ∀ rule ∈ host.rules, rule.id ≠ id → rule.IsBare
  | .firewallReconcile => ∀ rule ∈ host.rules, rule.IsBare

instance (host : Host N) : ∀ c, Decidable (FieldsApart host c)
  | (.firewallAllow rule src dst, _) => inferInstanceAs (Decidable (Command.firewallAllow rule src dst).IsPlain)
  | (.firewallRevoke id, _) => inferInstanceAs (Decidable (∀ rule ∈ host.rules, rule.id ≠ id → rule.IsBare))
  | (.firewallReconcile, _) => inferInstanceAs (Decidable (∀ rule ∈ host.rules, rule.IsBare))

instance [DecidableEq N] (host : Host N) : ∀ c, Decidable (ReplacesInPlace check R host c)
  | (.firewallAllow rule src dst, _) =>
    match h : normalizeFirewallRule check (FirewallRule.ofProto rule) src dst with
    | .ok normalized =>
      decidable_of_iff
        (∀ old ∈ host.rules, old.id = normalized.id →
          ∃ new ∈ replaceRule host.rules normalized, (new.entry R).accepts = (old.entry R).accepts)
        (by simp only [ReplacesInPlace, h])
    | .error _ => isTrue (by simp only [ReplacesInPlace, h])
  | (.firewallRevoke _, _) => isTrue trivial
  | (.firewallReconcile, _) => isTrue trivial

private theorem accepted_map (rules : List FirewallRule) :
    accepted (rules.map (FirewallRule.entry R)) = tuples R rules := by
  ext a
  simp [accepted, tuples]

private theorem accepted_cons (entry : Entry N) (chain : List (Entry N)) :
    accepted (entry :: chain) = insert entry.accepts (accepted chain) := by
  ext a
  simp [accepted, eq_comm]

private theorem accepted_concat (entry : Entry N) (chain : List (Entry N)) :
    accepted (chain ++ [entry]) = insert entry.accepts (accepted chain) := by
  ext a
  simp [accepted, or_and_right, exists_or, eq_comm, or_comm]

/-- The old matches and the new one are what the new file says if and only if the new file says the old ones. -/
private theorem insert_tuples_eq_iff (rules : List FirewallRule) (normalized : FirewallRule) :
    insert (normalized.entry R).accepts (tuples R rules) = tuples R (replaceRule rules normalized) ↔
      ∀ old ∈ rules, old.id = normalized.id →
        ∃ new ∈ replaceRule rules normalized, (new.entry R).accepts = (old.entry R).accepts := by
  constructor
  · intro h old hold _
    have hmem : (old.entry R).accepts ∈ insert (normalized.entry R).accepts (tuples R rules) :=
      Set.mem_insert_of_mem _ ⟨old, hold, rfl⟩
    rwa [h] at hmem
  · intro h
    refine Set.Subset.antisymm ?_ ?_
    · refine Set.insert_subset ⟨normalized, by simp [replaceRule], rfl⟩ ?_
      rintro _ ⟨old, hold, rfl⟩
      by_cases hid : old.id = normalized.id
      · exact h old hold hid
      · exact ⟨old, by simp [replaceRule, hold, hid], rfl⟩
    · rintro _ ⟨new, hnew, rfl⟩
      rcases List.mem_append.1 hnew with hnew | hnew
      · exact Set.mem_insert_of_mem _ ⟨new, (List.mem_filter.1 hnew).1, rfl⟩
      · rw [List.mem_singleton.1 hnew]
        exact Set.mem_insert _ _

private theorem nodup_replaceRule {rules : List FirewallRule} (h : (rules.map FirewallRule.id).Nodup)
    (normalized : FirewallRule) : ((replaceRule rules normalized).map FirewallRule.id).Nodup := by
  rw [replaceRule, List.map_append, List.map_singleton, List.nodup_append]
  refine ⟨(List.Sublist.map _ List.filter_sublist).nodup h, by simp, ?_⟩
  rintro id hid _ hid' rfl
  obtain ⟨rule, hrule, rfl⟩ := List.mem_map.1 hid
  simp only [List.mem_filter, List.mem_singleton] at hrule hid'
  simp [hid'] at hrule

/-- A rule whose addresses the tools accept is plain, if its id and its namespace are. -/
theorem isPlain_of_accepts {normalized : FirewallRule} {rule : Coold.FirewallRule} {src dst : Lookup}
    (hn : normalizeFirewallRule check (FirewallRule.ofProto rule) src dst = .ok normalized)
    (hplain : Plain rule.id ∧ Plain rule.namespace_)
    (hacc : R.accepts (firewallNftAddArgs normalized) = true) : normalized.IsPlain := by
  obtain ⟨hid, hns, hproto⟩ := normalizeFirewallRule_fields hn
  obtain ⟨hsrc, hdst⟩ := Bool.and_eq_true_iff.1 hacc
  have hproto' : Plain normalized.proto := by
    rcases hproto with hp | hp
    · rw [hp]
      decide
    · rw [hp]
      decide
  intro field hf
  simp only [List.mem_cons, List.not_mem_nil, or_false] at hf
  rcases hf with rfl | rfl | rfl | rfl | rfl
  · rw [hid]
    exact hplain.1
  · rw [hns]
    exact hplain.2
  · exact (R.bare_of_valid _ hsrc).2.plain
  · exact (R.bare_of_valid _ hdst).2.plain
  · exact hproto'

private theorem inSync_rebuilt {rules : List FirewallRule} (hplain : ∀ rule ∈ rules, rule.IsPlain)
    (h : (rules.map FirewallRule.id).Nodup) : InSync R (rebuilt R rules) := by
  rw [InSync, rebuilt, Host.rules_save hplain]
  exact ⟨h, accepted_map rules, accepted_map rules⟩

/-- A successful call keeps the chains in step with the file exactly when it replaces no match that is then lost. -/
private theorem inSync_okCall {host host' : Host N} {c : Command × List Io} (hfields : FieldsApart host c)
    (h : InSync R host) (hc : okCall check R host c = some host') :
    InSync R host' ↔ ReplacesInPlace check R host c := by
  obtain ⟨hids, hipt, hnft⟩ := h
  obtain ⟨command, ios⟩ := c
  obtain ⟨output, hcall⟩ : ∃ output, call check R command ios host = some (.ok output, host') := by
    rw [okCall] at hc
    split at hc
    · rename_i heq
      cases hc
      exact ⟨_, heq⟩
    · cases hc
  cases command with
  | firewallReconcile =>
    rw [call_firewallReconcile_ok hfields hcall]
    exact iff_of_true (inSync_rebuilt (fun rule hr => isPlain_of_mem_load hr) hids) trivial
  | firewallRevoke id =>
    rw [call_firewallRevoke_ok hfields hcall]
    refine iff_of_true (inSync_rebuilt (fun rule hr => isPlain_of_mem_load (List.mem_filter.1 hr).1) ?_) trivial
    exact (List.Sublist.map _ List.filter_sublist).nodup hids
  | firewallAllow rule src dst =>
    obtain ⟨normalized, hn, hacc, rfl⟩ := call_firewallAllow_ok hcall
    -- the new match is added to what was there, so that the old one of the id stays
    have hnew : normalized.IsPlain := isPlain_of_accepts hn hfields hacc
    have hiff := insert_tuples_eq_iff (R := R) host.rules normalized
    rw [InSync, Host.rules_save fun r hr => isPlain_of_mem_replaceRule hnew hr, accepted_cons, accepted_concat, hipt,
      hnft]
    simp only [ReplacesInPlace, hn]
    exact ⟨fun h => hiff.1 h.2.1, fun h => ⟨nodup_replaceRule hids normalized, hiff.2 h, hiff.2 h⟩⟩

/-- After a reconciliation of a file with at most one rule for an id, and through any sequence of calls that all
return `Ok` and keep the fields of the rules apart, both chains accept what the rules of the file say and the file has at
most one rule for an id, exactly when no allowance of the sequence replaces a rule whose match is then in no rule of the
file. -/
theorem chains_in_sync_iff {host₀ host host' : Host N} {ios : List Io} {output : String}
    {calls : List (Command × List Io)} (hids : (host₀.rules.map FirewallRule.id).Nodup)
    (hbare : ∀ rule ∈ host₀.rules, rule.IsBare)
    (hrec : call check R .firewallReconcile ios host₀ = some (.ok output, host))
    (hfields : Lts.Along (okCall check R) FieldsApart host calls)
    (hr : Lts.run (okCall check R) host calls = some host') :
    Lts.Always (okCall check R) (InSync R) host calls ↔
      Lts.Along (okCall check R) (ReplacesInPlace check R) host calls := by
  have hstart : InSync R host := by
    rw [call_firewallReconcile_ok hbare hrec]
    exact inSync_rebuilt (fun rule hr => isPlain_of_mem_load hr) hids
  exact Lts.always_iff_along_of_along (O := FieldsApart) (I := fun _ => True) (fun _ _ _ _ _ _ => trivial)
    (fun _ _ _ hc _ hs hstep => inSync_okCall hc hs hstep) hfields trivial hstart hr

/-- Addresses in the usual notation, kept as they are written; a script with any other line is refused. -/
def sampleReader : RuleReader String where
  valid s := s ≠ "" && s.toList.all fun c => c.isDigit || c = '.' || c = '/'
  net := id
  otherIptables _ := none
  otherNft _ := none
  bare_of_valid s h := by
    obtain ⟨hne, hall⟩ := Bool.and_eq_true_iff.1 h
    refine ⟨of_decide_eq_true hne, bare_of_chars ?_ (List.all_eq_true.1 hall)⟩
    rintro c (hc | rfl)
    · rcases isBlank_iff.1 hc with rfl | rfl | rfl <;> decide
    · decide
  tagged _ _ _ h := by cases h

def sampleCheck : EndpointOwnerCheck := ⟨"100.64.0.5", true⟩

/-- Allow one container to reach a port of another one. -/
def allowPort (id : String) (port : Nat) : Command × List Io :=
  (.firewallAllow ⟨"prod", "10.0.0.1", "10.0.0.2", "", port, id⟩ ⟨none, none⟩ ⟨none, none⟩, List.replicate 5 .ok)

def revokeRule (id : String) : Command × List Io := (.firewallRevoke id, List.replicate 8 .ok)

/-- A host without rules. -/
def emptyHost : Host String := rebuilt sampleReader []

private theorem reconcile_emptyHost :
    call sampleCheck sampleReader .firewallReconcile (List.replicate 6 .ok) emptyHost =
      some (.ok "Firewall rules reconciled.", emptyHost) := by
  decide +kernel

/-- The rule of an id is allowed, revoked, and allowed for another port. -/
theorem chains_in_sync_after_revoke :
    Lts.Always (okCall sampleCheck sampleReader) (InSync sampleReader) emptyHost
      [allowPort "a" 80, revokeRule "a", allowPort "a" 443] := by
  obtain ⟨host', hr⟩ := Option.isSome_iff_exists.1
    (by decide +kernel : (Lts.run (okCall sampleCheck sampleReader) emptyHost
      [allowPort "a" 80, revokeRule "a", allowPort "a" 443]).isSome)
  exact (chains_in_sync_iff (by decide +kernel) (by decide +kernel) reconcile_emptyHost (by decide +kernel) hr).2
    (by decide +kernel)

/-- When the rule is allowed for another port without being revoked, both chains keep the first port. -/
theorem chains_out_of_sync :
    call sampleCheck sampleReader .firewallReconcile (List.replicate 6 .ok) emptyHost =
        some (.ok "Firewall rules reconciled.", emptyHost) ∧
      ∃ host', Lts.run (okCall sampleCheck sampleReader) emptyHost [allowPort "a" 80, allowPort "a" 443] = some host' ∧
        ¬ InSync sampleReader host' := by
  refine ⟨reconcile_emptyHost, ?_⟩
  have hend : (Lts.run (okCall sampleCheck sampleReader) emptyHost [allowPort "a" 80, allowPort "a" 443]).map
      (fun host => (host.iptables.map Entry.accepts, host.rules)) =
      some ([⟨"10.0.0.1/32", "10.0.0.2/32", some ("tcp", 443)⟩, ⟨"10.0.0.1/32", "10.0.0.2/32", some ("tcp", 80)⟩],
        [⟨"a", "prod", "10.0.0.1", "10.0.0.2", "tcp", 443⟩]) := by
    decide
  obtain ⟨host', hr, heq⟩ := Option.map_eq_some_iff.1 hend
  obtain ⟨hipt, hrules⟩ := Prod.mk.inj heq
  refine ⟨host', hr, fun h => ?_⟩
  have hmem : (⟨"10.0.0.1/32", "10.0.0.2/32", some ("tcp", 80)⟩ : Accept String) ∈ accepted host'.iptables := by
    refine List.mem_map.1 (hipt ▸ ?_)
    simp
  rw [h.2.1, hrules] at hmem
  obtain ⟨rule, hrule, hacc⟩ := hmem
  rw [List.mem_singleton.1 hrule] at hacc
  exact absurd hacc (by decide)

/-! ### The rule of ingress -/

/-- Caddy may reach the mesh, as far as the two chains are concerned. -/
def CaddyAllowed (R : RuleReader N) (caddyIp meshSubnet : String) (host : Host N) : Prop :=
  caddyIptablesEntry R caddyIp meshSubnet ∈ host.iptables ∧ caddyNftEntry R caddyIp meshSubnet ∈ host.nft

/-- The effect of a call, whatever it returns. -/
def anyCall (check : EndpointOwnerCheck) (R : RuleReader N) (host : Host N) (c : Command × List Io) :
    Option (Host N) :=
  (call check R c.1 c.2 host).map Prod.snd

/-- The handler gets past its first flush: its reads of the file, its saves and the flush succeed, and a revocation
finds a rule to remove. -/
def Flushes (host : Host N) (c : Command × List Io) : Prop :=
  match c.1 with
  | .firewallAllow _ _ _ => False
  | .firewallRevoke id => (∃ rule ∈ host.rules, rule.id = id) ∧ List.replicate 5 Io.ok <+: c.2
  | .firewallReconcile => List.replicate 3 Io.ok <+: c.2

instance (host : Host N) : ∀ c, Decidable (Flushes host c)
  | (.firewallAllow _ _ _, _) => isFalse fun h => h
  | (.firewallRevoke id, replies) =>
    inferInstanceAs (Decidable ((∃ rule ∈ host.rules, rule.id = id) ∧ List.replicate 5 Io.ok <+: replies))
  | (.firewallReconcile, replies) => inferInstanceAs (Decidable (List.replicate 3 Io.ok <+: replies))

private theorem mem_allowCaddyIptables [DecidableEq N] {io : CaddyIo} {entry : Entry N} {host host' : Host N}
    (h : allowCaddyIptables io entry host = some host') : entry ∈ host'.iptables := by
  rw [allowCaddyIptables] at h
  split at h
  · rename_i hin
    cases h
    exact hin.2
  · obtain ⟨-, ⟨⟩⟩ := Option.ite_none_right_eq_some.1 h
    exact List.mem_cons_self

private theorem mem_allowCaddyNft [DecidableEq N] {io : CaddyIo} {entry : Entry N} {host host' : Host N}
    (h : allowCaddyNft io entry host = some host') : entry ∈ host'.nft ∧ host'.iptables = host.iptables := by
  rw [allowCaddyNft] at h
  split at h
  · rename_i hin
    cases h
    exact ⟨hin.2, rfl⟩
  · obtain ⟨-, ⟨⟩⟩ := Option.ite_none_right_eq_some.1 h
    exact ⟨by simp, rfl⟩

/-- Once ingress has been applied both chains have its rule. -/
private theorem caddyAllowed_of_ensure [DecidableEq N] {io : CaddyIo} {host host' : Host N}
    {caddyIp meshSubnet : String}
    (hip : containerIp io.container = .ok caddyIp) (hnet : meshNetworkSubnet io.network = .ok meshSubnet)
    (h : ensureCaddyMeshFirewall R io host = (.ok (), host')) : CaddyAllowed R caddyIp meshSubnet host' := by
  simp only [ensureCaddyMeshFirewall, hip, hnet] at h
  split at h
  · cases h
  · rename_i host₁ hipt
    split at h
    · cases h
    · rename_i host₂ hnft
      cases h
      obtain ⟨hmem, heq⟩ := mem_allowCaddyNft hnft
      exact ⟨heq ▸ mem_allowCaddyIptables hipt, hmem⟩

/-- The steps of a handler that does not rebuild the chains. -/
private def Pc.adds : Pc → Bool
  | .allow _ _ _ | .load (.allow _) | .save _ (.apply _) | .iptablesInsert _ | .nftAdd _ | .returned _ => true
  | _ => false

/-- Such a step keeps what is in the chains. -/
private theorem advance_adds {pc pc' : Pc} {host host' : Host N} {io : Io} (hpc : pc.adds = true)
    (h : advance check R pc host io = some (pc', host')) :
    pc'.adds = true ∧ host.iptables ⊆ host'.iptables ∧ host.nft ⊆ host'.nft := by
  cases advance_sound h with
  | load =>
    rename_i reader
    cases reader with
    | allow normalized => exact ⟨rfl, List.Subset.refl _, List.Subset.refl _⟩
    | _ => cases hpc
  | save =>
    rename_i next
    cases next with
    | apply normalized => exact ⟨rfl, List.Subset.refl _, List.Subset.refl _⟩
    | _ => cases hpc
  | insert => exact ⟨rfl, List.subset_cons_self _ _, List.Subset.refl _⟩
  | add => exact ⟨rfl, List.Subset.refl _, List.subset_append_left _ _⟩
  | flushIptables | restoreIptables | flushNft | restoreNft => cases hpc
  | _ => exact ⟨rfl, List.Subset.refl _, List.Subset.refl _⟩

/-- The steps of a rebuild from its first flush on. -/
private def Pc.restoring : Pc → Bool
  | .iptablesRestore _ | .nftFlush _ | .nftRestore _ | .returned _ => true
  | _ => false

/-- The chain has no rule without a comment, and the snapshot to restore is that of some rules. -/
private structure Flushed (s : Pc × Host N) : Prop where
  restoring : s.1.restoring = true
  snapshot : ∃ rules, (∀ rule ∈ rules, rule.IsPlain) ∧ s.2.files.allowRules = renderIptablesSnapshot rules
  tagged : ∀ entry ∈ s.2.iptables, entry.id ≠ none

private theorem Flushed.advance {s s' : Pc × Host N} {io : Io} (hs : Flushed s)
    (h : advance check R s.1 s.2 io = some s') : Flushed s' := by
  obtain ⟨pc, host⟩ := s
  obtain ⟨pc', host'⟩ := s'
  obtain ⟨hpc, hsnapshot, htagged⟩ := hs
  cases advance_sound h with
  | restoreIptables hentries =>
    obtain ⟨rules, hplain, hrules⟩ := hsnapshot
    refine ⟨rfl, ⟨rules, hplain, hrules⟩, List.forall_mem_append.2 ⟨htagged, ?_⟩⟩
    exact restore_tagged hplain (hrules ▸ hentries)
  | flushNft | restoreNft | fail => exact ⟨rfl, hsnapshot, htagged⟩
  | _ => cases hpc

section Ingress

variable {caddyIp meshSubnet : String}

/-- From here the handler loses the rule of ingress in its next `k` steps, unless one of them fails. -/
private def LosesIn (check : EndpointOwnerCheck) (R : RuleReader N) (caddyIp meshSubnet : String) (k : Nat) (pc : Pc)
    (host : Host N) : Prop :=
  ∀ ios result host',
    Lts.run (fun s io => advance check R s.1 s.2 io) (pc, host) ios = some (.returned result, host') →
      CaddyAllowed R caddyIp meshSubnet host →
        (CaddyAllowed R caddyIp meshSubnet host' ↔ ¬ List.replicate k Io.ok <+: ios)

private theorem caddyAllowed_of_eq {host host' : Host N} (hipt : host'.iptables = host.iptables)
    (hnft : host'.nft = host.nft) (h : CaddyAllowed R caddyIp meshSubnet host) :
    CaddyAllowed R caddyIp meshSubnet host' := by
  rw [CaddyAllowed, hipt, hnft]
  exact h

private theorem losesIn_succ {pc pc₁ : Pc} {host host₁ : Host N} {k : Nat} (hpc : ∀ result, pc ≠ .returned result)
    (hstep : advance check R pc host .ok = some (pc₁, host₁)) (hipt : host₁.iptables = host.iptables)
    (hnft : host₁.nft = host.nft) (h : LosesIn check R caddyIp meshSubnet k pc₁ host₁) :
    LosesIn check R caddyIp meshSubnet (k + 1) pc host := by
  intro ios result host' hr hc
  cases ios with
  | nil =>
    simp only [Lts.run_nil, Option.some.injEq, Prod.mk.injEq] at hr
    exact absurd hr.1 (hpc _)
  | cons io ios =>
    obtain ⟨s₁, h₁, h₂⟩ := Lts.run_cons_eq_some.1 hr
    rw [List.replicate_succ, List.cons_prefix_cons]
    by_cases hio : io = .ok
    · subst hio
      obtain rfl : (pc₁, host₁) = s₁ := Option.some.inj (hstep.symm.trans h₁)
      rw [h ios result host' h₂ (caddyAllowed_of_eq hipt hnft hc)]
      simp
    · obtain ⟨e, left, rfl⟩ := advance_fail hio h₁
      cases run_returned h₂
      exact iff_of_true hc fun hp => hio hp.1.symm

/-- The flush itself: what is put back is all from the state file. -/
private theorem losesIn_flush (output : String) {rules : List FirewallRule} (hplain : ∀ rule ∈ rules, rule.IsPlain)
    (host : Host N) :
    LosesIn check R caddyIp meshSubnet 1 (.iptablesFlush output) { host with files := saveFirewallRules rules } := by
  intro ios result host' hr hc
  cases ios with
  | nil => cases hr
  | cons io ios =>
    obtain ⟨s₁, h₁, h₂⟩ := Lts.run_cons_eq_some.1 hr
    rw [List.replicate_one, List.cons_prefix_cons]
    by_cases hio : io = .ok
    · subst hio
      cases h₁
      have hflushed := Lts.invariant_of_step (I := Flushed) (fun _ _ _ hs hstep => hs.advance hstep)
        ⟨rfl, ⟨rules, hplain, rfl⟩, by simp⟩ h₂
      refine iff_of_false (fun hc' => hflushed.tagged _ hc'.1 rfl) ?_
      simp
    · obtain ⟨e, left, rfl⟩ := advance_fail hio h₁
      cases run_returned h₂
      exact iff_of_true hc fun hp => hio hp.1.symm

private theorem losesIn_reconcile (output : String) (host : Host N) :
    LosesIn check R caddyIp meshSubnet 3 (.load (.reconcile output)) host :=
  losesIn_succ (by simp) rfl rfl rfl <| losesIn_succ (by simp [Reader.next]) rfl rfl rfl <|
    losesIn_flush output (fun _ hr => isPlain_of_mem_load hr) host

/-- A call keeps the rule of ingress exactly when it does not get past its first flush. -/
private theorem caddyAllowed_anyCall {host host' : Host N} {c : Command × List Io}
    (h : CaddyAllowed R caddyIp meshSubnet host) (hc : anyCall check R host c = some host') :
    CaddyAllowed R caddyIp meshSubnet host' ↔ ¬ Flushes host c := by
  obtain ⟨command, ios⟩ := c
  obtain ⟨⟨result, host₁⟩, hcall, rfl⟩ := Option.map_eq_some_iff.1 hc
  have hr := run_of_call hcall
  cases command with
  | firewallAllow rule src dst =>
    have hkeep := Lts.invariant_of_step
      (I := fun s : Pc × Host N => s.1.adds = true ∧ CaddyAllowed R caddyIp meshSubnet s.2)
      (fun s io s' hs hstep => by
        obtain ⟨hadds, hipt, hnft⟩ := advance_adds hs.1 hstep
        exact ⟨hadds, hipt hs.2.1, hnft hs.2.2⟩) ⟨rfl, h⟩ hr
    exact iff_of_true hkeep.2 not_false
  | firewallReconcile => exact losesIn_reconcile _ host ios result host₁ hr h
  | firewallRevoke id =>
    by_cases hfound : ∃ rule ∈ host.rules, rule.id = id
    · have hload : advance check R (.load (.revoke id)) host .ok =
          some (.save (host.rules.filter fun rule => rule.id ≠ id) .reconcile, host) := by
        rw [advance, Reader.next_revoke, if_pos hfound]
      have hloses : LosesIn check R caddyIp meshSubnet 5 (.load (.revoke id)) host :=
        losesIn_succ (by simp) hload rfl rfl <| losesIn_succ (by simp) rfl rfl rfl <| losesIn_reconcile _ _
      rw [hloses ios result host₁ hr h]
      simp only [Flushes, hfound, true_and]
    · -- nothing to remove: the handler returns after its first step
      refine iff_of_true ?_ fun hf => hfound hf.1
      cases ios with
      | nil => cases hr
      | cons io ios =>
        obtain ⟨s₁, h₁, h₂⟩ := Lts.run_cons_eq_some.1 hr
        by_cases hio : io = .ok
        · subst hio
          simp only [Command.start, advance, Reader.next_revoke, if_neg hfound] at h₁
          cases h₁
          cases run_returned h₂
          exact h
        · obtain ⟨e, left, rfl⟩ := advance_fail hio h₁
          cases run_returned h₂
          exact h

/-- After ingress has been applied, and through any sequence of firewall commands, the rule of ingress stays in both
chains exactly when no command of the sequence gets past its first flush. -/
theorem caddy_allowed_iff [DecidableEq N] {io : CaddyIo} {host₀ host host' : Host N} {calls : List (Command × List Io)}
    (hip : containerIp io.container = .ok caddyIp) (hnet : meshNetworkSubnet io.network = .ok meshSubnet)
    (h : ensureCaddyMeshFirewall R io host₀ = (.ok (), host))
    (hr : Lts.run (anyCall check R) host calls = some host') :
    Lts.Always (anyCall check R) (CaddyAllowed R caddyIp meshSubnet) host calls ↔
      Lts.Along (anyCall check R) (fun host c => ¬ Flushes host c) host calls :=
  Lts.always_iff_along_of_step (fun _ _ _ hs hstep => caddyAllowed_anyCall hs hstep)
    (caddyAllowed_of_ensure hip hnet h) hr

end Ingress

def sampleCaddyIo : CaddyIo where
  container := some "10.210.0.40\n"
  network := some "10.210.0.0/24\n"
  checks := true
  inserts := true
  lists := true
  adds := true

/-- The host without rules, after ingress has been applied. -/
def caddyHost : Host String :=
  { emptyHost with
    iptables := [caddyIptablesEntry sampleReader "10.210.0.40" "10.210.0.0/24"]
    nft := [caddyNftEntry sampleReader "10.210.0.40" "10.210.0.0/24"] }

private theorem ensure_caddyHost :
    ensureCaddyMeshFirewall sampleReader sampleCaddyIo emptyHost = (.ok (), caddyHost) := by
  decide

/-- An allowance and a revocation of an unknown id leave the rule of ingress in the chains. -/
theorem caddy_allowed_after_allow :
    Lts.Always (anyCall sampleCheck sampleReader) (CaddyAllowed sampleReader "10.210.0.40" "10.210.0.0/24") caddyHost
      [allowPort "a" 80, (.firewallRevoke "b", [.ok])] := by
  obtain ⟨host', hr⟩ := Option.isSome_iff_exists.1
    (by decide : (Lts.run (anyCall sampleCheck sampleReader) caddyHost
      [allowPort "a" 80, (.firewallRevoke "b", [.ok])]).isSome)
  exact (caddy_allowed_iff (by decide) (by decide) ensure_caddyHost hr).2 (by decide)

/-- A reconciliation removes it. -/
theorem caddy_cut_off :
    ensureCaddyMeshFirewall sampleReader sampleCaddyIo emptyHost = (.ok (), caddyHost) ∧
      ∃ host', Lts.run (anyCall sampleCheck sampleReader) caddyHost [(.firewallReconcile, List.replicate 6 .ok)] =
          some host' ∧
        ¬ CaddyAllowed sampleReader "10.210.0.40" "10.210.0.0/24" host' := by
  refine ⟨ensure_caddyHost, emptyHost, by decide, ?_⟩
  simp [CaddyAllowed, emptyHost, rebuilt]

end Coold.Agent.Firewall
