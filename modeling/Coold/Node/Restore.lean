import Coold.Agent.FirewallCalls
import Coold.Agent.Snapshots
import Coold.Node.FirewallUnit

/-!
# The snapshots after a restart

A default-deny start empties the chain `COOLIFY-ALLOW` and restores it from its snapshot.  The chain `coolify_allow` of
the bridge is not emptied: neither the unit nor the snapshot flushes it, and the rules of the snapshot are added to
those that are there.

`restart_exact_iff` says when two restarts give what the state file says, and `restart_exact_iff_of_reads` what this
means where the tools read the snapshots as they are meant.
-/

namespace Coold.Node

open Netfilter Cli Agent.Firewall

section Restart

variable {N : Type}

/-- A host on which these rules have been saved; its chains and the rest are arbitrary. -/
def saved (rules : List Agent.Firewall.FirewallRule) (forward : List (Rule (Cond (Entry N)) Chain))
    (h : Host (Entry N) String String) : Host (Entry N) String String :=
  { h.setForward forward with
    allowRules := some (renderIptablesSnapshot rules)
    bridgeAllowRules := some (renderNftSnapshot rules) }

variable (R : RuleReader N)

/-- Both chains accept what the rules say, once each. -/
structure AllowsExactly {B B' : Type} (rules : List Agent.Firewall.FirewallRule) (h : Host (Entry N) B B') : Prop where
  allow : ((h.filter .allow).getD []).Perm (rules.map fun rule => allowRule (rule.entry R))
  bridge : h.bridgeAllow.Perm (rules.map fun rule => bridgeAllowRule (rule.entry R))

theorem allowRule_injective {A : Type} : Function.Injective (allowRule (A := A)) := fun a b h => by
  simpa [allowRule] using h

theorem bridgeAllowRule_injective {A : Type} : Function.Injective (bridgeAllowRule (A := A)) := fun a b h => by
  simpa [bridgeAllowRule] using h

variable [DecidableEq N]

/-- A restart gives both chains exactly the rules, and another one changes neither of them. -/
def RestartsExactly (tools : Tools (Entry N) String String) (iface : String) (subnets : List Ipv4Net)
    (rules : List Agent.Firewall.FirewallRule) (h : Host (Entry N) String String) : Prop :=
  let h₁ := startUnit tools iface subnets true h
  let h₂ := startUnit tools iface subnets true h₁
  AllowsExactly R rules h₁ ∧ h₂.filter .allow = h₁.filter .allow ∧ h₂.bridgeAllow = h₁.bridgeAllow

variable {R} {tools : Tools (Entry N) String String} {rules : List Agent.Firewall.FirewallRule}
  {forward : List (Rule (Cond (Entry N)) Chain)} {h : Host (Entry N) String String}

/-- What is added to the chain of the bridge, as `nft` reads the snapshot. -/
def added (tools : Tools (Entry N) String String) (subnets : List Ipv4Net)
    (rules : List Agent.Firewall.FirewallRule) : List (BridgeRule (Entry N)) :=
  (if tools.set subnets then (tools.load (renderNftSnapshot rules)).getD [] else []).map bridgeAllowRule

/-- Both chains after a restart. -/
private theorem chains_restart (iface : String) (subnets : List Ipv4Net) (hf : h.filter .forward = some forward)
    (hr : h.allowRules = some (renderIptablesSnapshot rules))
    (hb : h.bridgeAllowRules = some (renderNftSnapshot rules)) :
    (startUnit tools iface subnets true h).filter .allow =
        some (((tools.restore (renderIptablesSnapshot rules)).getD []).map allowRule) ∧
      (startUnit tools iface subnets true h).bridgeAllow = h.bridgeAllow ++ added tools subnets rules := by
  obtain ⟨hallow, hbridge⟩ := allow_startUnit_deny hf
  rw [hallow, hbridge, restoredAllow, hr, addedBridgeAllow, hb, added]
  exact ⟨rfl, rfl⟩

/-- Two restarts give what the rules say exactly when `iptables-restore` reads the snapshot as these rules, the chain of
the bridge has them already, and `nft` adds nothing: it reads no rule from the snapshot, or it refuses the snapshot or
the scaffold before it. -/
theorem restart_exact_iff (R : RuleReader N) (tools : Tools (Entry N) String String) (iface : String)
    (subnets : List Ipv4Net) (rules : List Agent.Firewall.FirewallRule) (forward : List (Rule (Cond (Entry N)) Chain))
    (h : Host (Entry N) String String) :
    RestartsExactly R tools iface subnets rules (saved rules forward h) ↔
      ((tools.restore (renderIptablesSnapshot rules)).getD []).Perm (rules.map (FirewallRule.entry R)) ∧
        h.bridgeAllow.Perm (rules.map fun rule => bridgeAllowRule (rule.entry R)) ∧
        (tools.set subnets = true → (tools.load (renderNftSnapshot rules)).getD [] = []) := by
  have hforward : (saved rules forward h).filter .forward = some forward := Host.setForward_forward (h := h) forward
  obtain ⟨hallow₁, hbridge₁⟩ := chains_restart iface subnets hforward rfl rfl
  obtain ⟨hr, hb⟩ := files_startUnit (h := saved rules forward h) iface subnets true
  obtain ⟨hallow₂, hbridge₂⟩ := chains_restart iface subnets (filter_startUnit_deny hforward).1 hr hb
  have hadded : added tools subnets rules = [] ↔
      (tools.set subnets = true → (tools.load (renderNftSnapshot rules)).getD [] = []) := by
    rw [added, List.map_eq_nil_iff]
    cases tools.set subnets <;> simp
  have hiptables : (((tools.restore (renderIptablesSnapshot rules)).getD []).map allowRule).Perm
      (rules.map fun rule => allowRule (rule.entry R)) ↔
      ((tools.restore (renderIptablesSnapshot rules)).getD []).Perm (rules.map (FirewallRule.entry R)) := by
    rw [← List.map_perm_map_iff (allowRule_injective (A := Entry N)), List.map_map]
    rfl
  rw [← hadded, ← hiptables]
  constructor
  · rintro ⟨⟨hexact, hbridge⟩, -, hsame⟩
    rw [hbridge₂, List.append_right_eq_self] at hsame
    rw [hallow₁] at hexact
    rw [hbridge₁, hsame, List.append_nil] at hbridge
    exact ⟨hexact, hbridge, hsame⟩
  · rintro ⟨hexact, hbridge, hsame⟩
    refine ⟨⟨?_, ?_⟩, hallow₂.trans hallow₁.symm, ?_⟩
    · rw [hallow₁]
      exact hexact
    · rw [hbridge₁, hsame, List.append_nil]
      exact hbridge
    · rw [hbridge₂, hsame, List.append_nil]

/-- Where the tools read the snapshots as they are meant, only a host without rules is restarted exactly. -/
theorem restart_exact_iff_of_reads {iface : String} {subnets : List Ipv4Net}
    (hrestore : tools.restore (renderIptablesSnapshot rules) = some (rules.map (FirewallRule.entry R)))
    (hload : tools.load (renderNftSnapshot rules) = some (rules.map (FirewallRule.entry R)))
    (hset : tools.set subnets = true) :
    RestartsExactly R tools iface subnets rules (saved rules forward h) ↔ rules = [] ∧ h.bridgeAllow = [] := by
  rw [restart_exact_iff, hrestore, hload, hset]
  simp only [Option.getD_some, List.Perm.refl, true_and, true_implies, List.map_eq_nil_iff]
  constructor
  · rintro ⟨hbridge, rfl⟩
    exact ⟨rfl, List.perm_nil.1 hbridge⟩
  · rintro ⟨rfl, hbridge⟩
    exact ⟨hbridge ▸ List.Perm.nil, rfl⟩

end Restart

/-! ### A rule that is restored twice -/

/-- The rule of an allowance between two containers. -/
def dbRule : Agent.Firewall.FirewallRule := ⟨"web-db", "prod", "10.210.1.2", "10.210.1.3", "tcp", 5432⟩

/-- Tools that read the snapshots of this rule as they are meant, and make a set of any subnets but none. -/
def dbTools : Tools (Entry String) String String where
  restore text := if text = renderIptablesSnapshot [dbRule] then some [dbRule.entry sampleReader] else none
  load text := if text = renderNftSnapshot [dbRule] then some [dbRule.entry sampleReader] else none
  set subnets := !subnets.isEmpty

/-- A host that has just been booted. -/
def booted : Host (Entry String) String String where
  filter
    | .forward => some []
    | _ => none
  postrouting := []
  bridge := none
  allowRules := none
  bridgeAllowRules := none

def restarted (h : Host (Entry String) String String) : Host (Entry String) String String :=
  startUnit dbTools "wg0" [.ofLen 0x0AD20100 24] true h

/-- After the boot both chains have the rule once; after a restart of the unit the bridge has it twice. -/
theorem restored_twice :
    AllowsExactly sampleReader [dbRule] (restarted (saved [dbRule] [] booted)) ∧
      (restarted (restarted (saved [dbRule] [] booted))).bridgeAllow =
        [bridgeAllowRule (dbRule.entry sampleReader), bridgeAllowRule (dbRule.entry sampleReader)] ∧
      ¬ RestartsExactly sampleReader dbTools "wg0" [.ofLen 0x0AD20100 24] [dbRule] (saved [dbRule] [] booted) := by
  have hfirst : (restarted (saved [dbRule] [] booted)).bridgeAllow = [bridgeAllowRule (dbRule.entry sampleReader)] := by
    decide +kernel
  have hsecond : (restarted (restarted (saved [dbRule] [] booted))).bridgeAllow =
      [bridgeAllowRule (dbRule.entry sampleReader), bridgeAllowRule (dbRule.entry sampleReader)] := by
    decide +kernel
  refine ⟨⟨by decide +kernel, by rw [hfirst]; exact List.Perm.refl _⟩, hsecond, fun h => ?_⟩
  have hsame := h.2.2
  change (restarted (restarted (saved [dbRule] [] booted))).bridgeAllow =
    (restarted (saved [dbRule] [] booted)).bridgeAllow at hsame
  rw [hfirst, hsecond] at hsame
  cases hsame

end Coold.Node
