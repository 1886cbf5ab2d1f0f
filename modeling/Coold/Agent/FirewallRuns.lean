import Coold.Agent.FirewallCalls

/-!
# Concurrent firewall commands

Every command of a stream is handled in a task of its own, so that any number of firewall handlers run at once.
`FirewallSys.step` starts a handler or moves one of them by one step; every interleaving is a run of it.  Each handler
reads the whole state file, changes the rules and writes the whole file, and nothing keeps another one from doing the
same in between.

`Exclusive` is what a lock around each reading and the saving that follows would give, together with commands for one
id that come one after the other, rules whose fields are words and steps that do not fail.  Along a run that meets it
the file has the rules of the last command for each id, and the chains follow it up to a rebuild that is still under
way (`Inv`).
-/

namespace Coold.Agent.Firewall

/-- A handler.  `returnedAt` records how many commands had been started when it returned: the commands from there on
were started afterwards. -/
structure Handler where
  command : Command
  pc : Pc
  returnedAt : Option Nat
  deriving DecidableEq

structure FirewallSys (N : Type) where
  host : Host N
  handlers : List Handler
  deriving DecidableEq

inductive FirewallOp where
  | start (command : Command)
  | move (i : Nat) (io : Io)
  deriving DecidableEq

/-- The handler after a step; `started` is the number of commands that have been started. -/
def Handler.moveTo (handler : Handler) (started : Nat) : Pc → Handler
  | .returned result => { handler with pc := .returned result, returnedAt := some started }
  | pc => { handler with pc }

@[simp] theorem Handler.moveTo_command (handler : Handler) (started : Nat) (pc : Pc) :
    (handler.moveTo started pc).command = handler.command := by
  cases pc <;> rfl

@[simp] theorem Handler.moveTo_pc (handler : Handler) (started : Nat) (pc : Pc) :
    (handler.moveTo started pc).pc = pc := by
  cases pc <;> rfl

private theorem Handler.moveTo_returnedAt (handler : Handler) (started : Nat) {pc : Pc}
    (h : ∀ result, pc ≠ .returned result) :
    (handler.moveTo started pc).returnedAt = handler.returnedAt := by
  cases pc with
  | returned result => exact absurd rfl (h result)
  | _ => rfl

/-- The id that a command is about. -/
def Command.id? : Command → Option String
  | .firewallAllow rule _ _ => some rule.id
  | .firewallRevoke id => some id
  | .firewallReconcile => none

/-- The handler has read the file and not yet written it. -/
def Pc.holdsRules : Pc → Bool
  | .save _ _ => true
  | _ => false

/-- The steps of a rebuild of the chains. -/
def Pc.rebuilds : Pc → Bool
  | .load (.reconcile _) | .save _ (.flush _) => true
  | .iptablesFlush _ | .iptablesRestore _ | .nftFlush _ | .nftRestore _ => true
  | _ => false

/-- The steps of a rebuild after the files have been saved. -/
def Pc.restores : Pc → Bool
  | .iptablesFlush _ | .iptablesRestore _ | .nftFlush _ | .nftRestore _ => true
  | _ => false

/-- The fields of the rule that an allowance writes are words. -/
def Command.writesBare (check : EndpointOwnerCheck) : Command → Bool
  | .firewallAllow rule src dst =>
    match normalizeFirewallRule check (FirewallRule.ofProto rule) src dst with
    | .ok normalized => decide normalized.IsBare
    | .error _ => true
  | _ => true

namespace FirewallSys

variable {N : Type} (check : EndpointOwnerCheck) (R : RuleReader N)

def step (s : FirewallSys N) : FirewallOp → Option (FirewallSys N)
  | .start command => some { s with handlers := s.handlers ++ [⟨command, command.start, none⟩] }
  | .move i io => do
    let handler ← s.handlers[i]?
    let (pc, host) ← advance check R handler.pc s.host io
    return { host, handlers := s.handlers.set i (handler.moveTo s.handlers.length pc) }

/-- No handler is under way. -/
def AllReturned (s : FirewallSys N) : Prop := ∀ handler ∈ s.handlers, ∃ result, handler.pc = .returned result

/-- The `j`-th command was started after the handler had returned. -/
def StartedAfter (handler : Handler) (j : Nat) : Prop := ∃ n, handler.returnedAt = some n ∧ n ≤ j

/-- The rule of an allowance that returned `Ok` is in the file and in both chains, unless its id was allowed again or
revoked by a command that was started after it had returned. -/
def AllowKept (s : FirewallSys N) : Prop :=
  ∀ handler ∈ s.handlers, ∀ rule src dst output normalized,
    handler.command = .firewallAllow rule src dst → handler.pc = .returned (.ok output) →
      normalizeFirewallRule check (FirewallRule.ofProto rule) src dst = .ok normalized →
        (∀ j other, s.handlers[j]? = some other → StartedAfter handler j → other.command.id? ≠ some rule.id) →
          normalized ∈ s.host.rules ∧ normalized.entry R ∈ s.host.iptables ∧ normalized.entry R ∈ s.host.nft

/-- An id whose revocation returned `Ok` is neither in the file nor in a chain, unless it was allowed by a command that
had not returned when the revocation was started. -/
def RevokeKept (s : FirewallSys N) : Prop :=
  ∀ i handler id output, s.handlers[i]? = some handler → handler.command = .firewallRevoke id →
    handler.pc = .returned (.ok output) →
      (∀ other ∈ s.handlers, ∀ rule src dst, other.command = .firewallAllow rule src dst → rule.id = id →
        StartedAfter other i) →
        (∀ rule ∈ s.host.rules, rule.id ≠ id) ∧ (∀ entry ∈ s.host.iptables, entry.id ≠ some id) ∧
          ∀ entry ∈ s.host.nft, entry.id ≠ some id

/-- A command is started when no other command for its id is under way, a handler reads the file when no other one
has read it and not yet written it, and no save and no command of a handler fails. -/
def Exclusive (s : FirewallSys N) : FirewallOp → Prop
  | .start command =>
    command.writesBare check = true ∧
      ∀ handler ∈ s.handlers, handler.returnedAt = none → command.id? ≠ none → handler.command.id? ≠ command.id?
  | .move i io =>
    match s.handlers[i]?.map Handler.pc with
    | some (.load _) => ∀ other ∈ s.handlers, other.pc.holdsRules = false
    | _ => io = .ok

instance (s : FirewallSys N) : ∀ op, Decidable (Exclusive check s op)
  | .start _ => inferInstanceAs (Decidable (_ ∧ _))
  | .move i io =>
    match h : s.handlers[i]?.map Handler.pc with
    | some (.load _) =>
      decidable_of_iff (∀ other ∈ s.handlers, other.pc.holdsRules = false) (by simp only [Exclusive, h])
    | none | some (.allow _ _ _) | some (.save _ _) | some (.iptablesInsert _) | some (.nftAdd _)
    | some (.iptablesFlush _) | some (.iptablesRestore _) | some (.nftFlush _) | some (.nftRestore _)
    | some (.returned _) => decidable_of_iff (io = .ok) (by simp only [Exclusive, h])

/-! ### What a step does -/

/-- The commands that a handler may be in the middle of. -/
inductive Belongs : Command → Pc → Prop
  | allow {rule src dst} : Belongs (.firewallAllow rule src dst) (.allow (FirewallRule.ofProto rule) src dst)
  | allowLoad {rule src dst n} (h : normalizeFirewallRule check (FirewallRule.ofProto rule) src dst = .ok n) :
      Belongs (.firewallAllow rule src dst) (.load (.allow n))
  | allowSave {rule src dst n rules} (h : normalizeFirewallRule check (FirewallRule.ofProto rule) src dst = .ok n) :
      Belongs (.firewallAllow rule src dst) (.save rules (.apply n))
  | insert {rule src dst n} (h : normalizeFirewallRule check (FirewallRule.ofProto rule) src dst = .ok n) :
      Belongs (.firewallAllow rule src dst) (.iptablesInsert n)
  | add {rule src dst n} (h : normalizeFirewallRule check (FirewallRule.ofProto rule) src dst = .ok n) :
      Belongs (.firewallAllow rule src dst) (.nftAdd n)
  | revokeLoad {id} : Belongs (.firewallRevoke id) (.load (.revoke id))
  | revokeSave {id rules} : Belongs (.firewallRevoke id) (.save rules .reconcile)
  | rebuild {command pc} (hc : ∀ rule src dst, command ≠ .firewallAllow rule src dst) (hpc : pc.rebuilds = true) :
      Belongs command pc
  | returned {command result} : Belongs command (.returned result)

variable {check R}

private theorem step_move {s s' : FirewallSys N} {k : Nat} {io : Io} (h : step check R s (.move k io) = some s') :
    ∃ handler pc', s.handlers[k]? = some handler ∧ Advance check R handler.pc s.host io pc' s'.host ∧
      s'.handlers = s.handlers.set k (handler.moveTo s.handlers.length pc') := by
  obtain ⟨handler, hk, h⟩ := Option.bind_eq_some_iff.1 h
  obtain ⟨⟨pc', host'⟩, hadv, ⟨⟩⟩ := Option.bind_eq_some_iff.1 h
  exact ⟨handler, pc', hk, advance_sound hadv, rfl⟩

private theorem belongs_start (command : Command) : Belongs check command command.start := by
  cases command with
  | firewallAllow rule src dst => exact .allow
  | firewallRevoke id => exact .revokeLoad
  | firewallReconcile => exact .rebuild (by simp) rfl

private theorem belongs_advance {command : Command} {pc pc' : Pc} {host host' : Host N} {io : Io}
    (hb : Belongs check command pc) (h : Advance check R pc host io pc' host') : Belongs check command pc' := by
  cases h with
  | fail | saveFails | refuse => exact .returned
  | normalize hn =>
    cases hb with
    | allow => exact .allowLoad hn
    | rebuild _ hpc => cases hpc
  | load =>
    cases hb with
    | allowLoad hn => exact .allowSave hn
    | revokeLoad =>
      -- a revocation that finds no rule returns
      rw [Reader.next_revoke]
      split
      · exact .revokeSave
      · exact .returned
    | rebuild hc hpc =>
      rename_i reader
      cases reader with
      | reconcile output => exact .rebuild hc rfl
      | _ => cases hpc
  | save =>
    cases hb with
    | allowSave hn => exact .insert hn
    | revokeSave => exact .rebuild (by simp) rfl
    | rebuild hc hpc =>
      rename_i next
      cases next with
      | flush output => exact .rebuild hc rfl
      | _ => cases hpc
  | insert =>
    cases hb with
    | insert hn => exact .add hn
    | rebuild _ hpc => cases hpc
  | add => exact .returned
  | flushIptables =>
    cases hb with
    | rebuild hc _ => exact .rebuild hc rfl
  | restoreIptables =>
    cases hb with
    | rebuild hc _ => exact .rebuild hc rfl
  | flushNft =>
    cases hb with
    | rebuild hc _ => exact .rebuild hc rfl
  | restoreNft => exact .returned

/-- The rules that a handler is about to save are the ones of the file with its own change. -/
def SavesChange (command : Command) (next : Saver) (rules current : List FirewallRule) : Prop :=
  match next with
  | .apply normalized => rules = replaceRule current normalized
  | .reconcile => ∀ id, command = .firewallRevoke id → rules = current.filter fun rule => rule.id ≠ id
  | .flush _ => rules = current

/-- The snapshots are those of the rules of the file. -/
def SnapshotsMatch (host : Host N) : Prop :=
  host.files.allowRules = renderIptablesSnapshot host.rules ∧
    host.files.bridgeAllowRules = renderNftSnapshot host.rules

/-- A handler that has read the file is about to save what it has read, with its own change. -/
private theorem savesChange_next {command : Command} {reader : Reader} {rules saved : List FirewallRule} {next : Saver}
    (hb : Belongs check command (.load reader)) (h : reader.next rules = .save saved next) :
    SavesChange command next saved rules := by
  cases hb with
  | allowLoad hn =>
    cases h
    rfl
  | revokeLoad =>
    rw [Reader.next_revoke] at h
    split at h
    · cases h
      rintro _ ⟨⟩
      rfl
    · cases h
  | rebuild _ hpc =>
    cases reader with
    | reconcile output =>
      cases h
      rfl
    | _ => cases hpc

/-- Only a reading leads to a step that holds rules. -/
private theorem load_of_holdsRules {pc pc' : Pc} {host host' : Host N} {io : Io}
    (h : Advance check R pc host io pc' host') (hp : pc'.holdsRules = true) :
    ∃ reader, pc = .load reader ∧ pc' = reader.next host.rules ∧ host' = host := by
  cases h with
  | load => exact ⟨_, rfl, rfl, rfl⟩
  | save =>
    rename_i next
    cases next <;> cases hp
  | _ => cases hp

/-- A rebuild comes to the chains when it has saved. -/
private theorem restores_or_save {pc pc' : Pc} {host host' : Host N} {io : Io}
    (h : Advance check R pc host io pc' host') (hp : pc'.restores = true) :
    pc.restores = true ∨ pc.holdsRules = true := by
  cases h with
  | load =>
    rename_i reader
    cases reader with
    | revoke id =>
      rw [Reader.next_revoke] at hp
      split at hp <;> cases hp
    | _ => cases hp
  | save => exact Or.inr rfl
  | flushIptables | restoreIptables | flushNft | restoreNft => exact Or.inl rfl
  | _ => cases hp

section Move

variable {command : Command} {pc pc' : Pc} {host host' : Host N} {io : Io}
  (hbare : command.writesBare check = true) (hrules : ∀ rule ∈ host.rules, rule.IsBare) (hb : Belongs check command pc)
  (hsave : ∀ rules next, pc = .save rules next → SavesChange command next rules host.rules)
  (hok : io = .ok ∨ ∃ reader, pc = .load reader) (h : Advance check R pc host io pc' host')

include hbare hrules hb hsave hok h

/-- What the file is after a step: as before, or the rules that were saved, with their snapshots. -/
private theorem rules_advance :
    (pc.holdsRules = false ∧ host'.files = host.files) ∨
      ∃ rules next, pc = .save rules next ∧ pc' = next.pc ∧ host'.rules = rules ∧ SnapshotsMatch host' ∧
        ∀ rule ∈ rules, rule.IsBare := by
  cases h with
  | save =>
    rename_i rules next
    -- only plain rules are read back as they were saved
    have hsaved : ∀ rule ∈ rules, rule.IsBare := by
      have hch := hsave rules next rfl
      cases hb with
      | allowSave hn =>
        simp only [Command.writesBare, hn, decide_eq_true_eq] at hbare
        have hch : rules = replaceRule host.rules _ := hch
        rw [hch]
        exact forall_mem_replaceRule hrules hbare
      | revokeSave =>
        intro rule hr
        rw [hch _ rfl] at hr
        exact hrules rule (List.mem_filter.1 hr).1
      | rebuild _ hpc =>
        cases next with
        | flush output =>
          have hch : rules = host.rules := hch
          rw [hch]
          exact hrules
        | _ => cases hpc
    have heq := Host.rules_save (fun rule hr => (hsaved rule hr).isPlain) host.iptables host.nft
    refine Or.inr ⟨rules, next, rfl, rfl, heq, ⟨?_, ?_⟩, hsaved⟩
    · exact congrArg renderIptablesSnapshot heq.symm
    · exact congrArg renderNftSnapshot heq.symm
  | saveFails =>
    rcases hok with hok | ⟨reader, hok⟩
    · cases hok
    · cases hok
  | fail =>
    obtain ⟨reader, rfl⟩ := hok.resolve_left (by simp)
    exact Or.inl ⟨rfl, rfl⟩
  | _ => exact Or.inl ⟨rfl, rfl⟩

/-- A rule stays in the file unless the handler of a command for its id saves. -/
private theorem mem_rules_advance {rule : FirewallRule}
    (hid : command.id? ≠ some rule.id ∨ pc.holdsRules = false) (hmem : rule ∈ host.rules) : rule ∈ host'.rules := by
  rcases rules_advance hbare hrules hb hsave hok h with ⟨-, heq⟩ | ⟨rules, next, rfl, -, hsaved, -, -⟩
  · rwa [Host.rules, heq]
  · have hne : command.id? ≠ some rule.id := hid.resolve_right (by simp [Pc.holdsRules])
    have hch := hsave rules next rfl
    rw [hsaved]
    cases hb with
    | allowSave hn =>
      have hnid := (normalizeFirewallRule_fields hn).1
      rw [hch, replaceRule, List.mem_append, List.mem_filter]
      refine Or.inl ⟨hmem, decide_eq_true fun he => hne ?_⟩
      rw [he, hnid]
      rfl
    | revokeSave =>
      rw [hch _ rfl, List.mem_filter]
      exact ⟨hmem, decide_eq_true fun he => hne (he ▸ rfl)⟩
    | rebuild _ hpc =>
      cases next with
      | flush output => exact hch ▸ hmem
      | _ => cases hpc

/-- An id stays out of the file unless the handler of an allowance for it saves. -/
private theorem notMem_rules_advance {id : String}
    (hid : ∀ rule src dst, command = .firewallAllow rule src dst → rule.id ≠ id)
    (hno : ∀ rule ∈ host.rules, rule.id ≠ id) : ∀ rule ∈ host'.rules, rule.id ≠ id := by
  rcases rules_advance hbare hrules hb hsave hok h with ⟨-, heq⟩ | ⟨rules, next, rfl, -, hsaved, -, -⟩
  · rwa [Host.rules, heq]
  · have hch := hsave rules next rfl
    rw [hsaved]
    cases hb with
    | allowSave hn =>
      have hnid := (normalizeFirewallRule_fields hn).1
      intro rule hr
      rw [hch] at hr
      rcases List.mem_append.1 hr with hr | hr
      · exact hno rule (List.mem_filter.1 hr).1
      · rw [List.mem_singleton.1 hr, hnid]
        exact hid _ _ _ rfl
    | revokeSave =>
      intro rule hr
      rw [hch _ rfl] at hr
      exact hno rule (List.mem_filter.1 hr).1
    | rebuild _ hpc =>
      cases next with
      | flush output => exact hch ▸ hno
      | _ => cases hpc

omit hbare hb hsave

/-- A rule of the file that is in the first chain, or about to be restored to it, is so after the step. -/
private theorem mem_iptables_advance {rule : FirewallRule} (hrule : rule ∈ host.rules)
    (hsnap : pc.restores = true → SnapshotsMatch host)
    (hmem : rule.entry R ∈ host.iptables ∨ ∃ output, pc = .iptablesRestore output) :
    rule.entry R ∈ host'.iptables ∨ ∃ output, pc' = .iptablesRestore output := by
  cases h with
  | insert => exact Or.inl (List.mem_cons_of_mem _ (hmem.resolve_right (by simp)))
  | flushIptables => exact Or.inr ⟨_, rfl⟩
  | restoreIptables hentries =>
    refine Or.inl (List.mem_append_right _ ?_)
    rw [(hsnap rfl).1] at hentries
    rw [restore_render_eq_some hrules hentries]
    exact List.mem_map_of_mem hrule
  | fail =>
    obtain ⟨reader, rfl⟩ := hok.resolve_left (by simp)
    exact Or.inl (hmem.resolve_right (by simp))
  | _ => exact Or.inl (hmem.resolve_right (by simp))

private theorem mem_nft_advance {rule : FirewallRule} (hrule : rule ∈ host.rules)
    (hsnap : pc.restores = true → SnapshotsMatch host)
    (hmem : rule.entry R ∈ host.nft ∨ ∃ output, pc = .nftRestore output) :
    rule.entry R ∈ host'.nft ∨ ∃ output, pc' = .nftRestore output := by
  cases h with
  | add => exact Or.inl (List.mem_append_left _ (hmem.resolve_right (by simp)))
  | flushNft => exact Or.inr ⟨_, rfl⟩
  | restoreNft hentries =>
    refine Or.inl (List.mem_append_right _ ?_)
    rw [(hsnap rfl).2] at hentries
    rw [load_render_eq_some hrules hentries]
    exact List.mem_map_of_mem hrule
  | fail =>
    obtain ⟨reader, rfl⟩ := hok.resolve_left (by simp)
    exact Or.inl (hmem.resolve_right (by simp))
  | _ => exact Or.inl (hmem.resolve_right (by simp))

omit hok
include hb

/-- An id stays out of the first chain unless the handler of an allowance for it moves. -/
private theorem notMem_iptables_advance {id : String}
    (hid : ∀ rule src dst, command = .firewallAllow rule src dst → rule.id ≠ id)
    (hgone : ∀ rule ∈ host.rules, rule.id ≠ id) (hsnap : pc.restores = true → SnapshotsMatch host)
    (hno : ∀ entry ∈ host.iptables, entry.id ≠ some id) : ∀ entry ∈ host'.iptables, entry.id ≠ some id := by
  cases h with
  | insert =>
    cases hb with
    | insert hn =>
      refine List.forall_mem_cons.2 ⟨?_, hno⟩
      rw [FirewallRule.entry, ne_eq, Option.some.injEq, (normalizeFirewallRule_fields hn).1]
      exact hid _ _ _ rfl
    | rebuild _ hpc => cases hpc
  | flushIptables => simp
  | restoreIptables hentries =>
    refine List.forall_mem_append.2 ⟨hno, ?_⟩
    rw [(hsnap rfl).1] at hentries
    rw [restore_render_eq_some hrules hentries]
    intro entry he
    obtain ⟨rule, hr, rfl⟩ := List.mem_map.1 he
    exact fun heq => hgone rule hr (Option.some.inj heq)
  | _ => exact hno

private theorem notMem_nft_advance {id : String}
    (hid : ∀ rule src dst, command = .firewallAllow rule src dst → rule.id ≠ id)
    (hgone : ∀ rule ∈ host.rules, rule.id ≠ id) (hsnap : pc.restores = true → SnapshotsMatch host)
    (hno : ∀ entry ∈ host.nft, entry.id ≠ some id) : ∀ entry ∈ host'.nft, entry.id ≠ some id := by
  cases h with
  | add =>
    cases hb with
    | add hn =>
      refine List.forall_mem_append.2 ⟨hno, ?_⟩
      rw [List.forall_mem_singleton, FirewallRule.entry, ne_eq, Option.some.injEq, (normalizeFirewallRule_fields hn).1]
      exact hid _ _ _ rfl
    | rebuild _ hpc => cases hpc
  | flushNft => simp
  | restoreNft hentries =>
    refine List.forall_mem_append.2 ⟨hno, ?_⟩
    rw [(hsnap rfl).2] at hentries
    rw [load_render_eq_some hrules hentries]
    intro entry he
    obtain ⟨rule, hr, rfl⟩ := List.mem_map.1 he
    exact fun heq => hgone rule hr (Option.some.inj heq)
  | _ => exact hno

end Move

/-! ### The invariant -/

variable (check R)

/-- What is known of the handlers, whatever they have done. -/
structure HandlersOk (s : FirewallSys N) : Prop where
  rules : ∀ rule ∈ s.host.rules, rule.IsBare
  bare : ∀ handler ∈ s.handlers, handler.command.writesBare check = true
  belongs : ∀ handler ∈ s.handlers, Belongs check handler.command handler.pc
  returned : ∀ handler ∈ s.handlers, handler.returnedAt = none ↔ ∀ result, handler.pc ≠ .returned result
  bounded : ∀ (i : Nat) (handler : Handler) n, s.handlers[i]? = some handler → handler.returnedAt = some n →
    i < n ∧ n ≤ s.handlers.length
  /-- Commands for one id come one after the other. -/
  apart : ∀ (i j : Nat) (first second : Handler), i < j → s.handlers[i]? = some first → s.handlers[j]? = some second →
    second.command.id? ≠ none → first.command.id? = second.command.id? → StartedAfter first j
  /-- At most one handler has read the file and not yet written it, and the file is still what it has read. -/
  exclusive : ∀ (i j : Nat) (first second : Handler), s.handlers[i]? = some first → s.handlers[j]? = some second →
    first.pc.holdsRules = true → second.pc.holdsRules = true → i = j
  saving : ∀ handler ∈ s.handlers, ∀ rules next, handler.pc = .save rules next →
    SavesChange handler.command next rules s.host.rules
  snapshots : ∀ handler ∈ s.handlers, handler.pc.restores = true → SnapshotsMatch s.host

/-- The steps of an allowance by which its rule is in the file, in the first and in the second chain. -/
def allowedFile : Pc → Bool
  | .iptablesInsert _ | .nftAdd _ | .returned (.ok _) => true
  | _ => false

def allowedIptables : Pc → Bool
  | .nftAdd _ | .returned (.ok _) => true
  | _ => false

def allowedNft : Pc → Bool
  | .returned (.ok _) => true
  | _ => false

/-- The steps of a revocation by which its id is gone from the file, from the first and from the second chain. -/
def revokedFile : Pc → Bool
  | .load (.reconcile _) | .save _ (.flush _) | .iptablesFlush _ | .iptablesRestore _ | .nftFlush _ | .nftRestore _
  | .returned (.ok _) => true
  | _ => false

def revokedIptables : Pc → Bool
  | .iptablesRestore _ | .nftFlush _ | .nftRestore _ | .returned (.ok _) => true
  | _ => false

def revokedNft : Pc → Bool
  | .nftRestore _ | .returned (.ok _) => true
  | _ => false

private theorem allowedFile_of_iptables {pc : Pc} (h : allowedIptables pc = true) : allowedFile pc = true := by
  cases pc with
  | nftAdd normalized => rfl
  | returned result =>
    cases result with
    | ok output => rfl
    | error e => cases h
  | _ => cases h

private theorem allowedFile_of_nft {pc : Pc} (h : allowedNft pc = true) : allowedFile pc = true := by
  cases pc with
  | returned result =>
    cases result with
    | ok output => rfl
    | error e => cases h
  | _ => cases h

private theorem holdsRules_of_allowedFile {pc : Pc} (h : allowedFile pc = true) : pc.holdsRules = false := by
  cases pc with
  | save rules next => cases h
  | _ => rfl

variable {check R} in
/-- Which step of an allowance puts its rule where. -/
private theorem allowed_advance {rule : Coold.FirewallRule} {src dst : Lookup} {normalized : FirewallRule} {pc pc' : Pc}
    {host host' : Host N} {io : Io}
    (hn : normalizeFirewallRule check (FirewallRule.ofProto rule) src dst = .ok normalized)
    (hb : Belongs check (.firewallAllow rule src dst) pc) (h : Advance check R pc host io pc' host') :
    (allowedFile pc' = true → allowedFile pc = true ∨ ∃ rules, pc = .save rules (.apply normalized)) ∧
      (allowedIptables pc' = true → allowedIptables pc = true ∨ normalized.entry R ∈ host'.iptables) ∧
      (allowedNft pc' = true → allowedNft pc = true ∨ normalized.entry R ∈ host'.nft) := by
  -- the chains come after the file, so that nothing is claimed before the save
  by_cases hp : allowedFile pc' = true
  · cases hb with
    | allow => cases h <;> cases hp
    | allowLoad => cases h <;> cases hp
    | allowSave hn' =>
      obtain rfl := Except.ok.inj (hn.symm.trans hn')
      cases h with
      | save => exact ⟨fun _ => Or.inr ⟨_, rfl⟩, fun h => (nomatch h), fun h => (nomatch h)⟩
      | _ => cases hp
    | insert hn' =>
      obtain rfl := Except.ok.inj (hn.symm.trans hn')
      cases h with
      | insert => exact ⟨fun _ => Or.inl rfl, fun _ => Or.inr List.mem_cons_self, fun h => (nomatch h)⟩
      | fail => cases hp
    | add hn' =>
      obtain rfl := Except.ok.inj (hn.symm.trans hn')
      cases h with
      | add => exact ⟨fun _ => Or.inl rfl, fun _ => Or.inl rfl, fun _ => Or.inr (by simp)⟩
      | fail => cases hp
    | rebuild hc _ => exact absurd rfl (hc rule src dst)
    | returned =>
      cases h
      cases hp
  · exact ⟨fun h => absurd h hp, fun h => absurd (allowedFile_of_iptables h) hp,
      fun h => absurd (allowedFile_of_nft h) hp⟩

/-- The rule of the last command for an id is where the steps of its handler have put it, or a rebuild that is under way
is about to put it back. -/
def AllowsOk (s : FirewallSys N) : Prop :=
  ∀ (i : Nat) (handler : Handler) rule src dst normalized, s.handlers[i]? = some handler →
    handler.command = .firewallAllow rule src dst →
      normalizeFirewallRule check (FirewallRule.ofProto rule) src dst = .ok normalized →
        (∀ (j : Nat) (other : Handler), i < j → s.handlers[j]? = some other → other.command.id? ≠ some rule.id) →
          (allowedFile handler.pc = true → normalized ∈ s.host.rules) ∧
            (allowedIptables handler.pc = true → normalized.entry R ∈ s.host.iptables ∨
              ∃ other ∈ s.handlers, ∃ output, other.pc = .iptablesRestore output) ∧
            (allowedNft handler.pc = true → normalized.entry R ∈ s.host.nft ∨
              ∃ other ∈ s.handlers, ∃ output, other.pc = .nftRestore output)

private theorem revokedFile_of_iptables {pc : Pc} (h : revokedIptables pc = true) : revokedFile pc = true := by
  cases pc with
  | iptablesRestore output | nftFlush output | nftRestore output => rfl
  | returned result =>
    cases result with
    | ok output => rfl
    | error e => cases h
  | _ => cases h

private theorem revokedFile_of_nft {pc : Pc} (h : revokedNft pc = true) : revokedFile pc = true := by
  cases pc with
  | nftRestore output => rfl
  | returned result =>
    cases result with
    | ok output => rfl
    | error e => cases h
  | _ => cases h

variable {check R} in
/-- Which step of a revocation removes its id from where. -/
private theorem revoked_advance {id : String} {pc pc' : Pc} {host host' : Host N} {io : Io}
    (hb : Belongs check (.firewallRevoke id) pc) (h : Advance check R pc host io pc' host') :
    (revokedFile pc' = true → revokedFile pc = true ∨ ∃ rules, pc = .save rules .reconcile) ∧
      (revokedIptables pc' = true → revokedIptables pc = true ∨ host'.iptables = []) ∧
      (revokedNft pc' = true → revokedNft pc = true ∨ host'.nft = []) := by
  by_cases hp : revokedFile pc' = true
  · cases hb with
    | revokeLoad =>
      cases h with
      | load =>
        rw [Reader.next_revoke] at hp
        split at hp <;> cases hp
      | fail => cases hp
    | revokeSave =>
      cases h with
      | save => exact ⟨fun _ => Or.inr ⟨_, rfl⟩, fun h => (nomatch h), fun h => (nomatch h)⟩
      | _ => cases hp
    -- the rebuild that follows the save empties the chains
    | rebuild _ hpc =>
      cases h with
      | load =>
        rename_i reader
        cases reader with
        | reconcile output => exact ⟨fun _ => Or.inl rfl, fun h => (nomatch h), fun h => (nomatch h)⟩
        | _ => cases hpc
      | save =>
        rename_i next
        cases next with
        | flush output => exact ⟨fun _ => Or.inl rfl, fun h => (nomatch h), fun h => (nomatch h)⟩
        | _ => cases hpc
      | flushIptables => exact ⟨fun _ => Or.inl rfl, fun _ => Or.inr rfl, fun h => (nomatch h)⟩
      | restoreIptables => exact ⟨fun _ => Or.inl rfl, fun _ => Or.inl rfl, fun h => (nomatch h)⟩
      | flushNft => exact ⟨fun _ => Or.inl rfl, fun _ => Or.inl rfl, fun _ => Or.inr rfl⟩
      | restoreNft => exact ⟨fun _ => Or.inl rfl, fun _ => Or.inl rfl, fun _ => Or.inl rfl⟩
      | fail | saveFails => cases hp
      | _ => cases hpc
    | returned =>
      cases h
      cases hp
  · exact ⟨fun h => absurd h hp, fun h => absurd (revokedFile_of_iptables h) hp,
      fun h => absurd (revokedFile_of_nft h) hp⟩

/-- An id with no allowance after a revocation is gone from where the steps of the revocation have removed it. -/
def RevokesOk (s : FirewallSys N) : Prop :=
  ∀ (i : Nat) (handler : Handler) id, s.handlers[i]? = some handler → handler.command = .firewallRevoke id →
    (∀ other ∈ s.handlers, ∀ rule src dst, other.command = .firewallAllow rule src dst → rule.id = id →
      StartedAfter other i) →
      (revokedFile handler.pc = true → ∀ rule ∈ s.host.rules, rule.id ≠ id) ∧
        (revokedIptables handler.pc = true → ∀ entry ∈ s.host.iptables, entry.id ≠ some id) ∧
        (revokedNft handler.pc = true → ∀ entry ∈ s.host.nft, entry.id ≠ some id)

/-- The invariant of the runs in which no reading of the file falls between a reading and the saving that follows. -/
structure Inv (s : FirewallSys N) : Prop where
  handlers : HandlersOk check s
  allows : AllowsOk check R s
  revokes : RevokesOk s

variable {check R}

/-! ### A command is started -/

private theorem getElem?_start {handlers : List Handler} {new : Handler} {i : Nat} {handler : Handler}
    (h : (handlers ++ [new])[i]? = some handler) :
    (i = handlers.length ∧ handler = new) ∨ (i < handlers.length ∧ handlers[i]? = some handler) := by
  rcases Nat.lt_trichotomy i handlers.length with hlt | heq | hgt
  · rw [List.getElem?_append_left hlt] at h
    exact Or.inr ⟨hlt, h⟩
  · subst heq
    rw [List.getElem?_append_right (Nat.le_refl _), Nat.sub_self] at h
    exact Or.inl ⟨rfl, (Option.some.inj h).symm⟩
  · rw [List.getElem?_eq_none (by simp; omega)] at h
    cases h

private theorem handlersOk_start {s : FirewallSys N} {command : Command} (hs : HandlersOk check s)
    (hx : Exclusive check s (.start command)) :
    HandlersOk check { s with handlers := s.handlers ++ [⟨command, command.start, none⟩] } := by
  have hpc : ∀ result, command.start ≠ .returned result := by cases command <;> simp [Command.start]
  have hload : command.start.holdsRules = false ∧ command.start.restores = false := by
    cases command <;> exact ⟨rfl, rfl⟩
  refine ⟨hs.rules, ?bare, ?belongs, ?returned, ?bounded, ?apart, ?exclusive, ?saving, ?snapshots⟩
  case bare =>
    exact List.forall_mem_append.2 ⟨hs.bare, List.forall_mem_singleton.2 hx.1⟩
  case belongs =>
    exact List.forall_mem_append.2 ⟨hs.belongs, List.forall_mem_singleton.2 (belongs_start command)⟩
  case returned =>
    exact List.forall_mem_append.2 ⟨hs.returned, List.forall_mem_singleton.2 (iff_of_true rfl hpc)⟩
  case bounded =>
    intro i handler n hi hn
    rcases getElem?_start hi with ⟨-, rfl⟩ | ⟨-, hi⟩
    · cases hn
    · have hb := hs.bounded i handler n hi hn
      simp only [List.length_append, List.length_singleton]
      omega
  case apart =>
    intro i j first second hij hi hj hne heq
    rcases getElem?_start hi with ⟨rfl, -⟩ | ⟨-, hi⟩
    · rcases getElem?_start hj with ⟨rfl, -⟩ | ⟨hj, -⟩ <;> omega
    · rcases getElem?_start hj with ⟨rfl, rfl⟩ | ⟨-, hj⟩
      · -- nothing for the id of the new command is under way
        cases hret : first.returnedAt with
        | none => exact absurd heq (hx.2 first (List.mem_of_getElem? hi) hret hne)
        | some n => exact ⟨n, hret, (hs.bounded i first n hi hret).2⟩
      · exact hs.apart i j first second hij hi hj hne heq
  case exclusive =>
    intro i j first second hi hj h₁ h₂
    rcases getElem?_start hi with ⟨rfl, rfl⟩ | ⟨-, hi⟩
    · exact absurd h₁ (by simp [hload.1])
    · rcases getElem?_start hj with ⟨rfl, rfl⟩ | ⟨-, hj⟩
      · exact absurd h₂ (by simp [hload.1])
      · exact hs.exclusive i j first second hi hj h₁ h₂
  case saving =>
    refine List.forall_mem_append.2 ⟨hs.saving, List.forall_mem_singleton.2 ?_⟩
    intro rules next heq
    have heq' : command.start = .save rules next := heq
    rw [heq'] at hload
    cases hload.1
  case snapshots =>
    refine List.forall_mem_append.2 ⟨hs.snapshots, List.forall_mem_singleton.2 ?_⟩
    intro heq
    exact absurd heq (by simp [hload.2])

private theorem allowed_start (command : Command) :
    allowedFile command.start = false ∧ allowedIptables command.start = false ∧ allowedNft command.start = false := by
  cases command <;> exact ⟨rfl, rfl, rfl⟩

private theorem inv_start {s : FirewallSys N} {command : Command} (hs : Inv check R s)
    (hx : Exclusive check s (.start command)) :
    Inv check R { s with handlers := s.handlers ++ [⟨command, command.start, none⟩] } := by
  refine ⟨handlersOk_start hs.handlers hx, ?_, ?_⟩
  · intro i handler rule src dst normalized hi hc hn hlast
    rcases getElem?_start hi with ⟨rfl, rfl⟩ | ⟨hlt, hi⟩
    · obtain ⟨h₁, h₂, h₃⟩ := allowed_start command
      simp [h₁, h₂, h₃]
    · obtain ⟨h₁, h₂, h₃⟩ := hs.allows i handler rule src dst normalized hi hc hn fun j other hj hother =>
        hlast j other hj (by rw [List.getElem?_append_left (List.getElem?_eq_some_iff.1 hother).1, hother])
      refine ⟨h₁, fun hp => (h₂ hp).imp_right ?_, fun hp => (h₃ hp).imp_right ?_⟩
      · exact fun ⟨other, hmem, hout⟩ => ⟨other, List.mem_append_left _ hmem, hout⟩
      · exact fun ⟨other, hmem, hout⟩ => ⟨other, List.mem_append_left _ hmem, hout⟩
  · intro i handler id hi hc hno
    rcases getElem?_start hi with ⟨rfl, rfl⟩ | ⟨-, hi⟩
    · simp only at hc
      subst hc
      simp [Command.start, revokedFile, revokedIptables, revokedNft]
    · exact hs.revokes i handler id hi hc fun other hmem => hno other (List.mem_append_left _ hmem)

/-! ### A handler moves -/

private theorem getElem?_move {handlers : List Handler} {k i : Nat} {moved other : Handler}
    (h : (handlers.set k moved)[i]? = some other) :
    (i = k ∧ other = moved) ∨ (i ≠ k ∧ handlers[i]? = some other) := by
  rw [List.getElem?_set] at h
  split at h
  · rename_i heq
    split at h
    · exact Or.inl ⟨heq.symm, (Option.some.inj h).symm⟩
    · cases h
  · rename_i hne
    exact Or.inr ⟨fun he => hne he.symm, h⟩

private theorem not_advance_returned {result : Except String String} {pc' : Pc} {host host' : Host N} :
    ¬ Advance check R (.returned result) host .ok pc' host' := by
  intro h
  cases h

variable (check R) in
/-- The `k`-th handler moves, in a run that meets `Exclusive`. -/
private structure Moves (s s' : FirewallSys N) (k : Nat) (handler : Handler) (pc' : Pc) (io : Io) : Prop where
  at_k : s.handlers[k]? = some handler
  advance : Advance check R handler.pc s.host io pc' s'.host
  handlers : s'.handlers = s.handlers.set k (handler.moveTo s.handlers.length pc')
  ok : io = .ok ∨ ∃ reader, handler.pc = .load reader
  alone : (∃ reader, handler.pc = .load reader) → ∀ other ∈ s.handlers, other.pc.holdsRules = false

private theorem moves_of_step {s s' : FirewallSys N} {k : Nat} {io : Io} (hx : Exclusive check s (.move k io))
    (h : step check R s (.move k io) = some s') : ∃ handler pc', Moves check R s s' k handler pc' io := by
  obtain ⟨handler, pc', hk, hadv, hset⟩ := step_move h
  have hx' : (∃ reader, handler.pc = .load reader) ∧ (∀ other ∈ s.handlers, other.pc.holdsRules = false) ∨
      (¬ ∃ reader, handler.pc = .load reader) ∧ io = .ok := by
    simp only [Exclusive, hk, Option.map_some] at hx
    cases hpc : handler.pc with
    | load reader =>
      rw [hpc] at hx
      exact Or.inl ⟨⟨reader, rfl⟩, hx⟩
    | _ =>
      rw [hpc] at hx
      exact Or.inr ⟨by simp, hx⟩
  refine ⟨handler, pc', hk, hadv, hset, ?_, ?_⟩
  · rcases hx' with ⟨hload, -⟩ | ⟨-, hok⟩
    · exact Or.inr hload
    · exact Or.inl hok
  · intro hload
    rcases hx' with ⟨-, halone⟩ | ⟨hno, -⟩
    · exact halone
    · exact absurd hload hno

namespace Moves

variable {s s' : FirewallSys N} {k : Nat} {handler : Handler} {pc' : Pc} {io : Io}

private theorem mem (hm : Moves check R s s' k handler pc' io) : handler ∈ s.handlers := List.mem_of_getElem? hm.at_k

/-- A handler that moves has not returned. -/
private theorem not_returned (hm : Moves check R s s' k handler pc' io) (result : Except String String) :
    handler.pc ≠ .returned result := by
  intro hpc
  rcases hm.ok with hio | ⟨reader, hload⟩
  · have hadv := hm.advance
    rw [hpc, hio] at hadv
    exact not_advance_returned hadv
  · rw [hpc] at hload
    cases hload

private theorem returnedAt_none (hs : HandlersOk check s) (hm : Moves check R s s' k handler pc' io) :
    handler.returnedAt = none :=
  (hs.returned handler hm.mem).2 hm.not_returned

/-- A handler that has returned is not the one that moves. -/
private theorem not_startedAfter (hs : HandlersOk check s) (hm : Moves check R s s' k handler pc' io) (j : Nat) :
    ¬ StartedAfter handler j := by
  rintro ⟨n, hn, -⟩
  rw [returnedAt_none hs hm] at hn
  cases hn

private theorem getElem? (hm : Moves check R s s' k handler pc' io) {i : Nat} {other : Handler}
    (h : s'.handlers[i]? = some other) :
    (i = k ∧ other = handler.moveTo s.handlers.length pc') ∨ (i ≠ k ∧ s.handlers[i]? = some other) := by
  rw [hm.handlers] at h
  exact getElem?_move h

/-- The handlers after the step: the one that moved and the others. -/
private theorem forall_mem (hm : Moves check R s s' k handler pc' io) {P : Handler → Prop}
    (hk : P (handler.moveTo s.handlers.length pc'))
    (h : ∀ i other, i ≠ k → s.handlers[i]? = some other → P other) : ∀ other ∈ s'.handlers, P other := by
  intro other hmem
  obtain ⟨i, hi⟩ := List.getElem?_of_mem hmem
  rcases hm.getElem? hi with ⟨-, rfl⟩ | ⟨hne, hi⟩
  · exact hk
  · exact h i other hne hi

/-- A handler that did not move is still there. -/
private theorem mem_of_ne (hm : Moves check R s s' k handler pc' io) {i : Nat} {other : Handler} (hne : i ≠ k)
    (h : s.handlers[i]? = some other) : s'.handlers[i]? = some other := by
  rw [hm.handlers, List.getElem?_set_ne fun he => hne he.symm, h]

private theorem at_k' (hm : Moves check R s s' k handler pc' io) :
    s'.handlers[k]? = some (handler.moveTo s.handlers.length pc') := by
  rw [hm.handlers, List.getElem?_set_self (List.getElem?_eq_some_iff.1 hm.at_k).1]

/-- Unless the handler saves, the file stays; when it saves, the snapshots are those of the new rules. -/
private theorem files (hs : HandlersOk check s) (hm : Moves check R s s' k handler pc' io) :
    (handler.pc.holdsRules = false ∧ s'.host.files = s.host.files) ∨
      ∃ rules next, handler.pc = .save rules next ∧ pc' = next.pc ∧ s'.host.rules = rules ∧ SnapshotsMatch s'.host ∧
        ∀ rule ∈ rules, rule.IsBare :=
  rules_advance (hs.bare _ hm.mem) hs.rules (hs.belongs _ hm.mem) (hs.saving _ hm.mem) hm.ok hm.advance

private theorem snapshotsMatch (hs : HandlersOk check s) (hm : Moves check R s s' k handler pc' io)
    (h : SnapshotsMatch s.host) : SnapshotsMatch s'.host := by
  rcases files hs hm with ⟨-, heq⟩ | ⟨-, -, -, -, -, hsnap, -⟩
  · rw [SnapshotsMatch, Host.rules, heq]
    exact h
  · exact hsnap

/-- The file stays when another handler has read it. -/
private theorem rules_eq_of_holdsRules (hs : HandlersOk check s) (hm : Moves check R s s' k handler pc' io) {i : Nat}
    {other : Handler} (hne : i ≠ k) (hi : s.handlers[i]? = some other) (hp : other.pc.holdsRules = true) :
    s'.host.rules = s.host.rules := by
  rcases files hs hm with ⟨-, heq⟩ | ⟨rules, next, hpc, -⟩
  · rw [Host.rules, heq, ← Host.rules]
  · exact absurd (hs.exclusive i k other handler hi hm.at_k hp (by rw [hpc]; rfl)) hne

/-- What a handler saves is in the file after the step, and is its own change of the rules before it. -/
private theorem rules_of_save (hs : HandlersOk check s) (hm : Moves check R s s' k handler pc' io)
    {rules : List FirewallRule} {next : Saver} (hpc : handler.pc = .save rules next) :
    s'.host.rules = rules ∧ SavesChange handler.command next rules s.host.rules := by
  refine ⟨?_, hs.saving handler hm.mem rules next hpc⟩
  rcases files hs hm with ⟨hno, -⟩ | ⟨saved, next', hpc', -, hsaved, -⟩
  · rw [hpc] at hno
    cases hno
  · obtain ⟨rfl, rfl⟩ := Pc.save.inj (hpc.symm.trans hpc')
    exact hsaved

/-- The handler that moves returns with the step, or has not returned after it either. -/
private theorem returnedAt_moveTo (hs : HandlersOk check s) (hm : Moves check R s s' k handler pc' io) :
    ((∃ result, pc' = .returned result) ∧
        (handler.moveTo s.handlers.length pc').returnedAt = some s.handlers.length) ∨
      ((∀ result, pc' ≠ .returned result) ∧ (handler.moveTo s.handlers.length pc').returnedAt = none) := by
  by_cases hret : ∃ result, pc' = .returned result
  · obtain ⟨result, rfl⟩ := hret
    exact Or.inl ⟨⟨result, rfl⟩, rfl⟩
  · have hret' : ∀ result, pc' ≠ .returned result := fun result he => hret ⟨result, he⟩
    refine Or.inr ⟨hret', ?_⟩
    rw [Handler.moveTo_returnedAt _ _ hret', returnedAt_none hs hm]

private theorem length_handlers (hm : Moves check R s s' k handler pc' io) :
    s'.handlers.length = s.handlers.length := by
  rw [hm.handlers, List.length_set]

/-- No two commands for one id overlap after the step either: the first of them has returned, so it does not move. -/
private theorem apart_move (hs : HandlersOk check s) (hm : Moves check R s s' k handler pc' io) {i j : Nat}
    {first second : Handler} (hij : i < j) (hi : s'.handlers[i]? = some first) (hj : s'.handlers[j]? = some second)
    (hne : second.command.id? ≠ none) (heq : first.command.id? = second.command.id?) : StartedAfter first j := by
  obtain ⟨second', hj', hcommand⟩ : ∃ second', s.handlers[j]? = some second' ∧ second'.command = second.command := by
    rcases hm.getElem? hj with ⟨rfl, rfl⟩ | ⟨-, hj⟩
    · exact ⟨handler, hm.at_k, by simp⟩
    · exact ⟨second, hj, rfl⟩
  rw [← hcommand] at hne heq
  rcases hm.getElem? hi with ⟨rfl, rfl⟩ | ⟨-, hi⟩
  · rw [Handler.moveTo_command] at heq
    exact absurd (hs.apart i j handler second' hij hm.at_k hj' hne heq) (not_startedAfter hs hm j)
  · exact hs.apart i j first second' hij hi hj' hne heq

/-- Whoever has just read the file found nobody holding rules. -/
private theorem exclusive_move (hs : HandlersOk check s) (hm : Moves check R s s' k handler pc' io) {i j : Nat}
    {first second : Handler} (hi : s'.handlers[i]? = some first) (hj : s'.handlers[j]? = some second)
    (h₁ : first.pc.holdsRules = true) (h₂ : second.pc.holdsRules = true) : i = j := by
  have hk : ∀ i other, i ≠ k → s.handlers[i]? = some other → other.pc.holdsRules = true → pc'.holdsRules = false := by
    intro i other hne hi hp
    by_contra hp'
    obtain ⟨reader, hload, -⟩ := load_of_holdsRules hm.advance (by simpa using hp')
    exact absurd hp (by simp [hm.alone ⟨reader, hload⟩ other (List.mem_of_getElem? hi)])
  rcases hm.getElem? hi with ⟨rfl, rfl⟩ | ⟨hni, hi⟩
  · rcases hm.getElem? hj with ⟨rfl, -⟩ | ⟨hnj, hj⟩
    · rfl
    · rw [Handler.moveTo_pc, hk j second hnj hj h₂] at h₁
      cases h₁
  · rcases hm.getElem? hj with ⟨rfl, rfl⟩ | ⟨hnj, hj⟩
    · rw [Handler.moveTo_pc, hk i first hni hi h₁] at h₂
      cases h₂
    · exact hs.exclusive i j first second hi hj h₁ h₂

private theorem handlersOk (hs : HandlersOk check s) (hm : Moves check R s s' k handler pc' io) :
    HandlersOk check s' := by
  refine ⟨?rules, ?bare, ?belongs, ?returned, ?bounded, fun i j first second => apart_move hs hm,
    fun i j first second => exclusive_move hs hm, ?saving, ?snapshots⟩
  case rules =>
    rcases files hs hm with ⟨-, heq⟩ | ⟨rules, -, -, -, hsaved, -, hbare⟩
    · rw [Host.rules, heq]
      exact hs.rules
    · rw [hsaved]
      exact hbare
  case bare =>
    refine hm.forall_mem ?_ fun i other _ hi => hs.bare other (List.mem_of_getElem? hi)
    rw [Handler.moveTo_command]
    exact hs.bare handler hm.mem
  case belongs =>
    refine hm.forall_mem ?_ fun i other _ hi => hs.belongs other (List.mem_of_getElem? hi)
    rw [Handler.moveTo_command, Handler.moveTo_pc]
    exact belongs_advance (hs.belongs handler hm.mem) hm.advance
  case returned =>
    refine hm.forall_mem ?_ fun i other _ hi => hs.returned other (List.mem_of_getElem? hi)
    rw [Handler.moveTo_pc]
    rcases returnedAt_moveTo hs hm with ⟨⟨result, hret⟩, hat⟩ | ⟨hret, hat⟩
    · exact iff_of_false (by simp [hat]) fun h => h result hret
    · exact iff_of_true hat hret
  case bounded =>
    intro i other n hi hn
    rw [hm.length_handlers]
    rcases hm.getElem? hi with ⟨rfl, rfl⟩ | ⟨-, hi⟩
    · rcases returnedAt_moveTo hs hm with ⟨-, hat⟩ | ⟨-, hat⟩
      · rw [← Option.some.inj (hat.symm.trans hn)]
        exact ⟨(List.getElem?_eq_some_iff.1 hm.at_k).1, Nat.le_refl _⟩
      · rw [hat] at hn
        cases hn
    · exact hs.bounded i other n hi hn
  case saving =>
    refine hm.forall_mem ?_ ?_
    · -- rules are held from the step that has just read them
      intro rules next hpc
      rw [Handler.moveTo_pc] at hpc
      obtain ⟨reader, hload, hnext, hhost⟩ := load_of_holdsRules hm.advance (by rw [hpc]; rfl)
      rw [Handler.moveTo_command, hhost]
      exact savesChange_next (hload ▸ hs.belongs handler hm.mem) (hnext.symm.trans hpc)
    · intro i other hne hi rules next hpc
      rw [rules_eq_of_holdsRules hs hm hne hi (by rw [hpc]; rfl)]
      exact hs.saving other (List.mem_of_getElem? hi) rules next hpc
  case snapshots =>
    refine hm.forall_mem ?_ fun i other _ hi hp =>
      snapshotsMatch hs hm (hs.snapshots other (List.mem_of_getElem? hi) hp)
    intro hp
    rw [Handler.moveTo_pc] at hp
    rcases restores_or_save hm.advance hp with hp' | hp'
    · exact snapshotsMatch hs hm (hs.snapshots handler hm.mem hp')
    · rcases files hs hm with ⟨hno, -⟩ | ⟨-, -, -, -, -, hsnap, -⟩
      · rw [hno] at hp'
        cases hp'
      · exact hsnap

/-- What holds, or is still to be brought about by some handler, is so after the step if this is true of the handler
that moves. -/
private theorem kept_or_pending (hm : Moves check R s s' k handler pc' io) {A : Host N → Prop} {p : Pc → Prop}
    (hk : A s.host ∨ p handler.pc → A s'.host ∨ p pc') (h : A s.host ∨ ∃ other ∈ s.handlers, p other.pc) :
    A s'.host ∨ ∃ other ∈ s'.handlers, p other.pc := by
  have hk' : A s.host ∨ p handler.pc → A s'.host ∨ ∃ other ∈ s'.handlers, p other.pc := by
    intro h
    exact (hk h).imp_right fun hp => ⟨_, List.mem_of_getElem? hm.at_k', by rwa [Handler.moveTo_pc]⟩
  rcases h with h | ⟨other, hmem, hp⟩
  · exact hk' (Or.inl h)
  · obtain ⟨i, hi⟩ := List.getElem?_of_mem hmem
    by_cases hne : i = k
    · subst hne
      obtain rfl : handler = other := Option.some.inj (hm.at_k.symm.trans hi)
      exact hk' (Or.inr hp)
    · exact Or.inr ⟨other, List.mem_of_getElem? (hm.mem_of_ne hne hi), hp⟩

/-- A rule of the file that is in the chains, or about to be put back, is so after the step. -/
private theorem chains_kept (hs : HandlersOk check s) (hm : Moves check R s s' k handler pc' io) {rule : FirewallRule}
    (hrule : rule ∈ s.host.rules) :
    ((rule.entry R ∈ s.host.iptables ∨ ∃ other ∈ s.handlers, ∃ output, other.pc = .iptablesRestore output) →
        rule.entry R ∈ s'.host.iptables ∨ ∃ other ∈ s'.handlers, ∃ output, other.pc = .iptablesRestore output) ∧
      ((rule.entry R ∈ s.host.nft ∨ ∃ other ∈ s.handlers, ∃ output, other.pc = .nftRestore output) →
        rule.entry R ∈ s'.host.nft ∨ ∃ other ∈ s'.handlers, ∃ output, other.pc = .nftRestore output) := by
  have hsnap := hs.snapshots handler hm.mem
  constructor
  · exact kept_or_pending hm (A := fun host => rule.entry R ∈ host.iptables)
      (p := fun pc => ∃ output, pc = .iptablesRestore output)
      (mem_iptables_advance hs.rules hm.ok hm.advance hrule hsnap)
  · exact kept_or_pending hm (A := fun host => rule.entry R ∈ host.nft)
      (p := fun pc => ∃ output, pc = .nftRestore output) (mem_nft_advance hs.rules hm.ok hm.advance hrule hsnap)

private theorem allowsOk (hs : Inv check R s) (hm : Moves check R s s' k handler pc' io) : AllowsOk check R s' := by
  intro i other rule src dst normalized hi hc hn hlast
  have hid : normalized.id = rule.id := (normalizeFirewallRule_fields hn).1
  -- the commands are the same as before the step
  have hlast' : ∀ (j : Nat) (later : Handler), i < j → s.handlers[j]? = some later →
      later.command.id? ≠ some rule.id := by
    intro j later hij hj
    by_cases hjk : j = k
    · subst hjk
      obtain rfl : handler = later := Option.some.inj (hm.at_k.symm.trans hj)
      simpa using hlast j _ hij hm.at_k'
    · exact hlast j later hij (hm.mem_of_ne hjk hj)
  have hrules : handler.command.id? ≠ some normalized.id ∨ handler.pc.holdsRules = false →
      normalized ∈ s.host.rules → normalized ∈ s'.host.rules :=
    mem_rules_advance (hs.handlers.bare _ hm.mem) hs.handlers.rules (hs.handlers.belongs _ hm.mem)
      (hs.handlers.saving _ hm.mem) hm.ok
      hm.advance
  rcases hm.getElem? hi with ⟨rfl, rfl⟩ | ⟨hne, hi⟩
  · rw [Handler.moveTo_command] at hc
    rw [Handler.moveTo_pc]
    obtain ⟨h₁, h₂, h₃⟩ := hs.allows i handler rule src dst normalized hm.at_k hc hn hlast'
    obtain ⟨a₁, a₂, a₃⟩ := allowed_advance hn (hc ▸ hs.handlers.belongs _ hm.mem) hm.advance
    refine ⟨fun hp => ?_, fun hp => ?_, fun hp => ?_⟩
    · rcases a₁ hp with hp' | ⟨rules, hpc⟩
      · exact hrules (Or.inr (holdsRules_of_allowedFile hp')) (h₁ hp')
      · obtain ⟨hsaved, hch⟩ := rules_of_save hs.handlers hm hpc
        have hch : rules = replaceRule s.host.rules normalized := hch
        rw [hsaved, hch]
        exact List.mem_append_right _ (List.mem_singleton_self normalized)
    · rcases a₂ hp with hp' | hmem
      · exact (chains_kept hs.handlers hm (h₁ (allowedFile_of_iptables hp'))).1 (h₂ hp')
      · exact Or.inl hmem
    · rcases a₃ hp with hp' | hmem
      · exact (chains_kept hs.handlers hm (h₁ (allowedFile_of_nft hp'))).2 (h₃ hp')
      · exact Or.inl hmem
  · obtain ⟨h₁, h₂, h₃⟩ := hs.allows i other rule src dst normalized hi hc hn hlast'
    have hother : handler.command.id? ≠ some normalized.id := by
      intro heq
      rw [hid] at heq
      have hsome : other.command.id? = some rule.id := by rw [hc]; rfl
      rcases Nat.lt_or_gt_of_ne hne with hlt | hgt
      · exact hlast' k handler hlt hm.at_k heq
      · exact not_startedAfter hs.handlers hm i
          (hs.handlers.apart k i handler other hgt hm.at_k hi (by simp [hsome]) (heq.trans hsome.symm))
    refine ⟨fun hp => hrules (Or.inl hother) (h₁ hp), fun hp => ?_, fun hp => ?_⟩
    · exact (chains_kept hs.handlers hm (h₁ (allowedFile_of_iptables hp))).1 (h₂ hp)
    · exact (chains_kept hs.handlers hm (h₁ (allowedFile_of_nft hp))).2 (h₃ hp)

private theorem revokesOk (hs : Inv check R s) (hm : Moves check R s s' k handler pc' io) : RevokesOk s' := by
  intro i other id hi hc hno
  have hilt : i < s.handlers.length := hm.length_handlers ▸ (List.getElem?_eq_some_iff.1 hi).1
  -- an allowance for the id that returns now has not returned before the revocation was started
  have hid : ∀ rule src dst, handler.command = .firewallAllow rule src dst → rule.id ≠ id := by
    intro rule src dst hcommand heq
    obtain ⟨n, hn, hle⟩ := hno _ (List.mem_of_getElem? hm.at_k') rule src dst (by simpa using hcommand) heq
    rcases returnedAt_moveTo hs.handlers hm with ⟨-, hat⟩ | ⟨-, hat⟩
    · have hlen : s.handlers.length = n := Option.some.inj (hat.symm.trans hn)
      omega
    · rw [hat] at hn
      cases hn
  have hno' : ∀ first ∈ s.handlers, ∀ rule src dst, first.command = .firewallAllow rule src dst → rule.id = id →
      StartedAfter first i := by
    intro first hmem rule src dst hcommand heq
    obtain ⟨j, hj⟩ := List.getElem?_of_mem hmem
    by_cases hjk : j = k
    · subst hjk
      obtain rfl : handler = first := Option.some.inj (hm.at_k.symm.trans hj)
      exact absurd heq (hid rule src dst hcommand)
    · exact hno first (List.mem_of_getElem? (hm.mem_of_ne hjk hj)) rule src dst hcommand heq
  have hb := hs.handlers.belongs handler hm.mem
  have hsnap := hs.handlers.snapshots handler hm.mem
  have hfile : (∀ rule ∈ s.host.rules, rule.id ≠ id) → ∀ rule ∈ s'.host.rules, rule.id ≠ id :=
    notMem_rules_advance (hs.handlers.bare _ hm.mem) hs.handlers.rules hb (hs.handlers.saving _ hm.mem)
      hm.ok hm.advance hid
  rcases hm.getElem? hi with ⟨rfl, rfl⟩ | ⟨-, hi⟩
  · rw [Handler.moveTo_command] at hc
    rw [Handler.moveTo_pc]
    obtain ⟨h₁, h₂, h₃⟩ := hs.revokes i handler id hm.at_k hc hno'
    obtain ⟨a₁, a₂, a₃⟩ := revoked_advance (hc ▸ hb) hm.advance
    refine ⟨fun hp => ?_, fun hp => ?_, fun hp => ?_⟩
    · rcases a₁ hp with hp' | ⟨rules, hpc⟩
      · exact hfile (h₁ hp')
      · obtain ⟨hsaved, hch⟩ := rules_of_save hs.handlers hm hpc
        intro rule hr
        rw [hsaved, hch id hc] at hr
        exact of_decide_eq_true (List.mem_filter.1 hr).2
    · rcases a₂ hp with hp' | hnil
      · exact notMem_iptables_advance hs.handlers.rules hb hm.advance hid
          (h₁ (revokedFile_of_iptables hp')) hsnap (h₂ hp')
      · simp [hnil]
    · rcases a₃ hp with hp' | hnil
      · exact notMem_nft_advance hs.handlers.rules hb hm.advance hid (h₁ (revokedFile_of_nft hp')) hsnap (h₃ hp')
      · simp [hnil]
  · obtain ⟨h₁, h₂, h₃⟩ := hs.revokes i other id hi hc hno'
    refine ⟨fun hp => hfile (h₁ hp), fun hp => ?_, fun hp => ?_⟩
    · exact notMem_iptables_advance hs.handlers.rules hb hm.advance hid (h₁ (revokedFile_of_iptables hp)) hsnap (h₂ hp)
    · exact notMem_nft_advance hs.handlers.rules hb hm.advance hid (h₁ (revokedFile_of_nft hp)) hsnap (h₃ hp)

end Moves

/-- Every step that meets `Exclusive` keeps the invariant. -/
theorem inv_step {s s' : FirewallSys N} {op : FirewallOp} (hs : Inv check R s) (hx : Exclusive check s op)
    (h : step check R s op = some s') : Inv check R s' := by
  cases op with
  | start command =>
    cases h
    exact inv_start hs hx
  | move k io =>
    obtain ⟨handler, pc', hm⟩ := moves_of_step hx h
    exact ⟨Moves.handlersOk hs.handlers hm, Moves.allowsOk hs hm, Moves.revokesOk hs hm⟩

private theorem inv_init {s : FirewallSys N} (h : s.handlers = []) (hrules : ∀ rule ∈ s.host.rules, rule.IsBare) :
    Inv check R s := by
  refine ⟨⟨hrules, ?_, ?_, ?_, ?_, ?_, ?_, ?_, ?_⟩, ?_, ?_⟩ <;> simp [h, AllowsOk, RevokesOk]

/-- When all handlers have returned, the last commands for each id are in the file and in both chains. -/
private theorem kept_of_inv {s : FirewallSys N} (hs : Inv check R s) (hret : s.AllReturned) :
    AllowKept check R s ∧ RevokeKept s := by
  -- no handler is left that would restore a chain
  have hnone : ∀ pc : String → Pc, (∀ output result, pc output ≠ .returned result) →
      ¬ ∃ other ∈ s.handlers, ∃ output, other.pc = pc output := by
    rintro pc hpc ⟨other, hmem, output, ho⟩
    obtain ⟨result, hr⟩ := hret other hmem
    exact hpc output result (ho.symm.trans hr)
  have hipt := hnone .iptablesRestore nofun
  have hnft := hnone .nftRestore nofun
  constructor
  · intro handler hmem rule src dst output normalized hc hpc hn hlast
    obtain ⟨i, hi⟩ := List.getElem?_of_mem hmem
    obtain ⟨h₁, h₂, h₃⟩ := hs.allows i handler rule src dst normalized hi hc hn fun j other hij hj heq => by
      have hsome : handler.command.id? = some rule.id := by rw [hc]; rfl
      exact hlast j other hj
        (hs.handlers.apart i j handler other hij hi hj (by simp [heq]) (hsome.trans heq.symm)) heq
    rw [hpc] at h₁ h₂ h₃
    exact ⟨h₁ rfl, (h₂ rfl).resolve_right hipt, (h₃ rfl).resolve_right hnft⟩
  · intro i handler id output hi hc hpc hno
    obtain ⟨h₁, h₂, h₃⟩ := hs.revokes i handler id hi hc hno
    rw [hpc] at h₁ h₂ h₃
    exact ⟨h₁ rfl, h₂ rfl, h₃ rfl⟩

/-- In every interleaving of firewall commands in which no handler reads the file between the reading and the saving of
another one, no two commands for one id overlap, the fields of the rules are words and no step fails, no update is lost:
once all handlers have returned, the rule of every successful allowance is in the file and in both chains, unless its id
was allowed again or revoked afterwards, and the id of every successful revocation is in none of them, unless it was
allowed in the meantime. -/
theorem no_lost_update {s s' : FirewallSys N} {tr : List FirewallOp} (h0 : s.handlers = [])
    (hrules : ∀ rule ∈ s.host.rules, rule.IsBare) (hx : Lts.Along (step check R) (Exclusive check) s tr)
    (hr : Lts.run (step check R) s tr = some s') (hret : s'.AllReturned) :
    AllowKept check R s' ∧ RevokeKept s' :=
  kept_of_inv (Lts.invariant (fun _ _ _ hs hx hstep => inv_step hs hx hstep) (inv_init h0 hrules) hx hr) hret

instance (s : FirewallSys N) : Decidable s.AllReturned :=
  decidable_of_iff (∀ handler ∈ s.handlers, handler.pc matches .returned _) <| by
    refine forall₂_congr fun handler _ => ?_
    cases handler.pc <;> simp

/-- An allowance and its revocation, during another allowance that reads the file after both. -/
def politeTrace : List FirewallOp :=
  ([.start (allowPort "a" 80).1, .start (allowPort "b" 81).1, .move 1 .ok] : List FirewallOp) ++
    List.replicate 5 (FirewallOp.move 0 .ok) ++ [FirewallOp.start (revokeRule "a").1] ++
    List.replicate 8 (FirewallOp.move 2 .ok) ++ List.replicate 4 (FirewallOp.move 1 .ok)

theorem no_lost_update_polite :
    ∃ s', Lts.run (step sampleCheck sampleReader) ⟨emptyHost, []⟩ politeTrace = some s' ∧
      AllowKept sampleCheck sampleReader s' ∧ RevokeKept s' := by
  have hend : (Lts.run (step sampleCheck sampleReader) ⟨emptyHost, []⟩ politeTrace).map
      (fun s => decide s.AllReturned) = some true := by
    decide +kernel
  obtain ⟨s', hr, hret⟩ := Option.map_eq_some_iff.1 hend
  exact ⟨s', hr, no_lost_update rfl (by decide) (by decide +kernel) hr (of_decide_eq_true hret)⟩

/-- Both allowances read the file before the first one saves. -/
def lostTrace : List FirewallOp :=
  [.start (allowPort "a" 80).1, .start (allowPort "b" 81).1, .move 0 .ok, .move 1 .ok, .move 0 .ok, .move 1 .ok,
    .move 0 .ok, .move 1 .ok, .move 0 .ok, .move 1 .ok, .move 0 .ok, .move 1 .ok]

/-- Both allowances return `Ok`, and the rule of the first one is not in the file. -/
theorem update_lost :
    ∃ s', Lts.run (step sampleCheck sampleReader) ⟨emptyHost, []⟩ lostTrace = some s' ∧ s'.AllReturned ∧
      ¬ AllowKept sampleCheck sampleReader s' := by
  have hend : (Lts.run (step sampleCheck sampleReader) ⟨emptyHost, []⟩ lostTrace).map
      (fun s => (s.handlers, s.host.rules)) =
      some ([⟨(allowPort "a" 80).1, .returned (.ok "Firewall rule applied."), some 2⟩,
          ⟨(allowPort "b" 81).1, .returned (.ok "Firewall rule applied."), some 2⟩],
        [⟨"b", "prod", "10.0.0.1", "10.0.0.2", "tcp", 81⟩]) := by
    decide +kernel
  obtain ⟨s', hr, heq⟩ := Option.map_eq_some_iff.1 hend
  obtain ⟨hhandlers, hrules⟩ := Prod.mk.inj heq
  refine ⟨s', hr, ?_, fun hkept => ?_⟩
  · rw [AllReturned, hhandlers]
    simp
  · have hlost := hkept ⟨(allowPort "a" 80).1, .returned (.ok "Firewall rule applied."), some 2⟩
      (by rw [hhandlers]; simp) _ _ _ _ ⟨"a", "prod", "10.0.0.1", "10.0.0.2", "tcp", 80⟩ rfl rfl (by decide) ?_
    · rw [hrules] at hlost
      exact absurd hlost.1 (by decide)
    · -- no command is started after the first one has returned
      rintro j other hj ⟨n, hn, hle⟩
      cases hn
      rw [hhandlers, List.getElem?_eq_none (by simpa using hle)] at hj
      cases hj

end FirewallSys

end Coold.Agent.Firewall
