import Coold.Agent.FirewallCalls
import Coold.Agent.Snapshots
import Coold.Lib.Fs

/-!
# An allowance, file by file

`Coold.Agent.Firewall` takes the saving of the rules as one step.  Here the three files are written one after the other,
as texts, and each write can fail and leave something of its text (`firewallAllow`); `call_of_firewallAllow` is the
connection.

An allowance is all or nothing exactly when every step is done, or when what it had written was there before and the rule
had not been inserted (`firewallAllow_atomic_iff`).
-/

namespace Coold.Agent.Firewall

inductive FirewallFile where
  | state
  | allowRules
  | bridgeAllowRules
  deriving DecidableEq

/-- A host with the texts of its files. -/
structure TextHost (N : Type) where
  files : FirewallFile → Option String
  iptables : List (Entry N)
  nft : List (Entry N)

/-- The texts of the files in the order in which they are written. -/
def savedTexts (rules : List FirewallRule) : List (FirewallFile × String) :=
  [(.state, renderFirewallState rules), (.allowRules, renderIptablesSnapshot rules),
    (.bridgeAllowRules, renderNftSnapshot rules)]

def FirewallFile.writeError : FirewallFile → String
  | .state => "write Coolify firewall state"
  | .allowRules => "write Coolify iptables allow snapshot"
  | .bridgeAllowRules => "write Coolify bridge allow snapshot"

def putText (files : FirewallFile → Option String) (e : FirewallFile × String) : FirewallFile → Option String :=
  Function.update files e.1 (some e.2)

/-- Write texts one after the other until one fails. -/
def writeTexts (reply : FirewallFile → WriteReply String) : List (FirewallFile × String) →
    (FirewallFile → Option String) → Except String Unit × (FirewallFile → Option String)
  | [], files => (.ok (), files)
  | (file, text) :: rest, files =>
    match reply file with
    | .written => writeTexts reply rest (putText files (file, text))
    | .unopened => (.error file.writeError, files)
    | .cut left => (.error file.writeError, putText files (file, left))

/-- What the world makes of the steps of an allowance: the answers when the endpoints are looked up, whether the state
file can be read and the directory be created, what becomes of the writes, and whether the two commands run. -/
structure AllowIo where
  src : Lookup
  dst : Lookup
  reads : Bool
  createDir : Bool
  write : FirewallFile → WriteReply String
  inserts : Bool
  adds : Bool

def saveTexts (io : AllowIo) (rules : List FirewallRule) (files : FirewallFile → Option String) :
    Except String Unit × (FirewallFile → Option String) :=
  if !io.createDir then (.error "create Coolify config directory", files)
  else writeTexts io.write (savedTexts rules) files

section Allow

variable {N : Type} (check : EndpointOwnerCheck) (R : RuleReader N)

/-- The commands run only for addresses that the tools accept. -/
def applyFirewallRule (io : AllowIo) (rule : FirewallRule) (host : TextHost N) : Except String Unit × TextHost N :=
  if !(io.inserts && R.accepts (firewallIptablesInsertArgs rule)) then
    (.error "apply Coolify iptables allow rule", host)
  else
    let host := { host with iptables := R.iptablesEntry (firewallIptablesInsertArgs rule) :: host.iptables }
    if !(io.adds && R.accepts (firewallNftAddArgs rule)) then (.error "apply Coolify bridge allow rule", host)
    else (.ok (), { host with nft := host.nft ++ [R.nftEntry (firewallNftAddArgs rule)] })

def firewallAllow (rule : FirewallRule) (io : AllowIo) (host : TextHost N) :
    Except String (String × String) × TextHost N :=
  match normalizeFirewallRule check rule io.src io.dst with
  | .error e => (.error e, host)
  | .ok normalized =>
    if (host.files .state).isSome && !io.reads then (.error "read Coolify firewall rules", host)
    else
      let rules := replaceRule (loadFirewallRules (host.files .state)) normalized
      match saveTexts io rules host.files with
      | (.error e, files) => (.error e, { host with files := files })
      | (.ok (), files) =>
        match applyFirewallRule R io normalized { host with files := files } with
        | (.error e, host) => (.error e, host)
        | (.ok (), host) => (.ok (normalized.id, "Firewall rule applied."), host)

/-! ### What is written -/

/-- The writes that are made, up to the first that fails. -/
def writesMade (reply : FirewallFile → WriteReply String) : List (FirewallFile × String) → List (FirewallFile × String)
  | [] => []
  | (file, text) :: rest =>
    match reply file with
    | .written => (file, text) :: writesMade reply rest
    | .unopened => []
    | .cut left => [(file, left)]

private theorem map_fst_writesMade (reply : FirewallFile → WriteReply String) (texts : List (FirewallFile × String)) :
    (writesMade reply texts).map Prod.fst <+: texts.map Prod.fst := by
  induction texts with
  | nil => exact List.prefix_refl _
  | cons e texts ih =>
    obtain ⟨file, text⟩ := e
    unfold writesMade
    split
    · exact List.cons_prefix_cons.2 ⟨rfl, ih⟩
    · exact List.nil_prefix
    · exact List.cons_prefix_cons.2 ⟨rfl, List.nil_prefix⟩

private theorem writeTexts_snd (reply : FirewallFile → WriteReply String) (texts : List (FirewallFile × String))
    (files : FirewallFile → Option String) :
    (writeTexts reply texts files).2 =
      (writesMade reply texts).foldl putText files := by
  induction texts generalizing files with
  | nil => rfl
  | cons e texts ih =>
    obtain ⟨file, text⟩ := e
    unfold writeTexts writesMade
    cases reply file with
    | written =>
      dsimp only
      rw [List.foldl_cons, ih]
    | unopened => rfl
    | cut left => rfl

private theorem foldl_putText_of_notMem {writes : List (FirewallFile × String)} {file : FirewallFile}
    (h : file ∉ writes.map Prod.fst) (files : FirewallFile → Option String) :
    writes.foldl putText files file = files file := by
  induction writes generalizing files with
  | nil => rfl
  | cons e writes ih =>
    rw [List.map_cons, List.mem_cons, not_or] at h
    rw [List.foldl_cons, ih h.2, putText, Function.update_of_ne h.1]

/-- Writing every file at most once changes nothing exactly when each had its text before. -/
private theorem foldl_putText_eq_iff {writes : List (FirewallFile × String)} (hnd : (writes.map Prod.fst).Nodup)
    (files : FirewallFile → Option String) :
    writes.foldl putText files = files ↔ ∀ e ∈ writes, files e.1 = some e.2 := by
  induction writes generalizing files with
  | nil => simp
  | cons e writes ih =>
    rw [List.map_cons, List.nodup_cons] at hnd
    have hself : writes.foldl putText (putText files e) e.1 = some e.2 := by
      rw [foldl_putText_of_notMem hnd.1, putText, Function.update_self]
    rw [List.foldl_cons, List.forall_mem_cons]
    constructor
    · intro heq
      have he : files e.1 = some e.2 := by
        rw [← heq]
        exact hself
      rw [putText, ← he, Function.update_eq_self] at heq
      exact ⟨he, (ih hnd.2 files).1 heq⟩
    · rintro ⟨he, hrest⟩
      rw [putText, ← he, Function.update_eq_self]
      exact (ih hnd.2 files).2 hrest

/-- The texts that an allowance writes. -/
def writesOf (rule : FirewallRule) (io : AllowIo) (host : TextHost N) : List (FirewallFile × String) :=
  match normalizeFirewallRule check rule io.src io.dst with
  | .error _ => []
  | .ok normalized =>
    if (host.files .state).isSome && !io.reads || !io.createDir then []
    else writesMade io.write (savedTexts (replaceRule (loadFirewallRules (host.files .state)) normalized))

/-- All files are written, and the rule is inserted into the first chain. -/
def Inserted (rule : FirewallRule) (io : AllowIo) (host : TextHost N) : Prop :=
  ∃ normalized, normalizeFirewallRule check rule io.src io.dst = .ok normalized ∧
    ((host.files .state).isSome = true → io.reads = true) ∧ io.createDir = true ∧
    (∀ file, io.write file = .written) ∧ io.inserts = true ∧
    R.accepts (firewallIptablesInsertArgs normalized) = true

/-- Every step is done: the rule is in both chains. -/
def Applied (rule : FirewallRule) (io : AllowIo) (host : TextHost N) : Prop :=
  Inserted check R rule io host ∧ io.adds = true ∧
    ∀ normalized, normalizeFirewallRule check rule io.src io.dst = .ok normalized →
      R.accepts (firewallNftAddArgs normalized) = true

/-- What has been written was there before, and the rule has not been inserted. -/
def AllowKept (rule : FirewallRule) (io : AllowIo) (host : TextHost N) : Prop :=
  (∀ e ∈ writesOf check rule io host, host.files e.1 = some e.2) ∧ ¬ Inserted check R rule io host

variable {check R}

/-- The writes are made in the order of the files. -/
private theorem nodup_writesOf (rule : FirewallRule) (io : AllowIo) (host : TextHost N) :
    ((writesOf check rule io host).map Prod.fst).Nodup := by
  unfold writesOf
  split
  · exact List.nodup_nil
  · split
    · exact List.nodup_nil
    · exact (map_fst_writesMade _ _).sublist.nodup (by simp [savedTexts])

private theorem writeTexts_ok {reply : FirewallFile → WriteReply String} {texts : List (FirewallFile × String)}
    {files : FirewallFile → Option String} :
    (writeTexts reply texts files).1 = .ok () ↔ ∀ e ∈ texts, reply e.1 = .written := by
  induction texts generalizing files with
  | nil => simp [writeTexts]
  | cons e texts ih =>
    obtain ⟨file, text⟩ := e
    unfold writeTexts
    rw [List.forall_mem_cons]
    cases hreply : reply file with
    | written => simpa using ih
    | unopened => simp
    | cut left => simp

/-- Saving succeeds exactly when every write is done. -/
private theorem writeTexts_savedTexts_ok (reply : FirewallFile → WriteReply String) (rules : List FirewallRule)
    (files : FirewallFile → Option String) :
    (writeTexts reply (savedTexts rules) files).1 = .ok () ↔ ∀ file, reply file = .written := by
  rw [writeTexts_ok]
  constructor
  · intro h file
    cases file with
    | state => exact h (.state, renderFirewallState rules) (by simp [savedTexts])
    | allowRules => exact h (.allowRules, renderIptablesSnapshot rules) (by simp [savedTexts])
    | bridgeAllowRules => exact h (.bridgeAllowRules, renderNftSnapshot rules) (by simp [savedTexts])
  · exact fun h e _ => h e.1

variable {rule : FirewallRule} {io : AllowIo} {host host' : TextHost N} {e : String}

/-- The commands fail before the rule is inserted, or after it. -/
private theorem applyFirewallRule_error (h : applyFirewallRule R io rule host = (.error e, host')) :
    (host' = host ∧ ¬ (io.inserts = true ∧ R.accepts (firewallIptablesInsertArgs rule) = true)) ∨
      (host'.iptables ≠ host.iptables ∧ io.inserts = true ∧ R.accepts (firewallIptablesInsertArgs rule) = true) := by
  unfold applyFirewallRule at h
  by_cases hinsert : (io.inserts && R.accepts (firewallIptablesInsertArgs rule)) = true
  · rw [if_neg (by simp [hinsert])] at h
    dsimp only at h
    split at h
    · cases h
      exact Or.inr ⟨fun heq => absurd (congrArg List.length heq) (by simp), by simpa using hinsert⟩
    · cases h
  · rw [if_pos (by rw [Bool.eq_false_iff.2 hinsert]; rfl)] at h
    cases h
    exact Or.inl ⟨rfl, fun hboth => hinsert (by rw [hboth.1, hboth.2]; rfl)⟩

/-- Where an allowance fails: the files are written as far as it got, and the rule has been inserted only if they all
are. -/
private theorem firewallAllow_error (h : firewallAllow check R rule io host = (.error e, host')) :
    (host' = { host with files := (writesOf check rule io host).foldl putText host.files } ∧
        ¬ Inserted check R rule io host) ∨
      (host'.iptables ≠ host.iptables ∧ Inserted check R rule io host) := by
  unfold firewallAllow at h
  unfold writesOf
  cases hn : normalizeFirewallRule check rule io.src io.dst with
  | error e' =>
    rw [hn] at h
    cases h
    exact Or.inl ⟨rfl, fun ⟨_, hn', _⟩ => by rw [hn] at hn'; cases hn'⟩
  | ok normalized =>
    rw [hn] at h
    dsimp only at h ⊢
    by_cases hread : ((host.files .state).isSome && !io.reads) = true
    · rw [if_pos hread] at h
      cases h
      rw [if_pos (by rw [hread]; rfl)]
      refine Or.inl ⟨rfl, fun ⟨_, _, hreads, _⟩ => ?_⟩
      rw [Bool.and_eq_true] at hread
      simp [hreads hread.1] at hread
    · rw [if_neg hread] at h
      by_cases hdir : io.createDir = true
      · rw [if_neg (by simpa [hdir] using hread), ← writeTexts_snd]
        rw [saveTexts, if_neg (by simp [hdir])] at h
        have hsaved := writeTexts_savedTexts_ok io.write
          (replaceRule (loadFirewallRules (host.files .state)) normalized) host.files
        cases hw : writeTexts io.write (savedTexts (replaceRule (loadFirewallRules (host.files .state)) normalized))
            host.files with
        | mk result files =>
          rw [hw] at h hsaved
          cases result with
          | error e' =>
            cases h
            refine Or.inl ⟨rfl, fun ⟨_, _, _, _, hwrites, _⟩ => ?_⟩
            cases hsaved.2 hwrites
          | ok _ =>
            dsimp only at h
            cases ha : applyFirewallRule R io normalized { host with files := files } with
            | mk result₁ host₁ =>
              rw [ha] at h
              cases result₁ with
              | ok _ => cases h
              | error e' =>
                cases h
                obtain ⟨rfl, hnot⟩ | ⟨hipt, hins, hacc⟩ := applyFirewallRule_error ha
                · refine Or.inl ⟨rfl, fun ⟨n, hn', _, _, _, hins, hacc⟩ => hnot ⟨hins, ?_⟩⟩
                  rw [hn] at hn'
                  cases hn'
                  exact hacc
                · refine Or.inr ⟨hipt, normalized, hn, fun hsome => ?_, hdir, hsaved.1 rfl, hins, hacc⟩
                  simpa [hsome] using hread
      · rw [if_pos (by simp [hdir])]
        rw [saveTexts, if_pos (by simpa using hdir)] at h
        cases h
        exact Or.inl ⟨rfl, fun ⟨_, _, _, hdir', _⟩ => hdir hdir'⟩

variable (R rule io host) in
private theorem applyFirewallRule_ok_iff :
    (applyFirewallRule R io rule host).1 = .ok () ↔
      (io.inserts = true ∧ R.accepts (firewallIptablesInsertArgs rule) = true) ∧
        io.adds = true ∧ R.accepts (firewallNftAddArgs rule) = true := by
  unfold applyFirewallRule
  cases hins : io.inserts && R.accepts (firewallIptablesInsertArgs rule) with
  | false =>
    have hnot : ¬ (io.inserts = true ∧ R.accepts (firewallIptablesInsertArgs rule) = true) := by
      rw [← Bool.and_eq_true, hins]
      exact Bool.false_ne_true
    simp [hnot]
  | true =>
    have hboth : io.inserts = true ∧ R.accepts (firewallIptablesInsertArgs rule) = true := by
      rwa [← Bool.and_eq_true]
    rw [and_iff_right hboth, ← Bool.and_eq_true]
    cases io.adds && R.accepts (firewallNftAddArgs rule) with
    | false => simp
    | true => simp

variable (check R rule io host) in
/-- An allowance succeeds exactly when every step is done. -/
private theorem firewallAllow_ok_iff :
    (∃ answer, (firewallAllow check R rule io host).1 = .ok answer) ↔ Applied check R rule io host := by
  unfold firewallAllow Applied Inserted
  cases hn : normalizeFirewallRule check rule io.src io.dst with
  | error e => simp
  | ok normalized =>
    simp only [Except.ok.injEq, exists_eq_left', forall_eq']
    by_cases hread : ((host.files .state).isSome && !io.reads) = true
    · rw [if_pos hread]
      rw [Bool.and_eq_true] at hread
      refine iff_of_false (by simp) fun h => ?_
      simp [h.1.1 hread.1] at hread
    · rw [if_neg hread]
      have hreads : (host.files .state).isSome = true → io.reads = true := fun hsome => by simpa [hsome] using hread
      rw [and_iff_right hreads]
      by_cases hdir : io.createDir = true
      · rw [saveTexts, if_neg (by simp [hdir])]
        have hsaved := writeTexts_savedTexts_ok io.write
          (replaceRule (loadFirewallRules (host.files .state)) normalized) host.files
        cases hw : writeTexts io.write (savedTexts (replaceRule (loadFirewallRules (host.files .state)) normalized))
            host.files with
        | mk result files =>
          rw [hw] at hsaved
          cases result with
          | error e => exact iff_of_false (by simp) fun h => by simpa using hsaved.2 h.1.2.1
          | ok _ =>
            have happly := applyFirewallRule_ok_iff R normalized io { host with files := files }
            rw [and_iff_right hdir, and_iff_right (hsaved.1 rfl), ← happly]
            dsimp only
            cases applyFirewallRule R io normalized { host with files := files } with
            | mk result₁ host₁ => cases result₁ <;> simp
      · rw [saveTexts, if_pos (by simpa using hdir)]
        exact iff_of_false (by simp) fun h => hdir h.1.1

/-- An allowance that fails leaves all files and both chains as they were: exactly when every step is done, or what was
written was there before and the rule has not been inserted into the first chain. -/
theorem firewallAllow_atomic_iff (check : EndpointOwnerCheck) (R : RuleReader N) (rule : FirewallRule) (io : AllowIo)
    (host : TextHost N) :
    (∀ e host', firewallAllow check R rule io host = (.error e, host') → host' = host) ↔
      Applied check R rule io host ∨ AllowKept check R rule io host := by
  have hiff : ∀ e host', firewallAllow check R rule io host = (.error e, host') →
      (host' = host ↔ AllowKept check R rule io host) := by
    intro e host' h
    obtain ⟨rfl, hnot⟩ | ⟨hipt, hins⟩ := firewallAllow_error h
    · rw [AllowKept, and_iff_left hnot, ← foldl_putText_eq_iff (nodup_writesOf rule io host)]
      constructor
      · exact fun heq => congrArg TextHost.files heq
      · intro heq
        rw [heq]
    · exact iff_of_false (fun heq => hipt (heq ▸ rfl)) fun hkept => hkept.2 hins
  have hok := firewallAllow_ok_iff check R rule io host
  cases hf : firewallAllow check R rule io host with
  | mk result host₁ =>
    rw [hf] at hiff hok
    cases result with
    | ok answer =>
      have happ : Applied check R rule io host := hok.1 ⟨answer, rfl⟩
      exact iff_of_true (fun e host' h => by cases h) (Or.inl happ)
    | error e =>
      have hnot : ¬ Applied check R rule io host := fun h => by simpa using hok.2 h
      rw [or_iff_right hnot, ← hiff e host₁ rfl]
      constructor
      · exact fun h => h e host₁ rfl
      · rintro heq e' host' h
        cases h
        exact heq

/-- One container may reach a port of another one. -/
def portRule : FirewallRule := ⟨"web-db", "prod", "10.0.0.1", "10.0.0.2", "tcp", 5432⟩

/-- Every step is done but the last command. -/
def withoutNft : AllowIo where
  src := ⟨none, none⟩
  dst := ⟨none, none⟩
  reads := true
  createDir := true
  write _ := .written
  inserts := true
  adds := false

/-- A host that has never had a rule. -/
def unusedHost : TextHost String := ⟨fun _ => none, [], []⟩

/-- When the last command fails the rule is in the state file and in the first chain. -/
theorem allowed_in_part :
    ∃ host', firewallAllow sampleCheck sampleReader portRule withoutNft unusedHost =
        (.error "apply Coolify bridge allow rule", host') ∧
      host'.files .state = some "web-db\tprod\t10.0.0.1\t10.0.0.2\ttcp\t5432\n" ∧
      host'.iptables = [portRule.entry sampleReader] ∧ host'.nft = [] ∧ host' ≠ unusedHost := by
  refine ⟨(firewallAllow sampleCheck sampleReader portRule withoutNft unusedHost).2, Prod.ext (by decide) rfl,
    by decide, by decide, by decide, fun heq => ?_⟩
  have hchain := congrArg TextHost.iptables heq
  exact absurd hchain (by decide)

/-! ### The steps of the handler -/

/-- The same rules in the state file, and the same chains. -/
structure SameRules (host : TextHost N) (host₀ : Host N) : Prop where
  state : host₀.files.state = host.files .state
  iptables : host₀.iptables = host.iptables
  nft : host₀.nft = host.nft

/-- Saving the files one after the other is a step of the handler that saves them. -/
private theorem saveTexts_state {io : AllowIo} {rules : List FirewallRule} {files files' : FirewallFile → Option String}
    (h : saveTexts io rules files = (.ok (), files')) : files' .state = some (renderFirewallState rules) := by
  rw [saveTexts] at h
  split at h
  · cases h
  · have hwritten : ∀ file, io.write file = .written := (writeTexts_savedTexts_ok io.write rules files).1 (by rw [h])
    have hfiles : files' = (writeTexts io.write (savedTexts rules) files).2 := by rw [h]
    rw [hfiles]
    simp [writeTexts, savedTexts, hwritten, putText]

variable (check R) in
/-- The two commands are the last two steps of the handler. -/
private theorem run_of_applyFirewallRule (rule : FirewallRule) (io : AllowIo) {host : TextHost N} {host₀ : Host N}
    (hsame : SameRules host host₀) :
    ∃ ios host₀', Lts.run (fun s io => advance check R s.1 s.2 io) (.iptablesInsert rule, host₀) ios =
        some (.returned ((applyFirewallRule R io rule host).1.map fun _ => "Firewall rule applied."), host₀') ∧
      SameRules (applyFirewallRule R io rule host).2 host₀' := by
  unfold applyFirewallRule
  split
  · exact ⟨[.fail], host₀, by simp [Lts.run, advance, Except.map], hsame⟩
  · rename_i hinsert
    have hacc : R.accepts (firewallIptablesInsertArgs rule) = true := by simp_all
    split
    · refine ⟨[.ok, .fail], { host₀ with iptables := rule.entry R :: host₀.iptables }, ?_, hsame.state, ?_, hsame.nft⟩
      · simp [Lts.run, advance, Except.map, hacc]
        rfl
      · simp only [hsame.iptables]
        rfl
    · rename_i hadd
      have hacc' : R.accepts (firewallNftAddArgs rule) = true := by simp_all
      refine ⟨[.ok, .ok], { host₀ with iptables := rule.entry R :: host₀.iptables, nft := host₀.nft ++ [rule.entry R] },
        ?_, hsame.state, ?_, ?_⟩
      · simp [Lts.run, advance, Except.map, hacc, hacc']
        exact ⟨rfl, rfl⟩
      · simp only [hsame.iptables]
        rfl
      · simp only [hsame.nft]
        rfl

/-- An allowance with its files written one by one is a run of the handler that saves them in one step. -/
theorem call_of_firewallAllow (raw : Coold.FirewallRule) (io : AllowIo) {host : TextHost N} {host₀ : Host N}
    (hsame : SameRules host host₀) :
    ∃ ios host₀', call check R (.firewallAllow raw io.src io.dst) ios host₀ =
        some ((firewallAllow check R (FirewallRule.ofProto raw) io host).1.map Prod.snd, host₀') ∧
      SameRules (firewallAllow check R (FirewallRule.ofProto raw) io host).2 host₀' := by
  have hrules : host₀.rules = loadFirewallRules (host.files .state) := by rw [Host.rules, hsame.state]
  unfold firewallAllow
  cases hn : normalizeFirewallRule check (FirewallRule.ofProto raw) io.src io.dst with
  | error e =>
    refine ⟨[.ok], host₀, ?_, hsame⟩
    simp [call, Command.start, Lts.run, advance, hn, Except.map]
  | ok normalized =>
    dsimp only
    split
    · refine ⟨[.ok, .fail], host₀, ?_, hsame⟩
      simp [call, Command.start, Lts.run, advance, hn, Except.map]
    · rw [← hrules]
      cases hs : saveTexts io (replaceRule host₀.rules normalized) host.files with
      | mk result files =>
        cases result with
        | error e =>
          refine ⟨[.ok, .ok, .saveFails e { host₀.files with state := files .state }],
            { host₀ with files := { host₀.files with state := files .state } }, ?_, rfl, hsame.iptables, hsame.nft⟩
          simp [call, Command.start, Lts.run, advance, hn, Except.map, Reader.next]
        | ok _ =>
          have hsaved : SameRules { host with files := files }
              { host₀ with files := saveFirewallRules (replaceRule host₀.rules normalized) } :=
            ⟨(saveTexts_state hs).symm, hsame.iptables, hsame.nft⟩
          obtain ⟨ios, host₀', hrun, hsame'⟩ := run_of_applyFirewallRule check R normalized io hsaved
          have hsteps : ∀ result, Lts.run (fun s io => advance check R s.1 s.2 io)
              (.iptablesInsert normalized,
                { host₀ with files := saveFirewallRules (replaceRule host₀.rules normalized) }) ios =
                some (.returned result, host₀') →
              call check R (.firewallAllow raw io.src io.dst) (.ok :: .ok :: .ok :: ios) host₀ =
                some (result, host₀') := by
            intro result hrun
            have hread : advance check R (.load (.allow normalized)) host₀ .ok =
                some (.save (replaceRule host₀.rules normalized) (.apply normalized), host₀) := rfl
            have hfirst : advance check R (.allow (FirewallRule.ofProto raw) io.src io.dst) host₀ .ok =
                some (.load (.allow normalized), host₀) := by simp only [advance, hn]
            have hall : Lts.run (fun s io => advance check R s.1 s.2 io)
                (.allow (FirewallRule.ofProto raw) io.src io.dst, host₀) (.ok :: .ok :: .ok :: ios) =
                some (.returned result, host₀') :=
              Lts.run_cons_eq_some.2 ⟨_, hfirst, Lts.run_cons_eq_some.2 ⟨_, hread,
                Lts.run_cons_eq_some.2 ⟨_, rfl, hrun⟩⟩⟩
            rw [call, Command.start, hall]
          refine ⟨.ok :: .ok :: .ok :: ios, host₀', ?_, ?_⟩
          · rw [hsteps _ hrun]
            cases ha : applyFirewallRule R io normalized { host with files := files } with
            | mk result₁ host₁ => cases result₁ <;> simp [Except.map, ha]
          · cases ha : applyFirewallRule R io normalized { host with files := files } with
            | mk result₁ host₁ =>
              rw [ha] at hsame'
              cases result₁ <;> simpa only [ha] using hsame'

end Allow

end Coold.Agent.Firewall
