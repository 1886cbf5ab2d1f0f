import Coold.Agent.FirewallRules

/-!
# The files of the firewall as text

Next to the state file there are two snapshots, scripts for `iptables-restore` and `nft -f` with one line for each rule.
The fields of the rules go into the lines as they are.

A snapshot says what the rules say exactly when the id and both addresses of every rule are words, without blanks and
line feeds (`snapshotsExact_iff`).  An address that was looked up is one; of an address that a command gives only the
part before the first slash is checked (`word_resolveFirewallEndpoint`).  In the same way the state file is read back
as what was written exactly when the text fields of the rules have no tabs and no line feeds.
-/

namespace Coold.Agent.Firewall

/-! ### Fields that are words -/

/-- Text without blanks and line feeds. -/
def Word (s : String) : Prop := ' ' ∉ s.toList ∧ '\n' ∉ s.toList

instance (s : String) : Decidable (Word s) := inferInstanceAs (Decidable (_ ∧ _))

private theorem word_append {s t : String} : Word (s ++ t) ↔ Word s ∧ Word t := by
  simp only [Word, String.toList_append, List.mem_append, not_or]
  tauto

/-- Text whose characters are those of an address or of a number. -/
private theorem word_of_chars {s : String} (h : ∀ c ∈ s.toList, c.isDigit = true ∨ c = '.') : Word s := by
  constructor
  · intro hc
    exact absurd (h _ hc) (by decide)
  · intro hc
    exact absurd (h _ hc) (by decide)

private theorem word_toString (n : Nat) : Word (toString n) :=
  word_of_chars fun _ hc => Or.inl (Str.isDigit_of_mem_toString hc)

private theorem word_cidr {s : String} : Word (cidr s) ↔ Word s := by
  unfold cidr
  split
  · rfl
  · rw [word_append]
    exact and_iff_left (by decide)

/-- A row of words is one line and is split into its words, exactly when the words are words. -/
private theorem split_join_words {ws : List String} (hne : ws ≠ []) :
    (Str.split ' ' (Str.join ' ' ws) = ws ∧ '\n' ∉ (Str.join ' ' ws).toList) ↔ ∀ w ∈ ws, Word w := by
  constructor
  · rintro ⟨hsplit, hline⟩ w hw
    rw [← hsplit] at hw
    obtain ⟨hspace, hsub⟩ := Str.mem_of_mem_split hw
    exact ⟨hspace, fun hn => hline (hsub _ hn)⟩
  · intro h
    refine ⟨Str.split_join ' ' hne fun w hw => (h w hw).1, fun hn => ?_⟩
    obtain heq | ⟨w, hw, hn⟩ := Str.mem_join hn
    · exact absurd heq (by decide)
    · exact (h w hw).2 hn

private theorem iptablesRuleWords_word {rule : FirewallRule} :
    (∀ w ∈ iptablesRuleWords rule, Word w) ↔ Word rule.src ∧ Word rule.dst ∧ Word rule.proto ∧ Word rule.id := by
  have hcomment : Word "coolify-fw:" := by decide
  rw [forall_iptablesRuleWords (by decide +kernel), word_cidr, word_cidr, word_append,
    and_iff_right (word_toString _), and_iff_right hcomment]

private theorem nftRuleWords_word {rule : FirewallRule} :
    (∀ w ∈ nftRuleWords rule, Word w) ↔ Word rule.src ∧ Word rule.dst ∧ Word rule.proto := by
  rw [forall_nftRuleWords (by decide +kernel), and_iff_left (word_toString _)]

/-! ### What the snapshots say -/

/-- The snapshots have one line for each rule, and the words of a line are those of the template with the fields of the
rule in their places. -/
structure SnapshotsExact (rules : List FirewallRule) : Prop where
  iptables : scriptLines (renderIptablesSnapshot rules) = "*filter" :: (rules.map iptablesRuleLine ++ ["COMMIT"])
  nft : scriptLines (renderNftSnapshot rules) = rules.map nftRuleLine
  iptablesWords : ∀ rule ∈ rules, Str.split ' ' (iptablesRuleLine rule) = iptablesRuleWords rule
  nftWords : ∀ rule ∈ rules, Str.split ' ' (nftRuleLine rule) = nftRuleWords rule

/-- The snapshots are exact if and only if the fields of the rules are words. -/
theorem snapshotsExact_iff {rules : List FirewallRule} :
    SnapshotsExact rules ↔
      ∀ rule ∈ rules, Word rule.src ∧ Word rule.dst ∧ Word rule.proto ∧ Word rule.id := by
  constructor
  · intro h rule hrule
    have hmem : iptablesRuleLine rule ∈ scriptLines (renderIptablesSnapshot rules) := by
      rw [h.iptables]
      exact List.mem_cons_of_mem _ (List.mem_append_left _ (List.mem_map_of_mem hrule))
    have hline := newline_notMem_of_mem_scriptLines hmem
    have hwords := h.iptablesWords rule hrule
    rw [iptablesRuleLine_eq] at hline hwords
    exact iptablesRuleWords_word.1 ((split_join_words (by simp [iptablesRuleWords])).1 ⟨hwords, hline⟩)
  · intro h
    have hipt : ∀ rule ∈ rules, Str.split ' ' (iptablesRuleLine rule) = iptablesRuleWords rule ∧
        '\n' ∉ (iptablesRuleLine rule).toList := by
      intro rule hrule
      rw [iptablesRuleLine_eq]
      exact (split_join_words (by simp [iptablesRuleWords])).2 (iptablesRuleWords_word.2 (h rule hrule))
    have hnft : ∀ rule ∈ rules, Str.split ' ' (nftRuleLine rule) = nftRuleWords rule ∧
        '\n' ∉ (nftRuleLine rule).toList := by
      intro rule hrule
      obtain ⟨hsrc, hdst, hproto, -⟩ := h rule hrule
      rw [nftRuleLine_eq]
      exact (split_join_words (by simp [nftRuleWords])).2 (nftRuleWords_word.2 ⟨hsrc, hdst, hproto⟩)
    exact ⟨scriptLines_renderIptablesSnapshot fun rule hr => (hipt rule hr).2,
      scriptLines_renderNftSnapshot fun rule hr => (hnft rule hr).2, fun rule hr => (hipt rule hr).1,
      fun rule hr => (hnft rule hr).1⟩

/-! ### Rules that commands give -/

/-- The answers when an endpoint is looked up are IPv4 addresses. -/
def Lookup.IsV4 (lookup : Lookup) : Prop :=
  (∀ rows, lookup.rows = some rows → ∀ row ∈ rows, (IpAddr.parseV4 row.containerIp).isSome = true) ∧
    ∀ output, lookup.inspect = some output → (IpAddr.parseV4 (Str.trim output)).isSome = true

/-- The rule of a command, with the answers when its endpoints are looked up. -/
structure Allowance where
  rule : Coold.FirewallRule
  src : Lookup
  dst : Lookup

/-- The rules that are made of the commands; none of them is refused. -/
def Resolved (check : EndpointOwnerCheck) (calls : List Allowance) (rules : List FirewallRule) : Prop :=
  List.Forall₂ (fun call rule => normalizeFirewallRule check (FirewallRule.ofProto call.rule)
    call.src call.dst = .ok rule)
    calls rules

/-- The id is a word, and an endpoint that is not looked up is one. -/
def Allowance.HasWords (call : Allowance) : Prop :=
  Word call.rule.id ∧ (isIpOrCidr call.rule.src = true → Word call.rule.src) ∧
    (isIpOrCidr call.rule.dst = true → Word call.rule.dst)

private theorem word_of_parseV4 {s : String} (h : (IpAddr.parseV4 s).isSome = true) : Word s := by
  obtain ⟨ip, hip⟩ := Option.isSome_iff_exists.1 h
  exact word_of_chars fun c hc => IpAddr.parseV4_chars hip hc

private theorem word_trimEndPattern {s : String} : Word (Str.trimEndPattern "/32" s) ↔ Word s := by
  have hchar : ∀ c, c ∉ "/32".toList → (c ∉ (Str.trimEndPattern "/32" s).toList ↔ c ∉ s.toList) := by
    intro c hc
    obtain ⟨hsub, hsup⟩ := Str.mem_trimEndPattern (s := s) (c := c)
    exact not_congr ⟨hsub, fun h => (hsup h).resolve_left hc⟩
  exact and_congr (hchar ' ' (by decide)) (hchar '\n' (by decide))

private theorem mem_selectEndpointIps {rows : List ServiceEndpoint} {owner : Option String} {ip : String}
    (h : ip ∈ selectEndpointIps rows owner) : ∃ row ∈ rows, row.containerIp = ip := by
  unfold selectEndpointIps at h
  split at h
  · obtain ⟨row, hrow, rfl⟩ := List.mem_map.1 h
    exact ⟨row, (List.mem_filter.1 hrow).1, rfl⟩
  · exact List.mem_map.1 h

/-- An endpoint is replaced by a word, unless it is an address that is not one. -/
theorem word_resolveFirewallEndpoint {value namespace_ network ip : String} {lookup : Lookup} {owner : Option String}
    (hlook : lookup.IsV4) (h : resolveFirewallEndpoint value namespace_ network lookup owner = .ok ip) :
    Word ip ↔ (isIpOrCidr value = true → Word value) := by
  unfold resolveFirewallEndpoint at h
  by_cases hip : isIpOrCidr value = true
  · rw [if_pos hip] at h
    cases h
    simp only [word_trimEndPattern, hip, true_imp_iff]
  · rw [if_neg hip] at h
    refine iff_of_true ?_ fun hip' => absurd hip' hip
    cases hrows : lookup.rows with
    | none =>
      rw [hrows] at h
      cases h
    | some rows =>
      simp only [hrows] at h
      cases hep : firewallEndpointIp value namespace_ (selectEndpointIps rows owner) with
      | error e =>
        rw [hep] at h
        cases h
      | ok found =>
        rw [hep] at h
        cases found with
        | some ip' =>
          cases h
          -- the address is that of the only row
          have hmem : ip ∈ selectEndpointIps rows owner := by
            unfold firewallEndpointIp at hep
            split at hep
            · cases hep
            · rename_i heq
              cases hep
              rw [heq]
              exact List.mem_singleton_self _
            · cases hep
          obtain ⟨row, hrow, rfl⟩ := mem_selectEndpointIps hmem
          exact word_of_parseV4 (hlook.1 rows hrows row hrow)
        | none =>
          cases hin : lookup.inspect with
          | none =>
            rw [hin] at h
            cases h
          | some output =>
            simp only [hin, containerIp] at h
            by_cases hblank : Str.trim output = ""
            · rw [if_pos hblank] at h
              cases h
            · rw [if_neg hblank] at h
              cases h
              exact word_of_parseV4 (hlook.2 output hin)

/-- What a command says of the rule that is made of it. -/
private theorem normalizeFirewallRule_eq_ok {check : EndpointOwnerCheck} {rule normalized : FirewallRule}
    {src dst : Lookup}
    (h : normalizeFirewallRule check rule src dst = .ok normalized) :
    validateFirewallRule rule = .ok () ∧ ∃ srcIp dstIp,
      resolveFirewallEndpoint rule.src rule.namespace_ s!"coolify-{rule.namespace_}-mesh" src none = .ok srcIp ∧
      resolveFirewallEndpoint rule.dst rule.namespace_ s!"coolify-{rule.namespace_}-mesh" dst check.dstOwner =
        .ok dstIp ∧
      normalized = { rule with src := srcIp, dst := dstIp } := by
  cases hv : validateFirewallRule rule with
  | error e => simp [normalizeFirewallRule, hv, bind, Except.bind] at h
  | ok _ =>
    simp only [normalizeFirewallRule, hv, resolveFirewallRule, bind, Except.bind, pure, Except.pure] at h
    split at h
    · cases h
    · rename_i srcIp hsrc
      split at h
      · cases h
      · rename_i dstIp hdst
        cases h
        exact ⟨rfl, srcIp, dstIp, hsrc, hdst, rfl⟩

private theorem word_normalizeFirewallRule {check : EndpointOwnerCheck} {call : Allowance} {rule : FirewallRule}
    (hlook : call.src.IsV4 ∧ call.dst.IsV4)
    (h : normalizeFirewallRule check (FirewallRule.ofProto call.rule) call.src call.dst = .ok rule) :
    (Word rule.src ∧ Word rule.dst ∧ Word rule.proto ∧ Word rule.id) ↔ call.HasWords := by
  obtain ⟨-, -, hproto⟩ := normalizeFirewallRule_fields h
  obtain ⟨-, srcIp, dstIp, hsrc, hdst, rfl⟩ := normalizeFirewallRule_eq_ok h
  have hword : Word (FirewallRule.ofProto call.rule).proto := by
    rcases hproto with hp | hp
    · exact hp ▸ (by decide)
    · exact hp ▸ (by decide)
  have hsrc' := word_resolveFirewallEndpoint hlook.1 hsrc
  have hdst' := word_resolveFirewallEndpoint hlook.2 hdst
  constructor
  · rintro ⟨hs, hd, -, hid⟩
    exact ⟨hid, hsrc'.1 hs, hdst'.1 hd⟩
  · rintro ⟨hid, hs, hd⟩
    exact ⟨hsrc'.2 hs, hdst'.2 hd, hword, hid⟩

/-- The snapshots of the rules of commands say what the rules say, one line for each, exactly when no id and no address
that a command gives has a blank or a line feed. -/
theorem snapshots_exact {check : EndpointOwnerCheck} {calls : List Allowance} {rules : List FirewallRule}
    (hlook : ∀ call ∈ calls, call.src.IsV4 ∧ call.dst.IsV4) (h : Resolved check calls rules) :
    SnapshotsExact rules ↔ ∀ call ∈ calls, call.HasWords := by
  rw [snapshotsExact_iff]
  induction h with
  | nil => simp
  | cons hrule hrest ih =>
    rw [List.forall_mem_cons] at hlook
    rw [List.forall_mem_cons, List.forall_mem_cons, word_normalizeFirewallRule hlook.1 hrule, ih hlook.2]

/-- Two addresses, with an id. -/
def idAllowance (id : String) : Allowance := ⟨⟨"prod", "10.0.0.1", "10.0.0.0/24", "", 80, id⟩, ⟨none, none⟩, ⟨none, none⟩⟩

/-- A container on another host, which Corrosion knows, may reach one that only podman knows. -/
def namedAllowance : Allowance where
  rule := ⟨"prod", "web", "db", "udp", 53, "b"⟩
  src := ⟨some [⟨"10.210.1.7", "100.64.0.6"⟩], none⟩
  dst := ⟨some [], some "10.210.0.9\n"⟩

private theorem isV4_namedAllowance : namedAllowance.src.IsV4 ∧ namedAllowance.dst.IsV4 := by
  refine ⟨⟨?_, ?_⟩, ?_, ?_⟩
  · rintro rows ⟨⟩ row hrow
    obtain rfl := List.mem_singleton.1 hrow
    decide +kernel
  · rintro output ⟨⟩
  · rintro rows ⟨⟩ row hrow
    cases hrow
  · rintro output ⟨⟩
    decide

/-- The snapshots of the rules of two commands. -/
theorem snapshots_exact_named :
    SnapshotsExact [⟨"a", "prod", "10.0.0.1", "10.0.0.0/24", "tcp", 80⟩,
      ⟨"b", "prod", "10.210.1.7", "10.210.0.9", "udp", 53⟩] := by
  have hid : (idAllowance "a").src.IsV4 ∧ (idAllowance "a").dst.IsV4 := by simp [idAllowance, Lookup.IsV4]
  have hlook : ∀ call ∈ [idAllowance "a", namedAllowance], call.src.IsV4 ∧ call.dst.IsV4 :=
    List.forall_mem_cons.2 ⟨hid, List.forall_mem_singleton.2 isV4_namedAllowance⟩
  have hresolved : Resolved ⟨"100.64.0.5", true⟩ [idAllowance "a", namedAllowance]
      [⟨"a", "prod", "10.0.0.1", "10.0.0.0/24", "tcp", 80⟩, ⟨"b", "prod", "10.210.1.7", "10.210.0.9", "udp", 53⟩] :=
    .cons (by decide +kernel) (.cons (by decide +kernel) .nil)
  refine (snapshots_exact hlook hresolved).2 ?_
  refine List.forall_mem_cons.2 ⟨?_, List.forall_mem_singleton.2 ?_⟩
  · exact ⟨by decide, fun _ => by decide, fun _ => by decide⟩
  · exact ⟨by decide, fun _ => by decide, fun _ => by decide⟩

/-- An id with a line feed in it puts a rule that accepts everything into the snapshot. -/
theorem snapshot_injected :
    let call := idAllowance "a\n-A COOLIFY-ALLOW"
    ∃ rules, Resolved ⟨"100.64.0.5", true⟩ [call] rules ∧
      "-A COOLIFY-ALLOW -j ACCEPT" ∈ scriptLines (renderIptablesSnapshot rules) ∧ ¬ SnapshotsExact rules := by
  refine ⟨[⟨"a\n-A COOLIFY-ALLOW", "prod", "10.0.0.1", "10.0.0.0/24", "tcp", 80⟩], .cons (by decide +kernel) .nil,
    by decide +kernel, fun h => ?_⟩
  have hlen := congrArg List.length h.iptables
  revert hlen
  decide +kernel

/-! ### The state file -/

/-- What is saved is loaded back, in the same order, exactly when the text fields of the rules have no tabs and no line
feeds. -/
theorem state_file_round_trip {check : EndpointOwnerCheck} {calls : List Allowance} {rules : List FirewallRule}
    (h : Resolved check calls rules) :
    loadFirewallRules (some (renderFirewallState rules)) = rules ↔
      ∀ rule ∈ rules, Plain rule.id ∧ Plain rule.namespace_ ∧ Plain rule.src ∧ Plain rule.dst := by
  have hproto : ∀ rule ∈ rules, Plain rule.proto := by
    intro rule hrule
    induction h with
    | nil => cases hrule
    | cons hn hrest ih =>
      rcases List.mem_cons.1 hrule with rfl | hrule
      · obtain ⟨-, -, hp | hp⟩ := normalizeFirewallRule_fields hn
        · exact hp ▸ (by decide)
        · exact hp ▸ (by decide)
      · exact ih hrule
  constructor
  · intro hload rule hrule
    rw [← hload] at hrule
    -- whatever is read from the file is plain
    have hplain := isPlain_of_mem_load hrule
    simp only [FirewallRule.IsPlain, List.mem_cons, List.not_mem_nil, or_false, forall_eq_or_imp, forall_eq] at hplain
    exact ⟨hplain.1, hplain.2.1, hplain.2.2.1, hplain.2.2.2.1⟩
  · intro hplain
    refine loadFirewallRules_render fun rule hrule field hf => ?_
    obtain ⟨hid, hns, hsrc, hdst⟩ := hplain rule hrule
    simp only [List.mem_cons, List.not_mem_nil, or_false] at hf
    rcases hf with rfl | rfl | rfl | rfl | rfl
    · exact hid
    · exact hns
    · exact hsrc
    · exact hdst
    · exact hproto rule hrule

theorem state_file_round_trip_named :
    loadFirewallRules (some (renderFirewallState [⟨"a", "prod", "10.0.0.1", "10.0.0.0/24", "tcp", 80⟩,
        ⟨"b", "prod", "10.210.1.7", "10.210.0.9", "udp", 53⟩])) =
      [⟨"a", "prod", "10.0.0.1", "10.0.0.0/24", "tcp", 80⟩, ⟨"b", "prod", "10.210.1.7", "10.210.0.9", "udp", 53⟩] := by
  have hresolved : Resolved ⟨"100.64.0.5", true⟩ [idAllowance "a", namedAllowance]
      [⟨"a", "prod", "10.0.0.1", "10.0.0.0/24", "tcp", 80⟩, ⟨"b", "prod", "10.210.1.7", "10.210.0.9", "udp", 53⟩] :=
    .cons (by decide) (.cons (by decide) .nil)
  refine (state_file_round_trip hresolved).2 ?_
  decide

/-- A rule whose id has a tab in it is gone when the file is read. -/
theorem rule_lost :
    ∃ rules, Resolved ⟨"100.64.0.5", true⟩ [idAllowance "a\tb"] rules ∧ rules ≠ [] ∧
      loadFirewallRules (some (renderFirewallState rules)) = [] := by
  refine ⟨[⟨"a\tb", "prod", "10.0.0.1", "10.0.0.0/24", "tcp", 80⟩], .cons (by decide +kernel) .nil, by simp, ?_⟩
  decide +kernel

end Coold.Agent.Firewall
