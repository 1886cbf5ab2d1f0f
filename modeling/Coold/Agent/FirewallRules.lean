import Coold.Lib.IpAddr
import Coold.Lib.Str
import Coold.Proto

/-!
# The rules of the firewall and their texts

A rule is kept as a line of the state file and as a line of two snapshots, scripts for `iptables-restore` and `nft -f`.
The fields of the rules go into all of these as they are.

What was saved in the state file is loaded back, for rules without tabs and line feeds in their fields
(`loadFirewallRules_render`).  The tools split a line of a snapshot into words again; so they read it as the rule that
was written for fields that are words (`restore_render`, `load_render`), and how they read any other line is open
(`RuleReader`).
-/

namespace Coold.Agent.Firewall

/-! ### Rules and the state file -/

structure FirewallRule where
  id : String
  namespace_ : String
  src : String
  dst : String
  proto : String
  port : UInt32
  deriving DecidableEq

/-- The rule of a command; the protocol is `tcp` if none is given. -/
def FirewallRule.ofProto (rule : Coold.FirewallRule) : FirewallRule where
  id := rule.id
  namespace_ := rule.namespace_
  src := rule.src
  dst := rule.dst
  proto := if rule.proto = "" then "tcp" else rule.proto
  port := UInt32.ofNat rule.port

def renderFirewallRuleLine (rule : FirewallRule) : String :=
  Str.join '\t' [rule.id, rule.namespace_, rule.src, rule.dst, rule.proto, toString rule.port.toNat]

def renderFirewallState (rules : List FirewallRule) : String :=
  Str.join '\n' (rules.map renderFirewallRuleLine) ++ "\n"

/-- A line of an older version has no id. -/
def parseFirewallRuleLine (line : String) : Option FirewallRule :=
  match Str.split '\t' line with
  | [id, namespace_, src, dst, proto, port] => do
    return { id, namespace_, src, dst, proto, port := ← Str.parseU32 port }
  | [namespace_, src, dst, proto, port] => do
    return { id := "", namespace_, src, dst, proto, port := ← Str.parseU32 port }
  | _ => none

/-- The rules of the state file; lines that are not rules are skipped.  The file is `none` if it does not exist. -/
def loadFirewallRules (state : Option String) : List FirewallRule :=
  match state with
  | none => []
  | some content => (Str.lines content).filterMap parseFirewallRuleLine

/-- Text that stays within one field of one line. -/
def Plain (s : String) : Prop := '\t' ∉ s.toList ∧ '\n' ∉ s.toList

instance (s : String) : Decidable (Plain s) := inferInstanceAs (Decidable (_ ∧ _))

/-- The text fields of a rule are plain. -/
def FirewallRule.IsPlain (rule : FirewallRule) : Prop :=
  ∀ field ∈ [rule.id, rule.namespace_, rule.src, rule.dst, rule.proto], Plain field

instance (rule : FirewallRule) : Decidable rule.IsPlain := inferInstanceAs (Decidable (∀ field ∈ _, _))

private theorem plain_toString (n : UInt32) : Plain (toString n.toNat) :=
  ⟨Str.notMem_toString (by decide) _, Str.notMem_toString (by decide) _⟩

private theorem plain_fields {rule : FirewallRule} (h : rule.IsPlain) :
    ∀ field ∈ [rule.id, rule.namespace_, rule.src, rule.dst, rule.proto, toString rule.port.toNat], Plain field := by
  intro field hf
  have hcases : field ∈ [rule.id, rule.namespace_, rule.src, rule.dst, rule.proto] ∨
      field = toString rule.port.toNat := by
    simpa [or_assoc] using hf
  rcases hcases with hf | rfl
  · exact h field hf
  · exact plain_toString rule.port

/-- A line is read back as the rule it was written from. -/
private theorem parseFirewallRuleLine_render {rule : FirewallRule} (h : rule.IsPlain) :
    parseFirewallRuleLine (renderFirewallRuleLine rule) = some rule := by
  have hsplit := Str.split_join '\t' (by simp) fun field hf => (plain_fields h field hf).1
  rw [parseFirewallRuleLine, renderFirewallRuleLine, hsplit]
  simp only [Str.parseU32_toString]
  rfl

private theorem renderFirewallRuleLine_chars {rule : FirewallRule} (h : rule.IsPlain) :
    '\n' ∉ (renderFirewallRuleLine rule).toList ∧ (renderFirewallRuleLine rule).toList.getLast? ≠ some '\r' := by
  have hchars : (renderFirewallRuleLine rule).toList =
      (rule.id.toList ++ '\t' :: rule.namespace_.toList ++ '\t' :: rule.src.toList ++ '\t' :: rule.dst.toList ++
        '\t' :: rule.proto.toList ++ ['\t']) ++ (toString rule.port.toNat).toList := by
    simp [renderFirewallRuleLine, Str.join, List.intercalate_cons_cons]
  have hfield := plain_fields h
  constructor
  · rw [hchars]
    simp only [List.mem_append, List.mem_cons, List.not_mem_nil, not_or, or_false]
    simp only [List.mem_cons, List.not_mem_nil, or_false, forall_eq_or_imp, forall_eq] at hfield
    obtain ⟨h₁, h₂, h₃, h₄, h₅, h₆⟩ := hfield
    have htab : '\n' ≠ '\t' := by decide
    exact ⟨⟨⟨⟨⟨⟨h₁.2, htab, h₂.2⟩, htab, h₃.2⟩, htab, h₄.2⟩, htab, h₅.2⟩, htab⟩, h₆.2⟩
  · have hne : (toString rule.port.toNat).toList ≠ [] := by simp
    rw [hchars, List.getLast?_append_of_ne_nil _ hne]
    exact fun hlast => Str.notMem_toString (by decide) _ (List.mem_of_getLast? hlast)

private theorem filterMap_parse_render {rules : List FirewallRule} (h : ∀ rule ∈ rules, rule.IsPlain) :
    (rules.map renderFirewallRuleLine).filterMap parseFirewallRuleLine = rules := by
  induction rules with
  | nil => rfl
  | cons rule rules ih =>
    have hrule := parseFirewallRuleLine_render (h rule List.mem_cons_self)
    rw [List.map_cons, List.filterMap_cons_some hrule, ih fun r hr => h r (List.mem_cons_of_mem rule hr)]

/-- What was saved is loaded back. -/
theorem loadFirewallRules_render {rules : List FirewallRule} (h : ∀ rule ∈ rules, rule.IsPlain) :
    loadFirewallRules (some (renderFirewallState rules)) = rules := by
  cases rules with
  | nil => decide
  | cons rule rules =>
    have hlines : Str.lines (renderFirewallState (rule :: rules)) = (rule :: rules).map renderFirewallRuleLine := by
      refine Str.lines_join (by simp) fun row hrow => ?_
      obtain ⟨r, hr, rfl⟩ := List.mem_map.1 hrow
      exact renderFirewallRuleLine_chars (h r hr)
    simp only [loadFirewallRules, hlines]
    exact filterMap_parse_render h

/-- The fields of a rule that is read from the file are plain. -/
theorem isPlain_of_mem_load {state : Option String} {rule : FirewallRule} (h : rule ∈ loadFirewallRules state) :
    rule.IsPlain := by
  cases state with
  | none => simp [loadFirewallRules] at h
  | some content =>
    obtain ⟨line, hline, hparse⟩ := List.mem_filterMap.1 h
    have hpiece : ∀ p ∈ Str.split '\t' line, Plain p := by
      intro p hp
      obtain ⟨htab, hsub⟩ := Str.mem_of_mem_split hp
      exact ⟨htab, fun hn => Str.newline_notMem_of_mem_lines hline (hsub _ hn)⟩
    rw [parseFirewallRuleLine] at hparse
    split at hparse
    · rename_i id namespace_ src dst proto port hs
      rw [hs] at hpiece
      obtain ⟨n, -, ⟨⟩⟩ := Option.bind_eq_some_iff.1 hparse
      have hsub : [id, namespace_, src, dst, proto] ⊆ [id, namespace_, src, dst, proto, port] :=
        (List.sublist_append_left [id, namespace_, src, dst, proto] [port]).subset
      exact fun field hf => hpiece field (hsub hf)
    · -- a line of five fields gives a rule with an empty id
      rename_i namespace_ src dst proto port hs
      rw [hs] at hpiece
      obtain ⟨n, -, ⟨⟩⟩ := Option.bind_eq_some_iff.1 hparse
      have hsub : [namespace_, src, dst, proto] ⊆ [namespace_, src, dst, proto, port] :=
        (List.sublist_append_left [namespace_, src, dst, proto] [port]).subset
      intro field hf
      rcases List.mem_cons.1 hf with rfl | hf
      · exact (by decide : Plain "")
      · exact hpiece field (hsub hf)
    · cases hparse

/-! ### Validation and resolution -/

def validateFirewallRule (rule : FirewallRule) : Except String Unit :=
  if rule.id = "" then .error "firewall rule id is required"
  else if rule.namespace_ = "" ∨ rule.src = "" ∨ rule.dst = "" then
    .error "firewall rule namespace, src, and dst are required"
  else if rule.proto ≠ "tcp" ∧ rule.proto ≠ "udp" then .error s!"unsupported firewall protocol: {rule.proto}"
  else if rule.port = 0 ∨ rule.port > 65535 then .error "firewall port must be between 1 and 65535"
  else .ok ()

/-- Whether rows of other hosts are dropped when the destination of a rule is looked up. -/
structure EndpointOwnerCheck where
  hostMgmtIp : String
  strict : Bool

def EndpointOwnerCheck.dstOwner (check : EndpointOwnerCheck) : Option String :=
  if check.strict then some check.hostMgmtIp else none

/-- A row that Corrosion gives for a container name. -/
structure ServiceEndpoint where
  containerIp : String
  hostMgmtIp : String
  deriving DecidableEq

def selectEndpointIps (rows : List ServiceEndpoint) (expectedOwner : Option String) : List String :=
  match expectedOwner with
  | some owner => (rows.filter fun row => row.hostMgmtIp = owner).map ServiceEndpoint.containerIp
  | none => rows.map ServiceEndpoint.containerIp

/-- What is answered when an endpoint of a rule is looked up: the rows of Corrosion and the output of
`podman inspect`, each `none` if the request failed. -/
structure Lookup where
  rows : Option (List ServiceEndpoint)
  inspect : Option String
  deriving DecidableEq

/-- The address before the first slash is an IPv4 address. -/
def isIpOrCidr (value : String) : Bool := ((Str.split '/' value).head?.bind IpAddr.parseV4).isSome

/-- The output of `podman inspect` must not be blank. -/
def containerIp (inspect : Option String) : Except String String :=
  match inspect with
  | none => .error "inspect Caddy ingress container IP"
  | some value => if Str.trim value = "" then .error "Caddy ingress container IP is empty" else .ok (Str.trim value)

def firewallEndpointIp (value namespace_ : String) (ips : List String) : Except String (Option String) :=
  match ips with
  | [] => .ok none
  | [ip] => .ok (some ip)
  | _ => .error s!"firewall endpoint {value} in namespace {namespace_} resolved to multiple IPs"

def resolveFirewallEndpoint (value namespace_ network : String) (lookup : Lookup) (expectedOwner : Option String) :
    Except String String :=
  if isIpOrCidr value then .ok (Str.trimEndPattern "/32" value)
  else
    match lookup.rows with
    | none => .error s!"query Corrosion endpoint {value} in namespace {namespace_}"
    | some rows =>
      match firewallEndpointIp value namespace_ (selectEndpointIps rows expectedOwner) with
      | .error e => .error e
      | .ok (some ip) => .ok ip
      | .ok none =>
        match containerIp lookup.inspect with
        | .error _ => .error s!"resolve firewall endpoint {value} on {network}"
        | .ok ip => .ok ip

/-- The rule with its endpoints replaced by addresses; the destination is an endpoint of this host. -/
def resolveFirewallRule (check : EndpointOwnerCheck) (rule : FirewallRule) (src dst : Lookup) :
    Except String FirewallRule := do
  let network := s!"coolify-{rule.namespace_}-mesh"
  let srcIp ← resolveFirewallEndpoint rule.src rule.namespace_ network src none
  let dstIp ← resolveFirewallEndpoint rule.dst rule.namespace_ network dst check.dstOwner
  return { rule with src := srcIp, dst := dstIp }

/-- What `firewallAllow` does before it reads the state file. -/
def normalizeFirewallRule (check : EndpointOwnerCheck) (rule : FirewallRule) (src dst : Lookup) :
    Except String FirewallRule := do
  validateFirewallRule rule
  resolveFirewallRule check rule src dst

/-- Validation and resolution keep the id and the namespace, and the protocol is one of two. -/
theorem normalizeFirewallRule_fields {check : EndpointOwnerCheck} {rule normalized : FirewallRule} {src dst : Lookup}
    (h : normalizeFirewallRule check rule src dst = .ok normalized) :
    normalized.id = rule.id ∧ normalized.namespace_ = rule.namespace_ ∧
      (normalized.proto = "tcp" ∨ normalized.proto = "udp") := by
  have hproto : validateFirewallRule rule = .ok () → rule.proto = "tcp" ∨ rule.proto = "udp" := by
    intro hv
    by_contra hne
    rw [not_or] at hne
    simp only [validateFirewallRule, hne, ne_eq, not_false_iff, and_self, if_true] at hv
    split at hv
    · cases hv
    · split at hv <;> cases hv
  cases hv : validateFirewallRule rule with
  | error e => simp [normalizeFirewallRule, hv, bind, Except.bind] at h
  | ok _ =>
    simp only [normalizeFirewallRule, hv, resolveFirewallRule, bind, Except.bind, pure, Except.pure] at h
    split at h
    · cases h
    · split at h
      · cases h
      · cases h
        exact ⟨rfl, rfl, hproto hv⟩

/-! ### The chains -/

/-- What an accept rule of a chain matches: two networks and, for the rules of the state file, a service. -/
structure Accept (N : Type) where
  src : N
  dst : N
  service : Option (String × UInt32)
  deriving DecidableEq

/-- A rule of a chain.  `id` is the comment `coolify-fw:id` of an `iptables` rule; an `nft` rule has no comment, there
it is a record of where the rule comes from. -/
structure Entry (N : Type) where
  id : Option String
  accepts : Accept N
  deriving DecidableEq

/-- An address without a prefix length is a single host. -/
def cidr (value : String) : String := if '/' ∈ value.toList then value else value ++ "/32"

/-- The arguments of a rule for one of the tools. -/
structure RuleArgs where
  src : String
  dst : String
  proto : String
  port : UInt32
  id : String
  deriving DecidableEq

def firewallIptablesInsertArgs (rule : FirewallRule) : RuleArgs :=
  ⟨cidr rule.src, cidr rule.dst, rule.proto, rule.port, rule.id⟩

def firewallNftAddArgs (rule : FirewallRule) : RuleArgs := ⟨rule.src, rule.dst, rule.proto, rule.port, rule.id⟩

/-! ### The snapshots -/

def iptablesRuleLine (rule : FirewallRule) : String :=
  "-A COOLIFY-ALLOW -s " ++ cidr rule.src ++ " -d " ++ cidr rule.dst ++ " -p " ++ rule.proto ++ " --dport " ++
    toString rule.port.toNat ++ " -m comment --comment coolify-fw:" ++ rule.id ++ " -j ACCEPT"

def nftRuleLine (rule : FirewallRule) : String :=
  "add rule bridge coolify_bridge coolify_allow meta protocol ip ip saddr " ++ rule.src ++ " ip daddr " ++ rule.dst ++
    " " ++ rule.proto ++ " dport " ++ toString rule.port.toNat ++ " accept"

def renderIptablesSnapshot (rules : List FirewallRule) : String :=
  Str.join '\n' ("*filter" :: (rules.map iptablesRuleLine ++ ["COMMIT"])) ++ "\n"

def renderNftSnapshot (rules : List FirewallRule) : String := Str.join '\n' (rules.map nftRuleLine) ++ "\n"

/-- The words of an `iptables` rule, with its fields in their places. -/
def iptablesRuleWords (rule : FirewallRule) : List String :=
  ["-A", "COOLIFY-ALLOW", "-s", cidr rule.src, "-d", cidr rule.dst, "-p", rule.proto, "--dport",
    toString rule.port.toNat, "-m", "comment", "--comment", "coolify-fw:" ++ rule.id, "-j", "ACCEPT"]

/-- The words of an `nft` rule, with its fields in their places. -/
def nftRuleWords (rule : FirewallRule) : List String :=
  ["add", "rule", "bridge", "coolify_bridge", "coolify_allow", "meta", "protocol", "ip", "ip", "saddr", rule.src, "ip",
    "daddr", rule.dst, rule.proto, "dport", toString rule.port.toNat, "accept"]

private theorem singleton_space : String.singleton ' ' = " " := by decide

theorem iptablesRuleLine_eq (rule : FirewallRule) :
    iptablesRuleLine rule = Str.join ' ' (iptablesRuleWords rule) := by
  have h1 : "-A COOLIFY-ALLOW -s " = "-A" ++ (" " ++ ("COOLIFY-ALLOW" ++ (" " ++ ("-s" ++ " ")))) := by decide
  have h2 : " -d " = " " ++ ("-d" ++ " ") := by decide
  have h3 : " -p " = " " ++ ("-p" ++ " ") := by decide +kernel
  have h4 : " --dport " = " " ++ ("--dport" ++ " ") := by decide
  have h5 : " -m comment --comment coolify-fw:" =
      " " ++ ("-m" ++ (" " ++ ("comment" ++ (" " ++ ("--comment" ++ (" " ++ "coolify-fw:")))))) := by decide
  have h6 : " -j ACCEPT" = " " ++ ("-j" ++ (" " ++ "ACCEPT")) := by decide
  unfold iptablesRuleLine iptablesRuleWords
  simp only [h1, h2, h3, h4, h5, h6, Str.join_cons_cons, Str.join_singleton, String.append_assoc, singleton_space]

theorem nftRuleLine_eq (rule : FirewallRule) : nftRuleLine rule = Str.join ' ' (nftRuleWords rule) := by
  have h1 : "add rule bridge coolify_bridge coolify_allow meta protocol ip ip saddr " =
      "add" ++ (" " ++ ("rule" ++ (" " ++ ("bridge" ++ (" " ++ ("coolify_bridge" ++ (" " ++ ("coolify_allow" ++ (" " ++
        ("meta" ++ (" " ++ ("protocol" ++ (" " ++ ("ip" ++ (" " ++ ("ip" ++ (" " ++ ("saddr" ++ " "
        )))))))))))))))))) := by decide
  have h2 : " ip daddr " = " " ++ ("ip" ++ (" " ++ ("daddr" ++ " "))) := by decide +kernel
  have h3 : " dport " = " " ++ ("dport" ++ " ") := by decide +kernel
  have h4 : " accept" = " " ++ "accept" := by decide +kernel
  unfold nftRuleLine nftRuleWords
  simp only [h1, h2, h3, h4, Str.join_cons_cons, Str.join_singleton, String.append_assoc, singleton_space]

/-- The lines of a script that are not empty. -/
def scriptLines (text : String) : List String := (Str.split '\n' text).filter (· ≠ "")

theorem newline_notMem_of_mem_scriptLines {text line : String} (h : line ∈ scriptLines text) : '\n' ∉ line.toList :=
  (Str.mem_of_mem_split (List.mem_filter.1 h).1).1

/-- A script of nonempty lines. -/
private theorem scriptLines_join {rows : List String} (h : ∀ r ∈ rows, '\n' ∉ r.toList) (hne : ∀ r ∈ rows, r ≠ "") :
    scriptLines (Str.join '\n' rows ++ "\n") = rows := by
  cases rows with
  | nil => decide +kernel
  | cons r rows =>
    rw [scriptLines, Str.split_join_newline (by simp) h, List.filter_append,
      List.filter_eq_self.2 fun r hr => by simpa using hne r hr]
    simp

private theorem iptablesRuleLine_ne_empty (rule : FirewallRule) : iptablesRuleLine rule ≠ "" := by
  unfold iptablesRuleLine
  simp

private theorem nftRuleLine_ne_empty (rule : FirewallRule) : nftRuleLine rule ≠ "" := by
  unfold nftRuleLine
  simp

theorem scriptLines_renderIptablesSnapshot {rules : List FirewallRule}
    (h : ∀ rule ∈ rules, '\n' ∉ (iptablesRuleLine rule).toList) :
    scriptLines (renderIptablesSnapshot rules) = "*filter" :: (rules.map iptablesRuleLine ++ ["COMMIT"]) := by
  refine scriptLines_join ?_ ?_
  · simp only [List.mem_cons, List.mem_append, List.mem_map, List.not_mem_nil, or_false]
    rintro r (rfl | ⟨rule, hrule, rfl⟩ | rfl)
    · decide
    · exact h rule hrule
    · decide
  · simp only [List.mem_cons, List.mem_append, List.mem_map, List.not_mem_nil, or_false]
    rintro r (rfl | ⟨rule, hrule, rfl⟩ | rfl)
    · decide
    · exact iptablesRuleLine_ne_empty rule
    · decide

theorem scriptLines_renderNftSnapshot {rules : List FirewallRule}
    (h : ∀ rule ∈ rules, '\n' ∉ (nftRuleLine rule).toList) :
    scriptLines (renderNftSnapshot rules) = rules.map nftRuleLine := by
  refine scriptLines_join ?_ ?_
  · simp only [List.mem_map]
    rintro r ⟨rule, hrule, rfl⟩
    exact h rule hrule
  · simp only [List.mem_map]
    rintro r ⟨rule, hrule, rfl⟩
    exact nftRuleLine_ne_empty rule

/-! ### Fields that are words -/

/-- What ends a word of a line. -/
def isBlank (c : Char) : Bool := c = ' ' || c = '\t' || c = '\n'

/-- Text that stays one word: without blanks and line feeds, and without quotes, which join words. -/
def Bare (s : String) : Prop := ∀ c ∈ s.toList, isBlank c = false ∧ c ≠ '"'

instance (s : String) : Decidable (Bare s) :=
  decidable_of_iff ((s.toList.all fun c => !isBlank c && c != '"') = true) <| by simp [Bare]

/-- The fields of a rule that go into the snapshots are words, and its namespace is plain. -/
def FirewallRule.IsBare (rule : FirewallRule) : Prop :=
  Plain rule.namespace_ ∧ Bare rule.id ∧ ∀ field ∈ [rule.src, rule.dst, rule.proto], field ≠ "" ∧ Bare field

instance (rule : FirewallRule) : Decidable rule.IsBare := inferInstanceAs (Decidable (_ ∧ _ ∧ ∀ field ∈ _, _))

theorem Bare.append {s t : String} (hs : Bare s) (ht : Bare t) : Bare (s ++ t) := by
  intro c hc
  rw [String.toList_append, List.mem_append] at hc
  exact hc.elim (hs c) (ht c)

theorem Bare.cidr {s : String} (h : Bare s) : Bare (cidr s) := by
  unfold Firewall.cidr
  split
  · exact h
  · exact h.append (by decide)

private theorem cidr_ne_empty {s : String} (h : s ≠ "") : cidr s ≠ "" := by
  unfold cidr
  split
  · exact h
  · simp

/-- Text of characters of a kind that no blank and no quote is of. -/
theorem bare_of_chars {p : Char → Bool} {s : String} (hp : ∀ c, isBlank c = true ∨ c = '"' → p c = false)
    (h : ∀ c ∈ s.toList, p c = true) : Bare s := by
  intro c hc
  constructor
  · cases hblank : isBlank c with
    | false => rfl
    | true => exact absurd (h c hc) (Bool.eq_false_iff.1 (hp c (Or.inl hblank)))
  · intro hquote
    exact absurd (h c hc) (Bool.eq_false_iff.1 (hp c (Or.inr hquote)))

theorem isBlank_iff {c : Char} : isBlank c = true ↔ c = ' ' ∨ c = '\t' ∨ c = '\n' := by
  rw [isBlank, Bool.or_eq_true, Bool.or_eq_true, decide_eq_true_eq, decide_eq_true_eq, decide_eq_true_eq, or_assoc]

private theorem bare_toString (n : Nat) : Bare (toString n) := by
  refine bare_of_chars (p := Char.isDigit) ?_ fun c hc => Str.isDigit_of_mem_toString hc
  rintro c (hc | rfl)
  · rcases isBlank_iff.1 hc with rfl | rfl | rfl <;> decide
  · decide

theorem Bare.plain {s : String} (h : Bare s) : Plain s :=
  ⟨fun hc => absurd (h _ hc).1 (by decide), fun hc => absurd (h _ hc).1 (by decide)⟩

theorem FirewallRule.IsBare.isPlain {rule : FirewallRule} (h : rule.IsBare) : rule.IsPlain := by
  obtain ⟨hnamespace, hid, hfields⟩ := h
  simp only [List.mem_cons, List.not_mem_nil, or_false, forall_eq_or_imp, forall_eq] at hfields
  obtain ⟨hsrc, hdst, hproto⟩ := hfields
  intro field hf
  simp only [List.mem_cons, List.not_mem_nil, or_false] at hf
  rcases hf with rfl | rfl | rfl | rfl | rfl
  · exact hid.plain
  · exact hnamespace
  · exact hsrc.2.plain
  · exact hdst.2.plain
  · exact hproto.2.plain

/-- What is true of the words of a line: of those of the template and of the fields of the rule. -/
theorem forall_iptablesRuleWords {P : String → Prop} {rule : FirewallRule}
    (hlit : ∀ w ∈ ["-A", "COOLIFY-ALLOW", "-s", "-d", "-p", "--dport", "-m", "comment", "--comment", "-j", "ACCEPT"],
      P w) :
    (∀ w ∈ iptablesRuleWords rule, P w) ↔ P (cidr rule.src) ∧ P (cidr rule.dst) ∧ P rule.proto ∧
      P (toString rule.port.toNat) ∧ P ("coolify-fw:" ++ rule.id) := by
  simp only [List.mem_cons, List.not_mem_nil, or_false, forall_eq_or_imp, forall_eq] at hlit
  simp only [iptablesRuleWords, List.mem_cons, List.not_mem_nil, or_false, forall_eq_or_imp, forall_eq, hlit, true_and,
    and_true]

theorem forall_nftRuleWords {P : String → Prop} {rule : FirewallRule}
    (hlit : ∀ w ∈ ["add", "rule", "bridge", "coolify_bridge", "coolify_allow", "meta", "protocol", "ip", "saddr",
      "daddr", "dport", "accept"], P w) :
    (∀ w ∈ nftRuleWords rule, P w) ↔ P rule.src ∧ P rule.dst ∧ P rule.proto ∧ P (toString rule.port.toNat) := by
  simp only [List.mem_cons, List.not_mem_nil, or_false, forall_eq_or_imp, forall_eq] at hlit
  simp only [nftRuleWords, List.mem_cons, List.not_mem_nil, or_false, forall_eq_or_imp, forall_eq, hlit, true_and,
    and_true]

private theorem newline_notMem_join {ws : List String} (h : ∀ w ∈ ws, '\n' ∉ w.toList) :
    '\n' ∉ (Str.join ' ' ws).toList := by
  intro hn
  obtain heq | ⟨w, hw, hn⟩ := Str.mem_join hn
  · exact absurd heq (by decide)
  · exact h w hw hn

private theorem newline_notMem_cidr {s : String} (h : '\n' ∉ s.toList) : '\n' ∉ (cidr s).toList := by
  unfold cidr
  split
  · exact h
  · rw [String.toList_append, List.mem_append, not_or]
    exact ⟨h, by decide⟩

/-- The lines of a rule are lines if no field has a line feed in it. -/
private theorem newline_notMem_lines {rule : FirewallRule} (h : rule.IsPlain) :
    '\n' ∉ (iptablesRuleLine rule).toList ∧ '\n' ∉ (nftRuleLine rule).toList := by
  simp only [FirewallRule.IsPlain, List.mem_cons, List.not_mem_nil, or_false, forall_eq_or_imp, forall_eq] at h
  obtain ⟨hid, -, hsrc, hdst, hproto⟩ := h
  have hport : '\n' ∉ (toString rule.port.toNat).toList := Str.notMem_toString (by decide) _
  have hcomment : '\n' ∉ ("coolify-fw:" ++ rule.id).toList := by
    rw [String.toList_append, List.mem_append, not_or]
    exact ⟨by decide, hid.2⟩
  rw [iptablesRuleLine_eq, nftRuleLine_eq]
  constructor
  · refine newline_notMem_join ((forall_iptablesRuleWords (by decide +kernel)).2 ?_)
    exact ⟨newline_notMem_cidr hsrc.2, newline_notMem_cidr hdst.2, hproto.2, hport, hcomment⟩
  · exact newline_notMem_join ((forall_nftRuleWords (by decide +kernel)).2 ⟨hsrc.2, hdst.2, hproto.2, hport⟩)

/-! ### How the tools read the snapshots -/

/-- The words of a line in which nothing is quoted. -/
def lineWords (line : String) : Option (List String) :=
  if '"' ∈ line.toList then none else some (Str.words isBlank line)

/-- The arguments in words that follow the template of a snapshot. -/
def iptablesLineArgs : List String → Option RuleArgs
  | ["-A", "COOLIFY-ALLOW", "-s", src, "-d", dst, "-p", proto, "--dport", port, "-m", "comment", "--comment", comment,
      "-j", "ACCEPT"] => do
    return { src, dst, proto, port := ← Str.parseU32 port, id := ← Str.strip "coolify-fw:" comment }
  | _ => none

/-- The text of an `nft` rule has no place for the id. -/
def nftLineArgs : List String → Option RuleArgs
  | ["add", "rule", "bridge", "coolify_bridge", "coolify_allow", "meta", "protocol", "ip", "ip", "saddr", src, "ip",
      "daddr", dst, proto, "dport", port, "accept"] => do
    return { src, dst, proto, port := ← Str.parseU32 port, id := "" }
  | _ => none

/-- How `iptables` and `nft` read rules: which texts are addresses, the network that one denotes, and the rules that they
make of a line of a snapshot that does not follow the template.  A text with a blank, a line feed or a quote in it is
not an address, and a line with a comment in it makes no rule without one. -/
structure RuleReader (N : Type) where
  valid : String → Bool
  net : String → N
  otherIptables : String → Option (List (Entry N))
  otherNft : String → Option (List (Accept N))
  bare_of_valid : ∀ s, valid s = true → s ≠ "" ∧ Bare s
  tagged : ∀ rule entries, rule.IsPlain → otherIptables (iptablesRuleLine rule) = some entries →
    ∀ entry ∈ entries, entry.id ≠ none

section Reader

variable {N : Type} (R : RuleReader N)

def RuleReader.accepts (args : RuleArgs) : Bool := R.valid args.src && R.valid args.dst

/-- The rule that `iptables` makes of its arguments. -/
def RuleReader.iptablesEntry (args : RuleArgs) : Entry N :=
  ⟨some args.id, ⟨R.net args.src, R.net args.dst, some (args.proto, args.port)⟩⟩

/-- `nft` is given addresses without a prefix length for single hosts. -/
def RuleReader.nftAccept (args : RuleArgs) : Accept N :=
  ⟨R.net (cidr args.src), R.net (cidr args.dst), some (args.proto, args.port)⟩

def RuleReader.nftEntry (args : RuleArgs) : Entry N := ⟨some args.id, R.nftAccept args⟩

/-- The rule of a chain for a rule of the state file. -/
def FirewallRule.entry (rule : FirewallRule) : Entry N :=
  ⟨some rule.id, ⟨R.net (cidr rule.src), R.net (cidr rule.dst), some (rule.proto, rule.port)⟩⟩

/-- What a line of the snapshot for `iptables-restore` adds to the chain, if it is not refused. -/
def RuleReader.restoreLine (line : String) : Option (List (Entry N)) :=
  match (lineWords line).bind iptablesLineArgs with
  | some args => if R.accepts args then some [R.iptablesEntry args] else none
  | none => R.otherIptables line

/-- What a line of the snapshot for `nft -f` adds to the chain, if it is not refused. -/
def RuleReader.loadLine (line : String) : Option (List (Accept N)) :=
  match (lineWords line).bind nftLineArgs with
  | some args => if R.accepts args then some [R.nftAccept args] else none
  | none => R.otherNft line

/-- The lines of a table, which stand between its head and its end. -/
def tableLines : List String → Option (List String)
  | [] => some []
  | head :: rest => if head = "*filter" ∧ rest.getLast? = some "COMMIT" then some rest.dropLast else none

/-- What `iptables-restore --noflush` adds to the chain: all lines, or nothing if one of them is refused. -/
def RuleReader.restore (text : String) : Option (List (Entry N)) :=
  (tableLines (scriptLines text)).bind fun lines => (lines.mapM R.restoreLine).map List.flatten

/-- The record of where the rules of a script come from, line by line. -/
def tag : List String → List (List (Accept N)) → List (Entry N)
  | _, [] => []
  | [], accepts :: rest => accepts.map (⟨none, ·⟩) ++ tag [] rest
  | id :: ids, accepts :: rest => accepts.map (⟨some id, ·⟩) ++ tag ids rest

/-- What `nft -f` adds to the chain; the record of where its rules come from is by the rules of the state file. -/
def RuleReader.load (rules : List FirewallRule) (text : String) : Option (List (Entry N)) :=
  ((scriptLines text).mapM R.loadLine).map (tag (rules.map FirewallRule.id))

variable {R}

private theorem iptablesRuleWords_bare {rule : FirewallRule} (h : rule.IsBare) :
    ∀ w ∈ iptablesRuleWords rule, w ≠ "" ∧ Bare w := by
  obtain ⟨-, hid, hfields⟩ := h
  simp only [List.mem_cons, List.not_mem_nil, or_false, forall_eq_or_imp, forall_eq] at hfields
  obtain ⟨hsrc, hdst, hproto⟩ := hfields
  refine (forall_iptablesRuleWords (by decide +kernel)).2 ⟨⟨cidr_ne_empty hsrc.1, hsrc.2.cidr⟩,
    ⟨cidr_ne_empty hdst.1, hdst.2.cidr⟩, hproto, ⟨by simp, bare_toString _⟩, by simp, ?_⟩
  exact Bare.append (by decide) hid

private theorem nftRuleWords_bare {rule : FirewallRule} (h : rule.IsBare) :
    ∀ w ∈ nftRuleWords rule, w ≠ "" ∧ Bare w := by
  obtain ⟨-, -, hfields⟩ := h
  simp only [List.mem_cons, List.not_mem_nil, or_false, forall_eq_or_imp, forall_eq] at hfields
  obtain ⟨hsrc, hdst, hproto⟩ := hfields
  exact (forall_nftRuleWords (by decide +kernel)).2 ⟨hsrc, hdst, hproto, by simp, bare_toString _⟩

/-- A line of words is split into these words. -/
private theorem lineWords_join {ws : List String} (hne : ws ≠ []) (h : ∀ w ∈ ws, w ≠ "" ∧ Bare w) :
    lineWords (Str.join ' ' ws) = some ws := by
  have hquote : '"' ∉ (Str.join ' ' ws).toList := by
    intro hq
    obtain heq | ⟨w, hw, hq⟩ := Str.mem_join hq
    · exact absurd heq (by decide)
    · exact ((h w hw).2 _ hq).2 rfl
  rw [lineWords, if_neg hquote, Str.words_join (by decide) hne
    fun w hw => ⟨(h w hw).1, fun c hc => ((h w hw).2 c hc).1⟩]

private theorem iptablesLineArgs_words (rule : FirewallRule) :
    iptablesLineArgs (iptablesRuleWords rule) = some (firewallIptablesInsertArgs rule) := by
  simp only [iptablesRuleWords, iptablesLineArgs, Str.parseU32_toString, Str.strip_append]
  rfl

private theorem nftLineArgs_words (rule : FirewallRule) :
    nftLineArgs (nftRuleWords rule) = some { firewallNftAddArgs rule with id := "" } := by
  simp only [nftRuleWords, nftLineArgs, Str.parseU32_toString]
  rfl

private theorem restoreLine_render {rule : FirewallRule} (h : rule.IsBare) :
    R.restoreLine (iptablesRuleLine rule) =
      if R.accepts (firewallIptablesInsertArgs rule) then some [rule.entry R] else none := by
  rw [RuleReader.restoreLine, iptablesRuleLine_eq,
    lineWords_join (by simp [iptablesRuleWords]) (iptablesRuleWords_bare h), Option.bind_some, iptablesLineArgs_words]
  rfl

private theorem loadLine_render {rule : FirewallRule} (h : rule.IsBare) :
    R.loadLine (nftRuleLine rule) =
      if R.accepts (firewallNftAddArgs rule) then some [(rule.entry R).accepts] else none := by
  rw [RuleReader.loadLine, nftRuleLine_eq, lineWords_join (by simp [nftRuleWords]) (nftRuleWords_bare h),
    Option.bind_some, nftLineArgs_words]
  rfl

private theorem tableLines_snapshot (lines : List String) :
    tableLines ("*filter" :: (lines ++ ["COMMIT"])) = some lines := by
  rw [tableLines, List.getLast?_concat, List.dropLast_concat]
  rfl

private theorem mapM_map_ite {α β γ : Type} {p : α → Bool} {c : α → γ} {f : γ → Option β} {g : α → β} {l : List α}
    (h : ∀ a ∈ l, f (c a) = if p a then some (g a) else none) :
    (l.map c).mapM f = if l.all p then some (l.map g) else none := by
  induction l with
  | nil => rfl
  | cons a l ih =>
    obtain ⟨ha, hl⟩ := List.forall_mem_cons.1 h
    rw [List.map_cons, List.mapM_cons, ha, ih hl, List.all_cons]
    cases p a with
    | false => rfl
    | true =>
      cases l.all p with
      | false => rfl
      | true => rfl

/-- The snapshot of rules whose fields are words is read as these rules. -/
theorem restore_render {rules : List FirewallRule} (h : ∀ rule ∈ rules, rule.IsBare) :
    R.restore (renderIptablesSnapshot rules) =
      if rules.all fun rule => R.accepts (firewallIptablesInsertArgs rule) then some (rules.map (FirewallRule.entry R))
      else none := by
  have hlines := scriptLines_renderIptablesSnapshot fun rule hr => (newline_notMem_lines (h rule hr).isPlain).1
  rw [RuleReader.restore, hlines, tableLines_snapshot, Option.bind_some,
    mapM_map_ite fun rule hr => restoreLine_render (R := R) (h rule hr)]
  split
  · rw [Option.map_some, ← List.flatMap_def, ← List.map_eq_flatMap]
  · rfl

private theorem tag_map (rules : List FirewallRule) :
    tag (rules.map FirewallRule.id) (rules.map fun rule => [(rule.entry R).accepts]) =
      rules.map (FirewallRule.entry R) := by
  induction rules with
  | nil => rfl
  | cons rule rules ih => exact congrArg _ ih

theorem load_render {rules : List FirewallRule} (h : ∀ rule ∈ rules, rule.IsBare) :
    R.load rules (renderNftSnapshot rules) =
      if rules.all fun rule => R.accepts (firewallNftAddArgs rule) then some (rules.map (FirewallRule.entry R))
      else none := by
  have hlines := scriptLines_renderNftSnapshot fun rule hr => (newline_notMem_lines (h rule hr).isPlain).2
  rw [RuleReader.load, hlines, mapM_map_ite fun rule hr => loadLine_render (R := R) (h rule hr)]
  split
  · rw [Option.map_some, tag_map]
  · rfl

theorem restore_render_eq_some {rules : List FirewallRule} {entries : List (Entry N)}
    (h : ∀ rule ∈ rules, rule.IsBare) (hr : R.restore (renderIptablesSnapshot rules) = some entries) :
    entries = rules.map (FirewallRule.entry R) := by
  rw [restore_render h] at hr
  exact (Option.some.inj (Option.ite_none_right_eq_some.1 hr).2).symm

theorem load_render_eq_some {rules : List FirewallRule} {entries : List (Entry N)}
    (h : ∀ rule ∈ rules, rule.IsBare) (hr : R.load rules (renderNftSnapshot rules) = some entries) :
    entries = rules.map (FirewallRule.entry R) := by
  rw [load_render h] at hr
  exact (Option.some.inj (Option.ite_none_right_eq_some.1 hr).2).symm

private theorem exists_of_mem_mapM {α β : Type} {f : α → Option β} {l : List α} {out : List β} {b : β}
    (h : l.mapM f = some out) (hb : b ∈ out) : ∃ a ∈ l, f a = some b := by
  induction l generalizing out with
  | nil =>
    cases h
    exact absurd hb List.not_mem_nil
  | cons a l ih =>
    rw [List.mapM_cons] at h
    obtain ⟨c, hc, h⟩ := Option.bind_eq_some_iff.1 h
    obtain ⟨rest, hrest, ⟨⟩⟩ := Option.bind_eq_some_iff.1 h
    rcases List.mem_cons.1 hb with rfl | hb
    · exact ⟨a, List.mem_cons_self, hc⟩
    · obtain ⟨a', ha', hf⟩ := ih hrest hb
      exact ⟨a', List.mem_cons_of_mem a ha', hf⟩

/-- Whatever the fields of the rules are, what is restored of them has a comment. -/
theorem restore_tagged {rules : List FirewallRule} {entries : List (Entry N)} (h : ∀ rule ∈ rules, rule.IsPlain)
    (hr : R.restore (renderIptablesSnapshot rules) = some entries) : ∀ entry ∈ entries, entry.id ≠ none := by
  have hlines := scriptLines_renderIptablesSnapshot fun rule hr => (newline_notMem_lines (h rule hr)).1
  rw [RuleReader.restore, hlines, tableLines_snapshot, Option.bind_some, List.mapM_map] at hr
  obtain ⟨pieces, hread, rfl⟩ := Option.map_eq_some_iff.1 hr
  intro entry hentry
  obtain ⟨piece, hpiece, hentry⟩ := List.mem_flatten.1 hentry
  obtain ⟨rule, hrule, hline⟩ := exists_of_mem_mapM hread hpiece
  rw [Function.comp_apply, RuleReader.restoreLine] at hline
  split at hline
  · obtain ⟨-, ⟨⟩⟩ := Option.ite_none_right_eq_some.1 hline
    rw [List.mem_singleton.1 hentry]
    simp [RuleReader.iptablesEntry]
  · exact R.tagged rule piece (h rule hrule) hline entry hentry

end Reader

end Coold.Agent.Firewall
