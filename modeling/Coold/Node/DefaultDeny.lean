import Coold.Node.FirewallUnit

/-!
# Default deny after any history

A host starts firewall units one after the other, default-deny and permissive ones, for changing subnets, and coold
changes its own chain in between (`Event`).  `verdict` is what becomes of a packet in the rules that the units have put
into the chain `FORWARD`.

What the chain has is an invariant of the history (`Installed`): the accepting rules stand before the rules that call
`COOLIFY-INTRA`, and they are the rules of `leftover`, the subnets of permissive starts that no later default-deny start
has listed.  So a default-deny start drops what `COOLIFY-ALLOW` does not accept exactly as far as the left over
subnets do not touch it (`default_deny_iff`).
-/

namespace Coold.Node

open Netfilter Cli

section History

variable {A B B' : Type}

inductive Event (A B B' : Type) where
  | start (iface : String) (subnets : List Ipv4Net) (defaultDeny : Bool)
  /-- The allow rules of the host change, in the chain and in the snapshots. -/
  | coold (rules : List A) (allowRules : Option B) (bridgeAllowRules : Option B')

/-- The rules that accept the traffic of a network whose bits behind the mask are zero. -/
def acceptOf (A : Type) (net : Ipv4Net) : List (Rule (Cond A) Chain) :=
  [⟨.addrs net anyNet, .accept⟩, ⟨.addrs anyNet net, .accept⟩]

/-- The rules that a unit may put into the chain `FORWARD`. -/
def unitRules (A : Type) (subnets : List Ipv4Net) : List (Rule (Cond A) Chain) :=
  ⟨.established, .accept⟩ :: (rulesOf A (acceptSpecs subnets) ++ rulesOf A (jumpSpecs subnets))

/-- None of these rules is one of the units of a history. -/
def Foreign (foreign : List (Rule (Cond A) Chain)) (events : List (Event A B B')) : Prop :=
  ∀ iface subnets defaultDeny, .start iface subnets defaultDeny ∈ events → ∀ r ∈ unitRules A subnets, r ∉ foreign

/-- A host on which no unit has run: the chain `FORWARD` has rules of others, and `COOLIFY-ALLOW`, if it is there,
accepts packets. -/
structure Fresh (foreign : List (Rule (Cond A) Chain)) (h : Host A B B') : Prop where
  forward : h.filter .forward = some foreign
  allow : ∀ r ∈ (h.filter .allow).getD [], r.target = .accept

/-- The packet is accepted by the chain `COOLIFY-ALLOW`. -/
def AllowAccepts (hit : A → Packet → Bool) (h : Host A B B') (p : Packet) : Prop :=
  walk (Cond.hits hit) h.filter p 0 ((h.filter .allow).getD []) = some .accept

instance (hit : A → Packet → Bool) (h : Host A B B') (p : Packet) : Decidable (AllowAccepts hit h p) :=
  inferInstanceAs (Decidable (_ = _))

/-- The packet comes from one of the networks or goes to one of them. -/
def Touches (nets : List Ipv4Net) (p : Packet) : Prop := ∃ net ∈ nets, net.contains p.src ∨ net.contains p.dst

instance (nets : List Ipv4Net) (p : Packet) : Decidable (Touches nets p) :=
  inferInstanceAs (Decidable (∃ net ∈ nets, net.contains p.src ∨ net.contains p.dst))

/-- The networks that a history of starts leaves accepted, given those that were accepted before. -/
def leftoverFrom (nets : List Ipv4Net) (e : Event A B B') : List Ipv4Net :=
  match e with
  | .start _ subnets true => nets.filter fun net => net ∉ subnets.map trunc
  | .start _ subnets false => nets ++ subnets.map trunc
  | .coold _ _ _ => nets

/-- The subnets of permissive starts that no later default-deny start has listed. -/
def leftover (events : List (Event A B B')) : List Ipv4Net := events.foldl leftoverFrom []

/-! ### The rules of the units -/

private theorem rulesOf_acceptSpecs (subnets : List Ipv4Net) :
    rulesOf A (acceptSpecs subnets) = (subnets.map trunc).flatMap (acceptOf A) := by
  rw [rulesOf, acceptSpecs, List.map_flatMap, List.flatMap_map]
  rfl

private theorem target_of_mem_acceptOf {net : Ipv4Net} {r : Rule (Cond A) Chain} (h : r ∈ acceptOf A net) :
    r.target = .accept ∧ r.cond ≠ .established := by
  simp only [acceptOf, List.mem_cons, List.not_mem_nil, or_false] at h
  rcases h with rfl | rfl
  · exact ⟨rfl, by simp⟩
  · exact ⟨rfl, by simp⟩

/-- The rules of different networks are different, also where a network is all addresses. -/
private theorem eq_of_mem_acceptOf {net net' : Ipv4Net} {r : Rule (Cond A) Chain} (h : r ∈ acceptOf A net)
    (h' : r ∈ acceptOf A net') : net = net' := by
  simp only [acceptOf, List.mem_cons, List.not_mem_nil, or_false] at h h'
  rcases h with rfl | rfl <;> rcases h' with h' | h' <;> simp_all

private theorem target_of_mem_rulesOf_jumpSpecs {subnets : List Ipv4Net} {r : Rule (Cond A) Chain}
    (h : r ∈ rulesOf A (jumpSpecs subnets)) : r.target = .jump .intra := by
  obtain ⟨s, hs, rfl⟩ := List.mem_map.1 h
  exact target_of_mem_jumpSpecs hs

private theorem target_of_mem_rulesOf_acceptSpecs {subnets : List Ipv4Net} {r : Rule (Cond A) Chain}
    (h : r ∈ rulesOf A (acceptSpecs subnets)) : r.target = .accept := by
  obtain ⟨s, hs, rfl⟩ := List.mem_map.1 h
  exact target_of_mem_acceptSpecs hs

private theorem target_of_mem_map_allowRule {rules : List A} {r : Rule (Cond A) Chain} (h : r ∈ rules.map allowRule) :
    r.target = .accept := by
  obtain ⟨rule, -, rfl⟩ := List.mem_map.1 h
  rfl

private theorem target_of_mem_restoredAllow {tools : Tools A B B'} {h : Host A B B'}
    (hallow : ∀ r ∈ (h.filter .allow).getD [], r.target = .accept) :
    ∀ r ∈ restoredAllow tools h, r.target = .accept := by
  intro r hr
  rw [restoredAllow] at hr
  split at hr
  · exact target_of_mem_map_allowRule hr
  · exact hallow r hr

/-! ### Packets -/

variable {hit : A → Packet → Bool}

private theorem contains_trunc (net : Ipv4Net) (ip : Ipv4Addr) : (trunc net).contains ip = net.contains ip := by
  obtain ⟨hn, hb⟩ := net.toNat_network_broadcast
  obtain ⟨hn', hb'⟩ := (trunc net).toNat_network_broadcast
  have hsize : (trunc net).size = net.size := rfl
  have hnet : (trunc net).network.toNat = net.network.toNat := by
    rw [hn', hsize]
    change net.network.toNat / net.size * net.size = _
    rw [hn, Nat.mul_div_cancel _ net.size_pos]
  rw [Bool.eq_iff_iff, Ipv4Net.contains_iff, Ipv4Net.contains_iff, hb, hb', hnet, hsize]

private theorem contains_anyNet (ip : Ipv4Addr) : anyNet.contains ip = true := by
  have hn : anyNet.network.toNat = 0 := by decide
  have hb : anyNet.broadcast.toNat = 2 ^ 32 - 1 := by decide
  have := ip.isLt
  rw [Ipv4Net.contains_iff, hn, hb]
  omega

private theorem touches_map_trunc {nets : List Ipv4Net} {p : Packet} : Touches (nets.map trunc) p ↔ Touches nets p := by
  simp [Touches, contains_trunc]

/-- The accepting rules of networks match the packets that touch one of them. -/
private theorem touches_iff_acceptOf {nets : List Ipv4Net} {p : Packet} :
    Touches nets p ↔ ∃ net ∈ nets, ∃ r ∈ acceptOf A net, r.cond.hits hit p = true := by
  simp [Touches, acceptOf, Cond.hits, contains_anyNet]

private theorem touches_iff_jumpSpecs {subnets : List Ipv4Net} {p : Packet} :
    Touches subnets p ↔ ∃ r ∈ rulesOf A (jumpSpecs subnets), r.cond.hits hit p = true := by
  have hjump : rulesOf A (jumpSpecs subnets) = subnets.flatMap fun sn =>
      [⟨.addrs anyNet (trunc sn), .jump .intra⟩, ⟨.addrs (trunc sn) anyNet, .jump .intra⟩] := by
    rw [rulesOf, jumpSpecs, List.map_flatMap]
    rfl
  rw [hjump]
  constructor
  · rintro ⟨net, hnet, hsrc | hdst⟩
    · refine ⟨_, List.mem_flatMap.2 ⟨net, hnet, List.mem_cons_of_mem _ List.mem_cons_self⟩, ?_⟩
      simp only [Cond.hits, contains_trunc, contains_anyNet, hsrc, Bool.and_self]
    · refine ⟨_, List.mem_flatMap.2 ⟨net, hnet, List.mem_cons_self⟩, ?_⟩
      simp only [Cond.hits, contains_trunc, contains_anyNet, hdst, Bool.and_self]
  · rintro ⟨r, hr, hhit⟩
    obtain ⟨net, hnet, hmem⟩ := List.mem_flatMap.1 hr
    simp only [List.mem_cons, List.not_mem_nil, or_false] at hmem
    rcases hmem with rfl | rfl
    · exact ⟨net, hnet, Or.inr (by simpa [Cond.hits, contains_trunc, contains_anyNet] using hhit)⟩
    · exact ⟨net, hnet, Or.inl (by simpa [Cond.hits, contains_trunc, contains_anyNet] using hhit)⟩

/-- A packet that reaches `COOLIFY-INTRA` is accepted by `COOLIFY-ALLOW` or dropped. -/
private theorem fate_intra {h : Host A B B'} {rules : List (Rule (Cond A) Chain)}
    (hi : h.filter .intra = some intraRules)
    (ha : h.filter .allow = some rules) (hacc : ∀ r ∈ rules, r.target = .accept) (p : Packet) :
    (h.filter .intra).bind (walk (Cond.hits hit) h.filter p 1) =
      some (if AllowAccepts hit h p then .accept else .drop) := by
  have hall : (Cond.addrs (A := A) anyNet anyNet).hits hit p = true := by
    simp only [Cond.hits, contains_anyNet, Bool.and_self]
  have hallow : walk (Cond.hits hit) h.filter p 0 rules =
      some (if ∃ r ∈ rules, r.cond.hits hit p = true then .accept else .back) := walkWith_of_accepting hacc
  rw [hi, Option.bind_some, intraRules, rulesOf, walk]
  simp only [List.map_cons, List.map_nil, RuleSpec.rule, walkWith, hall, if_true, Target.fate, ha, Option.bind_some,
    AllowAccepts, Option.getD_some, hallow]
  by_cases hex : ∃ r ∈ rules, r.cond.hits hit p = true
  · simp only [if_pos hex, if_true]
  · simp only [if_neg hex]
    rw [if_neg (by simp)]

/-! ### The chain `FORWARD` -/

variable [DecidableEq A]

def Event.apply (tools : Tools A B B') (h : Host A B B') : Event A B B' → Host A B B'
  | .start iface subnets defaultDeny => startUnit tools iface subnets defaultDeny h
  | .coold rules allowRules bridgeAllowRules =>
    { h with
      filter := Function.update h.filter .allow ((h.filter .allow).map fun _ => rules.map allowRule)
      allowRules := allowRules
      bridgeAllowRules := bridgeAllowRules }

def runAll (tools : Tools A B B') (h : Host A B B') (events : List (Event A B B')) : Host A B B' :=
  events.foldl (Event.apply tools) h

/-- The rules of the units in the chain `FORWARD`. -/
def installed (foreign : List (Rule (Cond A) Chain)) (h : Host A B B') : List (Rule (Cond A) Chain) :=
  ((h.filter .forward).getD []).filter fun r => r ∉ foreign

/-- What becomes of a packet in the rules of the units. -/
def verdict (hit : A → Packet → Bool) (foreign : List (Rule (Cond A) Chain)) (h : Host A B B') (p : Packet) :
    Option Fate :=
  walk (Cond.hits hit) h.filter p 2 (installed foreign h)

/-- The units do not touch the rules of others. -/
private theorem filter_permitForward {foreign forward : List (Rule (Cond A) Chain)} {subnets : List Ipv4Net}
    (hforeign : ∀ r ∈ unitRules A subnets, r ∉ foreign) :
    (permitForward subnets forward).filter (fun r => r ∉ foreign) =
      permitForward subnets (forward.filter fun r => r ∉ foreign) := by
  refine filter_foldl_insert _ fun r hr => ?_
  exact decide_eq_true (hforeign r (List.mem_cons_of_mem _ (List.mem_append_left _ hr)))

private theorem filter_denyForward {foreign forward : List (Rule (Cond A) Chain)} {subnets : List Ipv4Net}
    (hforeign : ∀ r ∈ unitRules A subnets, r ∉ foreign) :
    (denyForward subnets forward).filter (fun r => r ∉ foreign) =
      denyForward subnets (forward.filter fun r => r ∉ foreign) := by
  have hjump := filter_foldl_ensureLast (q := fun r => r ∉ foreign)
    ((forward.diff (rulesOf A (acceptSpecs subnets))).insert ⟨.established, .accept⟩)
    fun r hr => decide_eq_true (hforeign r (List.mem_cons_of_mem _ (List.mem_append_right _ hr)))
  have hest := filter_foldl_insert (q := fun r => r ∉ foreign) (forward.diff (rulesOf A (acceptSpecs subnets)))
    fun r hr => decide_eq_true (hforeign r (List.mem_singleton.1 hr ▸ List.mem_cons_self))
  rw [denyForward, hjump, denyForward, ← filter_diff]
  exact congrArg (fun rs => (rulesOf A (jumpSpecs subnets)).foldl ensureLast rs) hest

/-- What the chain `FORWARD` has of the units. -/
structure Installed (nets : List Ipv4Net) (rs : List (Rule (Cond A) Chain)) : Prop where
  nodup : rs.Nodup
  acceptFirst : AcceptFirst rs
  target : ∀ r ∈ rs, r.target = .accept ∨ r.target = .jump .intra
  accepts : ∀ r ∈ rs, r.target = .accept → r.cond = .established ∨ ∃ net ∈ nets, r ∈ acceptOf A net
  left : ∀ net ∈ nets, ∀ r ∈ acceptOf A net, r ∈ rs

/-- A permissive start adds the rules of its subnets. -/
theorem Installed.permit {nets : List Ipv4Net} {rs : List (Rule (Cond A) Chain)} (h : Installed nets rs)
    (subnets : List Ipv4Net) : Installed (nets ++ subnets.map trunc) (permitForward subnets rs) where
  nodup := nodup_foldl_insert h.nodup
  acceptFirst := h.acceptFirst.foldl_insert fun r hr => target_of_mem_rulesOf_acceptSpecs hr
  target r hr := by
    rcases mem_foldl_insert.1 hr with hr | hr
    · exact h.target r hr
    · exact Or.inl (target_of_mem_rulesOf_acceptSpecs hr)
  accepts r hr hacc := by
    rcases mem_foldl_insert.1 hr with hr | hr
    · refine (h.accepts r hr hacc).imp_right ?_
      rintro ⟨net, hnet, hmem⟩
      exact ⟨net, List.mem_append_left _ hnet, hmem⟩
    · rw [rulesOf_acceptSpecs] at hr
      obtain ⟨net, hnet, hmem⟩ := List.mem_flatMap.1 hr
      exact Or.inr ⟨net, List.mem_append_right _ hnet, hmem⟩
  left net hnet r hr := by
    rw [permitForward, mem_foldl_insert, rulesOf_acceptSpecs]
    rcases List.mem_append.1 hnet with hnet | hnet
    · exact Or.inl (h.left net hnet r hr)
    · exact Or.inr (List.mem_flatMap.2 ⟨net, hnet, hr⟩)

private theorem mem_denyForward {subnets : List Ipv4Net} {rs : List (Rule (Cond A) Chain)} (hnd : rs.Nodup)
    {r : Rule (Cond A) Chain} :
    r ∈ denyForward subnets rs ↔ (r = ⟨.established, .accept⟩ ∨ (r ∈ rs ∧ r ∉ rulesOf A (acceptSpecs subnets))) ∨
      r ∈ rulesOf A (jumpSpecs subnets) := by
  rw [denyForward, mem_foldl_ensureLast, List.mem_insert_iff, hnd.mem_sdiff_iff]

/-- A default-deny start deletes the accepting rules of its subnets and leaves those of others. -/
theorem Installed.deny {nets : List Ipv4Net} {rs : List (Rule (Cond A) Chain)} (h : Installed nets rs)
    (subnets : List Ipv4Net) :
    Installed (nets.filter fun net => net ∉ subnets.map trunc) (denyForward subnets rs) where
  nodup := nodup_foldl_ensureLast h.nodup.diff.insert
  acceptFirst := by
    have hnew : ∀ r ∈ [(⟨.established, .accept⟩ : Rule (Cond A) Chain)], r.target = .accept :=
      fun r hr => by rw [List.mem_singleton.1 hr]
    have hest := (h.acceptFirst.diff (rulesOf A (acceptSpecs subnets))).foldl_insert hnew
    refine hest.foldl_ensureLast fun r hr => ?_
    rw [target_of_mem_rulesOf_jumpSpecs hr]
    simp
  target r hr := by
    rcases (mem_denyForward h.nodup).1 hr with (rfl | hr) | hr
    · exact Or.inl rfl
    · exact h.target r hr.1
    · exact Or.inr (target_of_mem_rulesOf_jumpSpecs hr)
  accepts r hr hacc := by
    rcases (mem_denyForward h.nodup).1 hr with (rfl | hr) | hr
    · exact Or.inl rfl
    · refine (h.accepts r hr.1 hacc).imp_right ?_
      rintro ⟨net, hnet, hmem⟩
      refine ⟨net, List.mem_filter.2 ⟨hnet, decide_eq_true fun hlisted => hr.2 ?_⟩, hmem⟩
      rw [rulesOf_acceptSpecs]
      exact List.mem_flatMap.2 ⟨net, hlisted, hmem⟩
    · rw [target_of_mem_rulesOf_jumpSpecs hr] at hacc
      cases hacc
  left net hnet r hr := by
    obtain ⟨hnet, hnot⟩ := List.mem_filter.1 hnet
    refine (mem_denyForward h.nodup).2 (Or.inl (Or.inr ⟨h.left net hnet r hr, fun hlisted => ?_⟩))
    rw [rulesOf_acceptSpecs] at hlisted
    obtain ⟨net', hnet', hmem⟩ := List.mem_flatMap.1 hlisted
    exact of_decide_eq_true hnot (eq_of_mem_acceptOf hr hmem ▸ hnet')

/-! ### A host and its history -/

variable {tools : Tools A B B'} {foreign : List (Rule (Cond A) Chain)}

/-- What a history keeps: the rules of the units in the chain `FORWARD`, and accepting rules in `COOLIFY-ALLOW`. -/
structure Kept (foreign : List (Rule (Cond A) Chain)) (nets : List Ipv4Net) (h : Host A B B') : Prop where
  forward : ∃ rs, h.filter .forward = some rs ∧ Installed nets (rs.filter fun r => r ∉ foreign)
  allow : ∀ r ∈ (h.filter .allow).getD [], r.target = .accept

theorem Fresh.kept {h : Host A B B'} (hf : Fresh foreign h) : Kept foreign [] h where
  forward := by
    have hnone : foreign.filter (fun r => r ∉ foreign) = [] := List.filter_eq_nil_iff.2 fun r hr => by simpa using hr
    refine ⟨foreign, hf.forward, ?_⟩
    rw [hnone]
    exact ⟨List.nodup_nil, List.Pairwise.nil, by simp, by simp, by simp⟩
  allow := hf.allow

/-- One event. -/
theorem Kept.apply {nets : List Ipv4Net} {h : Host A B B'} (hk : Kept foreign nets h) {e : Event A B B'}
    (hforeign : Foreign foreign [e]) : Kept foreign (leftoverFrom nets e) (e.apply tools h) := by
  obtain ⟨rs, hrs, hinst⟩ := hk.forward
  cases e with
  | start iface subnets defaultDeny =>
    have hnot := hforeign iface subnets defaultDeny (List.mem_singleton.2 rfl)
    cases defaultDeny with
    | true =>
      obtain ⟨hforward, -, hallow⟩ := filter_startUnit_deny hrs
      refine ⟨⟨_, hforward, ?_⟩, ?_⟩
      · rw [filter_denyForward hnot]
        exact hinst.deny subnets
      · rw [Event.apply, hallow]
        exact target_of_mem_restoredAllow hk.allow
    | false =>
      obtain ⟨hforward, hallow, -⟩ := startUnit_permit hrs
      refine ⟨⟨_, hforward, ?_⟩, ?_⟩
      · rw [filter_permitForward hnot]
        exact hinst.permit subnets
      · rw [Event.apply, hallow]
        exact hk.allow
  | coold rules allowRules bridgeAllowRules =>
    refine ⟨⟨rs, hrs, hinst⟩, fun r hr => ?_⟩
    simp only [Event.apply, Function.update_self] at hr
    cases hold : h.filter .allow with
    | none => simp [hold] at hr
    | some old =>
      rw [hold] at hr
      exact target_of_mem_map_allowRule hr

/-- A whole history. -/
private theorem kept_runAll {h : Host A B B'} (hf : Fresh foreign h) {events : List (Event A B B')}
    (hforeign : Foreign foreign events) : Kept foreign (leftover events) (runAll tools h events) := by
  have hrun : ∀ (events : List (Event A B B')) (nets : List Ipv4Net) (h : Host A B B'), Kept foreign nets h →
      Foreign foreign events → Kept foreign (events.foldl leftoverFrom nets) (runAll tools h events) := by
    intro events
    induction events with
    | nil => exact fun _ _ hk _ => hk
    | cons e events ih =>
      intro nets h hk hforeign
      refine ih _ _ (hk.apply fun iface subnets defaultDeny he => ?_) fun iface subnets defaultDeny he => ?_
      · exact hforeign iface subnets defaultDeny (List.mem_singleton.1 he ▸ List.mem_cons_self)
      · exact hforeign iface subnets defaultDeny (List.mem_cons_of_mem _ he)
  exact hrun events [] h hf.kept hforeign

/-! ### Verdicts -/

/-- After a default-deny start a new packet of its subnets is accepted if a left over subnet touches it or
`COOLIFY-ALLOW` accepts it, and is dropped otherwise. -/
private theorem verdict_deny {nets : List Ipv4Net} {h : Host A B B'} (hk : Kept foreign nets h) {iface : String}
    {subnets : List Ipv4Net} (hforeign : ∀ r ∈ unitRules A subnets, r ∉ foreign) {p : Packet}
    (hnew : p.established = false) (hp : Touches subnets p) :
    verdict hit foreign (startUnit tools iface subnets true h) p =
      some (if Touches (nets.filter fun net => net ∉ subnets.map trunc) p ∨
        AllowAccepts hit (startUnit tools iface subnets true h) p then .accept else .drop) := by
  obtain ⟨rs, hrs, hinst⟩ := hk.forward
  obtain ⟨hforward, hintra, hallow⟩ := filter_startUnit_deny hrs
  have hinst' := hinst.deny subnets
  rw [verdict, installed, hforward, Option.getD_some, filter_denyForward hforeign]
  by_cases hleft : Touches (nets.filter fun net => net ∉ subnets.map trunc) p
  · rw [if_pos (Or.inl hleft)]
    obtain ⟨net, hnet, r, hr, hhit⟩ := (touches_iff_acceptOf (A := A)).1 hleft
    exact walkWith_accept hinst'.acceptFirst ⟨r, hinst'.left net hnet r hr, (target_of_mem_acceptOf hr).1, hhit⟩
  · simp only [or_iff_right hleft]
    obtain ⟨r, hr, hhit⟩ := (touches_iff_jumpSpecs (A := A)).1 hp
    refine walkWith_of_forall (by split <;> simp) (fun r' hr' hhit' => ?_)
      ⟨r, (mem_denyForward hinst.nodup).2 (Or.inr hr), hhit⟩
    -- no accepting rule matches, so that the packet goes to `COOLIFY-INTRA`
    rcases hinst'.target r' hr' with hacc | hjump
    · rcases hinst'.accepts r' hr' hacc with hest | ⟨net, hnet, hmem⟩
      · rw [hest, Cond.hits, hnew] at hhit'
        cases hhit'
      · exact absurd ((touches_iff_acceptOf (A := A)).2 ⟨net, hnet, r', hmem, hhit'⟩) hleft
    · rw [hjump, Target.fate]
      exact fate_intra hintra hallow (target_of_mem_restoredAllow hk.allow) p

/-- After a permissive start every packet of its subnets is accepted. -/
private theorem verdict_permit {nets : List Ipv4Net} {h : Host A B B'} (hk : Kept foreign nets h) {iface : String}
    {subnets : List Ipv4Net} (hforeign : ∀ r ∈ unitRules A subnets, r ∉ foreign) {p : Packet}
    (hp : Touches subnets p) : verdict hit foreign (startUnit tools iface subnets false h) p = some .accept := by
  obtain ⟨rs, hrs, hinst⟩ := hk.forward
  obtain ⟨hforward, -, -⟩ := startUnit_permit hrs
  have hinst' := hinst.permit subnets
  rw [verdict, installed, hforward, Option.getD_some, filter_permitForward hforeign]
  obtain ⟨net, hnet, r, hr, hhit⟩ := (touches_iff_acceptOf (A := A)).1 (touches_map_trunc.2 hp)
  exact walkWith_accept hinst'.acceptFirst
    ⟨r, hinst'.left net (List.mem_append_right _ hnet) r hr, (target_of_mem_acceptOf hr).1, hhit⟩

/-- The chain `COOLIFY-ALLOW` after a default-deny start accepts what the restored rules match. -/
private theorem allowAccepts_deny {nets : List Ipv4Net} {h : Host A B B'} (hk : Kept foreign nets h) (iface : String)
    (subnets : List Ipv4Net) {p : Packet} :
    AllowAccepts hit (startUnit tools iface subnets true h) p ↔
      ∃ r ∈ restoredAllow tools h, r.cond.hits hit p = true := by
  obtain ⟨rs, hrs, -⟩ := hk.forward
  obtain ⟨-, -, hallow⟩ := filter_startUnit_deny hrs
  have hwalk : walk (Cond.hits hit) (startUnit tools iface subnets true h).filter p 0 (restoredAllow tools h) =
      some (if ∃ r ∈ restoredAllow tools h, r.cond.hits hit p = true then .accept else .back) :=
    walkWith_of_accepting (target_of_mem_restoredAllow hk.allow)
  rw [AllowAccepts, hallow, Option.getD_some, hwalk]
  by_cases hex : ∃ r ∈ restoredAllow tools h, r.cond.hits hit p = true
  · rw [if_pos hex]
    exact iff_of_true rfl hex
  · rw [if_neg hex]
    exact iff_of_false (by simp) hex

/-- What a last start is to do with the packets of its subnets: a default-deny start drops the new packets that
`COOLIFY-ALLOW` does not accept, and a permissive start accepts all. -/
def Enforces (hit : A → Packet → Bool) (foreign : List (Rule (Cond A) Chain)) (subnets : List Ipv4Net)
    (defaultDeny : Bool) (h : Host A B B') : Prop :=
  ∀ p, Touches subnets p →
    if defaultDeny then
      p.established = false → verdict hit foreign h p = some (if AllowAccepts hit h p then .accept else .drop)
    else verdict hit foreign h p = some .accept

/-- After any history and a last start, the packets of the subnets of this start are treated as its mode says: exactly
when it is permissive, or the allow rules accept all new packets of its subnets that touch a subnet of an earlier
permissive start that no default-deny start has listed since. -/
theorem default_deny_iff {h : Host A B B'} (hfresh : Fresh foreign h) {events : List (Event A B B')} {iface : String}
    {subnets : List Ipv4Net} {defaultDeny : Bool}
    (hforeign : Foreign foreign (events ++ [.start iface subnets defaultDeny])) :
    Enforces hit foreign subnets defaultDeny (runAll tools h (events ++ [.start iface subnets defaultDeny])) ↔
      (defaultDeny = true → ∀ p, p.established = false → Touches subnets p →
        Touches (leftover (events ++ [.start iface subnets defaultDeny])) p →
        ∃ r ∈ restoredAllow tools (runAll tools h events), r.cond.hits hit p = true) := by
  have hk : Kept foreign (leftover events) (runAll tools h events) :=
    kept_runAll hfresh fun i s d hmem => hforeign i s d (List.mem_append_left _ hmem)
  have hlast := hforeign iface subnets defaultDeny (List.mem_append_right _ List.mem_cons_self)
  have hrun : runAll tools h (events ++ [.start iface subnets defaultDeny]) =
      startUnit tools iface subnets defaultDeny (runAll tools h events) := by
    rw [runAll, List.foldl_append]
    rfl
  have hleft : leftover (events ++ [.start iface subnets defaultDeny]) =
      leftoverFrom (leftover events) (Event.start iface subnets defaultDeny : Event A B B') := by
    rw [leftover, List.foldl_append]
    rfl
  rw [hrun, hleft]
  cases defaultDeny with
  | false =>
    refine iff_of_true (fun p hp => ?_) fun h => by cases h
    rw [if_neg Bool.false_ne_true]
    exact verdict_permit hk hlast hp
  | true =>
    rw [leftoverFrom]
    simp only [Enforces, if_true, true_implies, ← allowAccepts_deny hk iface subnets]
    refine forall_congr' fun p => ?_
    constructor
    · intro henf hnew hp hleft
      have heq := henf hp hnew
      rw [verdict_deny hk hlast hnew hp, if_pos (Or.inl hleft)] at heq
      by_contra hnot
      rw [if_neg hnot] at heq
      cases heq
    · intro hallowed hp hnew
      rw [verdict_deny hk hlast hnew hp]
      by_cases hleft : Touches ((leftover events).filter fun net => net ∉ subnets.map trunc) p
      · rw [if_pos (Or.inl hleft), if_pos (hallowed hnew hp hleft)]
      · have hiff := or_iff_right (b := AllowAccepts hit (startUnit tools iface subnets true (runAll tools h events)) p)
          hleft
        exact congrArg some (if_congr hiff rfl rfl)

end History

/-! ### A subnet that is left over -/

/-- The subnets of two namespaces. -/
def webNet : Ipv4Net := .ofLen 0x0AD20100 24
def jobsNet : Ipv4Net := .ofLen 0x0AD20200 24

/-- A host without snapshots, and with a rule of another program in the chain `FORWARD`. -/
def otherRule : Rule (Cond Unit) Chain := ⟨.addrs anyNet (.ofLen 0x0A580000 16), .accept⟩

def bareHost : Host Unit Unit Unit where
  filter
    | .forward => some [otherRule]
    | _ => none
  postrouting := []
  bridge := none
  allowRules := none
  bridgeAllowRules := none

def noRules : Tools Unit Unit Unit := ⟨fun _ => some [], fun _ => some [], fun subnets => !subnets.isEmpty⟩

private theorem fresh_bareHost : Fresh [otherRule] bareHost := ⟨rfl, by simp [bareHost]⟩

/-- A permissive host becomes a default-deny host with the same subnet. -/
theorem default_deny_after_permit :
    Enforces (fun _ _ => false) [otherRule] [webNet] true
      (runAll noRules bareHost ([.start "wg0" [webNet] false] ++ [.start "wg0" [webNet] true])) := by
  have hforeign : Foreign [otherRule] ([.start "wg0" [webNet] false] ++ [.start "wg0" [webNet] true] :
      List (Event Unit Unit Unit)) := by
    intro iface subnets defaultDeny hmem
    simp only [List.cons_append, List.nil_append, List.mem_cons, List.not_mem_nil, or_false, Event.start.injEq] at hmem
    obtain ⟨-, rfl, -⟩ | ⟨-, rfl, -⟩ := hmem <;> decide
  have hleft : leftover ([.start "wg0" [webNet] false] ++ [.start "wg0" [webNet] true] : List (Event Unit Unit Unit)) =
      [] := by decide
  refine (default_deny_iff fresh_bareHost hforeign).2 fun _ p _ _ htouch => ?_
  rw [hleft] at htouch
  obtain ⟨net, hnet, -⟩ := htouch
  cases hnet

/-- A host is permissive with two subnets, and then default-deny with one of them. -/
def shrunk : List (Event Unit Unit Unit) := [.start "wg0" [webNet, jobsNet] false, .start "wg0" [webNet] true]

/-- A new packet from the subnet that is no longer listed to the one that is. -/
def leftoverPacket : Packet := ⟨0x0AD20205, 0x0AD20109, false, some ("tcp", 5432)⟩

/-- The packet is accepted by the rules of the units, and not by `COOLIFY-ALLOW`. -/
theorem accept_left_over :
    Fresh [otherRule] bareHost ∧ Foreign [otherRule] shrunk ∧ Touches [webNet] leftoverPacket ∧
      verdict (fun _ _ => false) [otherRule] (runAll noRules bareHost shrunk) leftoverPacket = some .accept ∧
      ¬ AllowAccepts (fun _ _ => false) (runAll noRules bareHost shrunk) leftoverPacket ∧
      ¬ Enforces (fun _ _ => false) [otherRule] [webNet] true (runAll noRules bareHost shrunk) := by
  have htouch : Touches [webNet] leftoverPacket := by decide
  have hverdict : verdict (fun _ _ => false) [otherRule] (runAll noRules bareHost shrunk) leftoverPacket =
      some .accept := by decide
  have hallow : ¬ AllowAccepts (fun _ _ => false) (runAll noRules bareHost shrunk) leftoverPacket := by decide
  refine ⟨fresh_bareHost, ?_, htouch, hverdict, hallow, fun h => ?_⟩
  · intro iface subnets defaultDeny hmem
    simp only [shrunk, List.mem_cons, List.not_mem_nil, or_false, Event.start.injEq] at hmem
    obtain ⟨-, rfl, -⟩ | ⟨-, rfl, -⟩ := hmem <;> decide
  · have heq := h leftoverPacket htouch rfl
    rw [hverdict, if_neg hallow] at heq
    cases heq

end Coold.Node
