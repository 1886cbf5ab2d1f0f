import Coold.Agent.Config
import Coold.Lib.Backoff

/-!
# The DNS server

For every namespace with a gateway one loop binds `<gateway>:53` and serves.  The addresses of a bridge come and go, so
an error that may be due to this is waited out.  Any other error ends the loop, and so do a zone that no resolver can be
built for and a panic; `run` ends with the first loop, in the order of the namespaces, that has not ended well.

`runForGateway_eq` is the whole of one loop: what is waited, and how it ends.  `dns_loops` says when `run` fails: a loop
that has failed is not noticed while a loop before it is still going.
-/

namespace Coold.Dns.Server

open Coold.Agent (NamespaceConfig)

/-- `IpAddr::is_unspecified`. -/
def isUnspecified : IpAddr → Bool
  | .v4 bits => bits = 0
  | .v6 bits => bits = 0

/-- The kinds of `io::Error` that are told apart; `named` is any other one. -/
inductive IoErrorKind where
  | addrNotAvailable
  | addrInUse
  | networkUnreachable
  | other
  | named (name : String)
  deriving DecidableEq

/-- An error: its text, and for each of its causes the kind if it is an `io::Error`. -/
structure Error where
  message : String
  chain : List (Option IoErrorKind)
  deriving DecidableEq

def Error.context (context : String) (e : Error) : Error := ⟨context ++ ": " ++ e.message, none :: e.chain⟩

/-- Milliseconds. -/
def backoffStart : Nat := 1000

def backoffMax : Nat := 30000

def isRetryableIo (e : Error) : Bool :=
  (e.chain.filterMap id).any fun kind =>
    kind = .addrNotAvailable || kind = .addrInUse || kind = .networkUnreachable || kind = .other

/-- How a task ends, or a call in it. -/
inductive TaskEnd where
  | ended (result : Except Error Unit)
  | panicked (e : String)

section Gateway

-- the text of the address with port 53, and the name of the namespace
variable (addr namespace_ : String)

/-- The loop of one gateway: what it waits, and its end if it comes to one.  `build` is what the resolver of the zone is
built to, and the list has what `tryServe` comes to in every round that is over. -/
def runForGateway (build : Except Error Unit) : Nat → List TaskEnd → List Nat × Option TaskEnd
  | _, [] => ([], none)
  | backoff, served :: attempts =>
    match build with
    | .error e => ([], some (.ended (.error (e.context "build CoolifyResolver"))))
    | .ok () =>
      match served with
      | .panicked e => ([], some (.panicked e))
      | .ended (.ok ()) => ([], some (.ended (.ok ())))
      | .ended (.error e) =>
        if isRetryableIo e then
          let rest := runForGateway build (min (backoff * 2) backoffMax) attempts
          (backoff :: rest.1, rest.2)
        else
          ([], some (.ended (.error (e.context ("dns bind/serve on " ++ addr ++ " (namespace " ++ namespace_ ++ ")")))))

/-- An attempt after which there is another one. -/
def isRetried : TaskEnd → Bool
  | .ended (.error e) => isRetryableIo e
  | _ => false

def serveError (e : Error) : Error := e.context ("dns bind/serve on " ++ addr ++ " (namespace " ++ namespace_ ++ ")")

/-- The end of a loop, by its last attempt. -/
def TaskEnd.ofServed : TaskEnd → TaskEnd
  | .ended result => .ended (result.mapError (serveError addr namespace_))
  | .panicked e => .panicked e

def policy : Backoff.Policy where
  start := backoffStart
  cap := backoffMax
  start_pos := by decide
  start_le_cap := by decide

variable {addr namespace_}

/-- The waits follow the attempts that are retried; the first other one is the end. -/
private theorem runForGateway_ok (backoff : Nat) (attempts : List TaskEnd) :
    runForGateway addr namespace_ (.ok ()) backoff attempts =
      (policy.waits backoff ((attempts.takeWhile isRetried).map fun _ => .failed),
        (attempts.dropWhile isRetried).head?.map (TaskEnd.ofServed addr namespace_)) := by
  induction attempts generalizing backoff with
  | nil => rfl
  | cons served attempts ih =>
    match served with
    | .panicked e => rfl
    | .ended (.ok u) => rfl
    | .ended (.error e) =>
      rw [runForGateway]
      cases hretry : isRetryableIo e with
      | true =>
        have hretried : isRetried (.ended (.error e)) = true := hretry
        rw [List.takeWhile_cons_of_pos hretried, List.dropWhile_cons_of_pos hretried, List.map_cons,
          Backoff.Policy.waits]
        simp only [if_true, ih]
        rfl
      | false =>
        have hretried : ¬ isRetried (.ended (.error e)) = true := fun h => by
          rw [isRetried, hretry] at h
          cases h
        rw [List.takeWhile_cons_of_neg hretried, List.dropWhile_cons_of_neg hretried]
        rfl

/-- The `n`-th wait of a loop that only fails. -/
private theorem waits_failed (n : Nat) :
    policy.waits backoffStart (List.replicate n .failed) =
      (List.range n).map fun k => min (backoffStart * 2 ^ k) backoffMax := by
  refine List.ext_getElem? fun k => ?_
  rcases Nat.lt_or_ge k n with hk | hk
  · have hsplit : List.replicate n Backoff.Verdict.failed =
        List.replicate k .failed ++ .failed :: List.replicate (n - k - 1) .failed := by
      rw [← List.replicate_succ, List.replicate_append_replicate]
      congr 1
      omega
    have hall : ((List.replicate k Backoff.Verdict.failed).rtakeWhile fun v => !v.isReset) =
        List.replicate k .failed := by
      rw [List.rtakeWhile, List.reverse_replicate, List.takeWhile_replicate]
      simp [Backoff.Verdict.isReset]
    have hafter : policy.after backoffStart (List.replicate k .failed) = min (backoffStart * 2 ^ k) backoffMax := by
      refine (Backoff.Policy.after_eq (p := policy) ?_).trans ?_
      · intro wait hmem
        cases List.eq_of_mem_replicate hmem
      · rw [hall, List.length_replicate, if_pos (List.all_eq_true.2 fun v hv => ?_)]
        · rfl
        · rw [List.eq_of_mem_replicate hv, decide_eq_true rfl]
    have hwait := Backoff.Policy.waits_getElem? (p := policy) backoffStart (List.replicate k .failed) .failed
      (List.replicate (n - k - 1) .failed)
    rw [List.length_replicate, ← hsplit, hafter] at hwait
    rw [hwait, List.getElem?_map, List.getElem?_range hk]
    rfl
  · rw [List.getElem?_eq_none, List.getElem?_eq_none]
    · simpa using hk
    · simpa using hk

/-- The whole of a loop whose resolver can be built. -/
theorem runForGateway_eq (attempts : List TaskEnd) :
    runForGateway addr namespace_ (.ok ()) backoffStart attempts =
      ((List.range (attempts.takeWhile isRetried).length).map fun k => min (backoffStart * 2 ^ k) backoffMax,
        (attempts.dropWhile isRetried).head?.map (TaskEnd.ofServed addr namespace_)) := by
  rw [runForGateway_ok, List.map_const', waits_failed]

/-- Else the loop ends in its first round. -/
private theorem runForGateway_error (e : Error) (backoff : Nat) (attempts : List TaskEnd) :
    runForGateway addr namespace_ (.error e) backoff attempts =
      ([], attempts.head?.map fun _ => .ended (.error (e.context "build CoolifyResolver"))) := by
  cases attempts with
  | nil => rfl
  | cons served attempts => rfl

end Gateway

/-! ### All gateways -/

/-- The error of a task. -/
def TaskEnd.error? : TaskEnd → Option Error
  | .ended (.ok ()) => none
  | .ended (.error e) => some e
  | .panicked e => some ⟨"dns bind task panicked: " ++ e, [none]⟩

/-- The tasks are awaited one after the other; `none` is one that has not ended. -/
def awaitAll : List (Option TaskEnd) → Option (Except Error Unit)
  | [] => some (.ok ())
  | none :: _ => none
  | some task :: rest =>
    match task.error? with
    | none => awaitAll rest
    | some e => some (.error e)

def gateways (namespaces : List NamespaceConfig) : List NamespaceConfig :=
  namespaces.filter fun n => !isUnspecified n.gatewayIp

/-- `run`, by how far the task of each namespace has got. -/
def run (namespaces : List NamespaceConfig) (task : NamespaceConfig → Option TaskEnd) : Option (Except Error Unit) :=
  if gateways namespaces = [] then none else awaitAll ((gateways namespaces).map task)

/-- The first place of a list where something holds is its head, or lies behind it. -/
private theorem exists_split_cons {α : Type} {P Q : α → Prop} {a : α} {l : List α} :
    (∃ before b rest, a :: l = before ++ b :: rest ∧ P b ∧ ∀ c ∈ before, Q c) ↔
      P a ∨ Q a ∧ ∃ before b rest, l = before ++ b :: rest ∧ P b ∧ ∀ c ∈ before, Q c := by
  constructor
  · rintro ⟨before, b, rest, h, hb, hbefore⟩
    cases before with
    | nil => exact .inl ((List.cons.inj h).1 ▸ hb)
    | cons c before =>
      obtain ⟨hc, hrest⟩ := List.forall_mem_cons.1 hbefore
      exact .inr ⟨(List.cons.inj h).1 ▸ hc, before, b, rest, (List.cons.inj h).2, hb, hrest⟩
  · rintro (ha | ⟨ha, before, b, rest, rfl, hb, hbefore⟩)
    · exact ⟨[], a, l, rfl, ha, fun c hc => absurd hc List.not_mem_nil⟩
    · exact ⟨a :: before, b, rest, rfl, hb, List.forall_mem_cons.2 ⟨ha, hbefore⟩⟩

private theorem awaitAll_eq_error_iff {tasks : List (Option TaskEnd)} {e : Error} :
    awaitAll tasks = some (.error e) ↔ ∃ before b rest, tasks = before ++ b :: rest ∧
      (∃ t : TaskEnd, b = some t ∧ t.error? = some e) ∧ ∀ c ∈ before, ∃ u : TaskEnd, c = some u ∧ u.error? = none := by
  induction tasks with
  | nil => simp [awaitAll]
  | cons b tasks ih =>
    rw [exists_split_cons, ← ih]
    cases b with
    | none => simp [awaitAll]
    | some task => cases htask : task.error? <;> simp [awaitAll, htask]

section Run

-- the text of the address of a gateway with port 53, what the resolver of the zone is built to, and what the attempts
-- of each namespace come to so far
variable (socketAddr : IpAddr → String) (build : Except Error Unit) (attempts : NamespaceConfig → List TaskEnd)

/-- How far the loop of a namespace has got. -/
def gatewayLoop (n : NamespaceConfig) : List Nat × Option TaskEnd :=
  runForGateway (socketAddr n.gatewayIp) n.name build backoffStart (attempts n)

/-- How far the task of that loop has got. -/
def gatewayTask (n : NamespaceConfig) : Option TaskEnd := (gatewayLoop socketAddr build attempts n).2

/-- The first attempt of a namespace that is not retried. -/
def settled (n : NamespaceConfig) : Option TaskEnd := ((attempts n).dropWhile isRetried).head?

/-- The error that the loop of a namespace has come to: its first round is over and there is no resolver, or its first
attempt that is not retried is an error or a panic. -/
inductive FailsWith (n : NamespaceConfig) : Error → Prop
  | build {cause : Error} : build = .error cause → attempts n ≠ [] → FailsWith n (cause.context "build CoolifyResolver")
  | serve {cause : Error} : build = .ok () → settled attempts n = some (.ended (.error cause)) →
      FailsWith n (serveError (socketAddr n.gatewayIp) n.name cause)
  | panic {text : String} : build = .ok () → settled attempts n = some (.panicked text) →
      FailsWith n ⟨"dns bind task panicked: " ++ text, [none]⟩

/-- The loop of a namespace has come to a clean end. -/
def EndsWell (n : NamespaceConfig) : Prop := build = .ok () ∧ settled attempts n = some (.ended (.ok ()))

variable {build attempts}

private theorem gatewayTask_of_settled {n : NamespaceConfig} {served : TaskEnd} (hbuild : build = .ok ())
    (h : settled attempts n = some served) :
    gatewayTask socketAddr build attempts n = some (served.ofServed (socketAddr n.gatewayIp) n.name) := by
  rw [gatewayTask, gatewayLoop, hbuild, runForGateway_eq]
  exact congrArg (Option.map (TaskEnd.ofServed (socketAddr n.gatewayIp) n.name)) h

/-- How the task of a namespace ends, by the resolver and its first attempt that is not retried. -/
private theorem gatewayTask_cases {n : NamespaceConfig} {t : TaskEnd}
    (h : gatewayTask socketAddr build attempts n = some t) :
    (∃ cause, build = .error cause ∧ attempts n ≠ [] ∧
        t = .ended (.error (cause.context "build CoolifyResolver"))) ∨
      build = .ok () ∧ ∃ served, settled attempts n = some served ∧
        t = served.ofServed (socketAddr n.gatewayIp) n.name := by
  rw [gatewayTask, gatewayLoop] at h
  cases hbuild : build with
  | error cause =>
    rw [hbuild, runForGateway_error] at h
    obtain ⟨served, hserved, rfl⟩ := Option.map_eq_some_iff.1 h
    refine Or.inl ⟨cause, rfl, fun hnil => ?_, rfl⟩
    rw [hnil] at hserved
    cases hserved
  | ok u =>
    rw [hbuild, runForGateway_eq] at h
    obtain ⟨served, hserved, rfl⟩ := Option.map_eq_some_iff.1 h
    exact Or.inr ⟨rfl, served, hserved, rfl⟩

private theorem gatewayTask_error_iff {n : NamespaceConfig} {e : Error} :
    (∃ t, gatewayTask socketAddr build attempts n = some t ∧ t.error? = some e) ↔
      FailsWith socketAddr build attempts n e := by
  constructor
  · rintro ⟨t, ht, he⟩
    rcases gatewayTask_cases socketAddr ht with ⟨cause, hbuild, hbegun, rfl⟩ | ⟨hbuild, served, hserved, rfl⟩
    · obtain rfl := Option.some.inj he
      exact .build hbuild hbegun
    · match served with
      | .ended (.ok u) => cases he
      | .ended (.error cause) =>
        obtain rfl := Option.some.inj he
        exact .serve hbuild hserved
      | .panicked text =>
        obtain rfl := Option.some.inj he
        exact .panic hbuild hserved
  · intro h
    cases h with
    | @build cause hbuild hbegun =>
      refine ⟨.ended (.error (cause.context "build CoolifyResolver")), ?_, rfl⟩
      obtain ⟨served, rest, hcons⟩ := List.exists_cons_of_ne_nil hbegun
      rw [gatewayTask, gatewayLoop, hbuild, runForGateway_error, hcons]
      rfl
    | serve hbuild hserved => exact ⟨_, gatewayTask_of_settled socketAddr hbuild hserved, rfl⟩
    | panic hbuild hserved => exact ⟨_, gatewayTask_of_settled socketAddr hbuild hserved, rfl⟩

private theorem gatewayTask_ok_iff {n : NamespaceConfig} :
    (∃ t, gatewayTask socketAddr build attempts n = some t ∧ t.error? = none) ↔ EndsWell build attempts n := by
  constructor
  · rintro ⟨t, ht, hnone⟩
    rcases gatewayTask_cases socketAddr ht with ⟨cause, hbuild, hbegun, rfl⟩ | ⟨hbuild, served, hserved, rfl⟩
    · cases hnone
    · match served with
      | .ended (.ok ()) => exact ⟨hbuild, hserved⟩
      | .ended (.error cause) => cases hnone
      | .panicked text => cases hnone
  · rintro ⟨hbuild, hserved⟩
    exact ⟨_, gatewayTask_of_settled socketAddr hbuild hserved, rfl⟩

private theorem run_eq_error_iff {namespaces : List NamespaceConfig} {task : NamespaceConfig → Option TaskEnd}
    {e : Error} :
    run namespaces task = some (.error e) ↔ awaitAll ((gateways namespaces).map task) = some (.error e) := by
  rw [run]
  split
  · rename_i hnil
    rw [hnil]
    exact iff_of_false (fun h => by cases h) (fun h => by cases h)
  · exact Iff.rfl

/-- With a resolver, every loop waits 1 s, 2 s, 4 s and so on up to 30 s, once for each of its attempts before the first
that is not retried; without one it waits for nothing.  `run` fails exactly when some loop has come to an error and every
loop before it has come to a clean end. -/
theorem dns_loops (build : Except Error Unit) (attempts : NamespaceConfig → List TaskEnd)
    (namespaces : List NamespaceConfig) :
    (∀ n, (gatewayLoop socketAddr build attempts n).1 =
      match build with
      | .ok () =>
        (List.range ((attempts n).takeWhile isRetried).length).map fun k => min (backoffStart * 2 ^ k) backoffMax
      | .error _ => []) ∧
    ∀ e, run namespaces (gatewayTask socketAddr build attempts) = some (.error e) ↔
      ∃ before n rest, gateways namespaces = before ++ n :: rest ∧ FailsWith socketAddr build attempts n e ∧
        ∀ b ∈ before, EndsWell build attempts b := by
  refine ⟨fun n => ?_, fun e => ?_⟩
  · rw [gatewayLoop]
    cases build with
    | ok u => rw [runForGateway_eq]
    | error cause => rw [runForGateway_error]
  · rw [run_eq_error_iff, awaitAll_eq_error_iff]
    constructor
    · rintro ⟨tasks, _, others, hsplit, ⟨t, rfl, ht⟩, hbefore⟩
      obtain ⟨before, rest', hnamespaces, rfl, hrest⟩ := List.map_eq_append_iff.1 hsplit
      obtain ⟨n, rest, rfl, hn, rfl⟩ := List.map_eq_cons_iff.1 hrest
      refine ⟨before, n, rest, hnamespaces, (gatewayTask_error_iff socketAddr).1 ⟨t, hn, ht⟩, fun b hb => ?_⟩
      exact (gatewayTask_ok_iff socketAddr).1 (hbefore _ (List.mem_map_of_mem hb))
    · rintro ⟨before, n, rest, hnamespaces, hfails, hbefore⟩
      obtain ⟨t, hn, ht⟩ := (gatewayTask_error_iff socketAddr).2 hfails
      refine ⟨before.map (gatewayTask socketAddr build attempts), t, rest.map (gatewayTask socketAddr build attempts),
        by rw [hnamespaces, List.map_append, List.map_cons, hn], ⟨t, rfl, ht⟩, fun b hb => ?_⟩
      obtain ⟨m, hm, rfl⟩ := List.mem_map.1 hb
      exact (gatewayTask_ok_iff socketAddr).2 (hbefore m hm)

end Run

end Coold.Dns.Server
