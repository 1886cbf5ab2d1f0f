import Coold.Agent.Dial
import Coold.Lib.Backoff

/-!
# The reconnect loop

`run` dials flux over and over.  Every attempt reads the token again and resolves the URL again, and whatever an attempt
comes to, the loop waits before the next one.  An `Attempt` is what the loop meets in one round; times are in
milliseconds.

What is waited is an instance of capped backoff, a clean end of a stable stream being a reset and a permanent rejection
a hold: `reconnect_delays` gives every wait in terms of the attempts before it, and `connections_protected` says what
is true of every channel that is dialed.
-/

namespace Coold.Agent.Reconnect

def initialReconnectBackoff : Nat := 1000

def maxReconnectBackoff : Nat := 60000

def stableStreamResetAfter : Nat := 30000

def permanentRejectionRetryDelay : Nat := 15 * 60 * 1000

def nextBackoffAfterDelay (delay : Nat) : Nat := min (delay * 2) maxReconnectBackoff

/-- The delay, and the next backoff. -/
def backoffAfterCleanStreamClose (connectedFor currentBackoff : Nat) : Nat × Nat :=
  if stableStreamResetAfter ≤ connectedFor then (initialReconnectBackoff, initialReconnectBackoff)
  else (currentBackoff, nextBackoffAfterDelay currentBackoff)

def isPermanentRejection (error : Chain) : Bool :=
  error.any fun cause => cause = some .unauthenticated || cause = some .permissionDenied ||
    cause = some .invalidArgument || cause = some .failedPrecondition

def retryDelayForError (error : Chain) (currentBackoff : Nat) : Nat :=
  if isPermanentRejection error then permanentRejectionRetryDelay else currentBackoff

/-- What a round of the loop meets; `elapsed` is how long `connectAndServe` takes. -/
structure Attempt where
  hostJwt : HostJwtFile
  post : String → String → AssignmentRequest → Except String AssignmentAnswer
  peer : Peer
  elapsed : Nat

/-- The channel dialed in a round, if any, the delay after it and the backoff of the next round. -/
structure Iteration where
  connection : Option Connection
  delay : Nat
  backoff : Nat

def iteration (config : GrpcConfig) (backoff : Nat) (a : Attempt) : Iteration :=
  match loadHostJwt config.hostJwtPath a.hostJwt with
  | .error _ => ⟨none, backoff, nextBackoffAfterDelay backoff⟩
  | .ok jwt =>
    match resolveFluxUrl a.post config.assignmentUrl config.fluxUrl jwt (assignmentRequest config) with
    | .error _ => ⟨none, backoff, nextBackoffAfterDelay backoff⟩
    | .ok url =>
      match connectAndServe config url jwt a.peer with
      | (connection, .ok ()) =>
        let (delay, nextBackoff) := backoffAfterCleanStreamClose a.elapsed backoff
        ⟨connection, delay, nextBackoff⟩
      | (connection, .error e) =>
        let delay := retryDelayForError e backoff
        ⟨connection, delay, nextBackoffAfterDelay delay⟩

def loop (config : GrpcConfig) : Nat → List Attempt → List Iteration
  | _, [] => []
  | backoff, a :: attempts => iteration config backoff a :: loop config (iteration config backoff a).backoff attempts

/-- A `run` does nothing when it is disabled, ends at once without a token, and else loops. -/
inductive Run where
  | disabled
  | failed (e : String)
  | looping (iterations : List Iteration)

def run (config : GrpcConfig) (hostJwt : HostJwtFile) (attempts : List Attempt) : Run :=
  if config.grpcDisabled || (config.fluxUrl.isNone && config.assignmentUrl.isNone) then .disabled
  else
    match loadHostJwt config.hostJwtPath hostJwt with
    | .error e => .failed ("initial host JWT load: " ++ e)
    | .ok _ => .looping (loop config initialReconnectBackoff attempts)

/-! ### What an attempt comes to -/

section Loop

variable (config : GrpcConfig)

/-- How `connectAndServe` ends, when there is a token and a URL. -/
def outcome (a : Attempt) : Option (Except Chain Unit) := do
  let jwt ← (loadHostJwt config.hostJwtPath a.hostJwt).toOption
  let url ← (resolveFluxUrl a.post config.assignmentUrl config.fluxUrl jwt (assignmentRequest config)).toOption
  return (connectAndServe config url jwt a.peer).2

/-- The stream stayed for long and ended cleanly. -/
def stablyClosed (a : Attempt) : Bool :=
  match outcome config a with
  | some (.ok ()) => stableStreamResetAfter ≤ a.elapsed
  | _ => false

/-- Flux refused the host for a reason that does not go away by itself. -/
def permanentlyRejected (a : Attempt) : Bool :=
  match outcome config a with
  | some (.error e) => isPermanentRejection e
  | _ => false

def policy : Backoff.Policy where
  start := initialReconnectBackoff
  cap := maxReconnectBackoff
  start_pos := by decide
  start_le_cap := by decide

def verdict (a : Attempt) : Backoff.Verdict :=
  if stablyClosed config a then .reset initialReconnectBackoff
  else if permanentlyRejected config a then .held permanentRejectionRetryDelay
  else .failed

variable {config}

private theorem not_stablyClosed_of_permanentlyRejected {a : Attempt} (h : permanentlyRejected config a = true) :
    stablyClosed config a = false := by
  unfold permanentlyRejected at h
  unfold stablyClosed
  split at h
  · rename_i e he
    rw [he]
  · cases h

/-- One round waits and goes on as its verdict says. -/
private theorem iteration_step (backoff : Nat) (a : Attempt) :
    ((iteration config backoff a).delay, (iteration config backoff a).backoff) =
      policy.step backoff (verdict config a) := by
  unfold iteration verdict stablyClosed permanentlyRejected outcome
  cases hjwt : loadHostJwt config.hostJwtPath a.hostJwt with
  | error e => rfl
  | ok jwt =>
    cases hurl : resolveFluxUrl a.post config.assignmentUrl config.fluxUrl jwt (assignmentRequest config) with
    | error e => simp [hurl, Except.toOption, policy, Backoff.Policy.step, Backoff.Policy.next, nextBackoffAfterDelay]
    | ok url =>
      rcases hserve : connectAndServe config url jwt a.peer with ⟨connection, e | ⟨⟩⟩
      · simp only [hserve, hurl, Except.toOption, Option.bind_eq_bind, Option.bind_some, retryDelayForError]
        cases hpermanent : isPermanentRejection e with
        | true => simp [hpermanent, policy, Backoff.Policy.step, Backoff.Policy.next, nextBackoffAfterDelay]
        | false => simp [hpermanent, policy, Backoff.Policy.step, Backoff.Policy.next, nextBackoffAfterDelay]
      · simp only [hserve, hurl, Except.toOption, Option.bind_eq_bind, Option.bind_some, backoffAfterCleanStreamClose]
        by_cases hstable : stableStreamResetAfter ≤ a.elapsed
        · simp [hstable, policy, Backoff.Policy.step]
        · simp [hstable, policy, Backoff.Policy.step, Backoff.Policy.next, nextBackoffAfterDelay]

private theorem map_delay_loop (backoff : Nat) (attempts : List Attempt) :
    (loop config backoff attempts).map Iteration.delay = policy.waits backoff (attempts.map (verdict config)) := by
  induction attempts generalizing backoff with
  | nil => rfl
  | cons a attempts ih =>
    have hdelay : (iteration config backoff a).delay = _ := congrArg Prod.fst (iteration_step backoff a)
    have hbackoff : (iteration config backoff a).backoff = _ := congrArg Prod.snd (iteration_step backoff a)
    rw [loop, List.map_cons, List.map_cons, Backoff.Policy.waits, hdelay, ih, hbackoff]

/-! ### The waits -/

/-- The attempts since the last stable stream. -/
def sinceStable (config : GrpcConfig) (attempts : List Attempt) : List Attempt :=
  attempts.rtakeWhile fun a => !stablyClosed config a

/-- The wait after an attempt, by the attempts before it: a permanent rejection waits a quarter of an hour, a stable
stream starts over, and everything else doubles the wait of the attempts since then, up to a minute; after a permanent
rejection it is a minute. -/
def delayAfter (config : GrpcConfig) (attempts : List Attempt) (a : Attempt) : Nat :=
  if permanentlyRejected config a then permanentRejectionRetryDelay
  else if stablyClosed config a then initialReconnectBackoff
  else if (sinceStable config attempts).any (permanentlyRejected config) then maxReconnectBackoff
  else min (initialReconnectBackoff * 2 ^ (sinceStable config attempts).length) maxReconnectBackoff

private theorem isReset_verdict (a : Attempt) : (verdict config a).isReset = stablyClosed config a := by
  unfold verdict
  cases stablyClosed config a with
  | true => rfl
  | false => cases permanentlyRejected config a <;> rfl

private theorem rtakeWhile_map {α β : Type} (f : α → β) (p : β → Bool) (l : List α) :
    (l.map f).rtakeWhile p = (l.rtakeWhile (p ∘ f)).map f := by
  rw [List.rtakeWhile, List.rtakeWhile, ← List.map_reverse, List.takeWhile_map, List.map_reverse]

/-- The verdicts since the last reset. -/
private theorem rtakeWhile_verdict (attempts : List Attempt) :
    ((attempts.map (verdict config)).rtakeWhile fun v => !v.isReset) =
      (sinceStable config attempts).map (verdict config) := by
  have hp : ((fun v : Backoff.Verdict => !v.isReset) ∘ verdict config) = fun a => !stablyClosed config a := by
    funext a
    rw [Function.comp_apply, isReset_verdict]
  rw [rtakeWhile_map, hp, sinceStable]

private theorem verdict_eq_failed_iff {attempts : List Attempt} {a : Attempt} (ha : a ∈ sinceStable config attempts) :
    verdict config a = .failed ↔ permanentlyRejected config a = false := by
  have hstable : stablyClosed config a = false := by
    have hmem := List.mem_takeWhile_imp (List.mem_reverse.1 ha)
    simpa using hmem
  unfold verdict
  rw [hstable]
  cases permanentlyRejected config a <;> simp

private theorem held_verdict {wait : Nat} {attempts : List Attempt} (h : .held wait ∈ attempts.map (verdict config)) :
    wait = permanentRejectionRetryDelay := by
  obtain ⟨a, -, ha⟩ := List.mem_map.1 h
  unfold verdict at ha
  split at ha
  · cases ha
  · split at ha
    · exact (Backoff.Verdict.held.inj ha).symm
    · cases ha

private theorem after_verdicts (attempts : List Attempt) :
    policy.after initialReconnectBackoff (attempts.map (verdict config)) =
      if (sinceStable config attempts).any (permanentlyRejected config) then maxReconnectBackoff
      else min (initialReconnectBackoff * 2 ^ (sinceStable config attempts).length) maxReconnectBackoff := by
  have hheld : ∀ wait, .held wait ∈ attempts.map (verdict config) → policy.cap ≤ wait * 2 := by
    intro wait hmem
    rw [held_verdict hmem]
    decide
  have hafter := Backoff.Policy.after_eq (p := policy) hheld
  have hall : ((sinceStable config attempts).map (verdict config)).all (· = .failed) =
      !(sinceStable config attempts).any (permanentlyRejected config) := by
    rw [Bool.eq_iff_iff]
    simp only [List.all_map, List.all_eq_true, Function.comp_apply, decide_eq_true_eq, Bool.not_eq_true',
      List.any_eq_false]
    refine forall₂_congr fun a ha => ?_
    rw [verdict_eq_failed_iff ha, Bool.not_eq_true]
  rw [rtakeWhile_verdict, hall, List.length_map] at hafter
  refine hafter.trans ?_
  cases (sinceStable config attempts).any (permanentlyRejected config) <;> rfl

private theorem delay_after (attempts : List Attempt) (a : Attempt) :
    (policy.step (policy.after initialReconnectBackoff (attempts.map (verdict config))) (verdict config a)).1 =
      delayAfter config attempts a := by
  unfold delayAfter
  cases hpermanent : permanentlyRejected config a with
  | true => simp [verdict, hpermanent, not_stablyClosed_of_permanentlyRejected hpermanent, Backoff.Policy.step]
  | false =>
    cases hstable : stablyClosed config a with
    | true => simp [verdict, hstable, Backoff.Policy.step]
    | false =>
      rw [← after_verdicts]
      simp [verdict, hpermanent, hstable, Backoff.Policy.step]

/-- The wait after an attempt of the loop. -/
private theorem delay_loop (before : List Attempt) (a : Attempt) (rest : List Attempt) :
    ((loop config initialReconnectBackoff (before ++ a :: rest)).map Iteration.delay)[before.length]? =
      some (delayAfter config before a) := by
  have hlength : (before.map (verdict config)).length = before.length := List.length_map _
  rw [map_delay_loop, List.map_append, List.map_cons, ← hlength, Backoff.Policy.waits_getElem?, delay_after]

private theorem initial_le_delay {attempts : List Attempt} {wait : Nat}
    (h : wait ∈ policy.waits initialReconnectBackoff (attempts.map (verdict config))) :
    initialReconnectBackoff ≤ wait := by
  have hheld : Backoff.Policy.HoldsFrom policy.start (attempts.map (verdict config)) := by
    intro wait hmem
    rw [held_verdict hmem]
    decide
  rcases Backoff.Policy.mem_waits (p := policy) Backoff.Policy.within_start hheld h with hwithin | hreset | hheld'
  · exact hwithin.1
  · obtain ⟨a, -, ha⟩ := List.mem_map.1 hreset
    unfold verdict at ha
    split at ha
    · rw [← Backoff.Verdict.reset.inj ha]
    · split at ha <;> cases ha
  · rw [held_verdict hheld']
    decide

/-- Whatever the attempts come to, the wait after each of them is the one that `delayAfter` gives for the attempts before
it, and the loop never makes attempts faster than one a second. -/
theorem reconnect_delays (config : GrpcConfig) :
    (∀ before a rest,
      ((loop config initialReconnectBackoff (before ++ a :: rest)).map Iteration.delay)[before.length]? =
        some (delayAfter config before a)) ∧
    ∀ attempts, 1000 * attempts.length ≤
      ((loop config initialReconnectBackoff attempts).map Iteration.delay).sum := by
  refine ⟨delay_loop, fun attempts => ?_⟩
  have hwait : ∀ wait ∈ policy.waits initialReconnectBackoff (attempts.map (verdict config)), 1000 ≤ wait :=
    fun wait hwait => initial_le_delay hwait
  have hsum := Backoff.Policy.mul_length_le_sum_waits hwait
  rwa [List.length_map, ← map_delay_loop] at hsum

/-! ### The channels -/

private theorem iteration_connection {backoff : Nat} {a : Attempt} {connection : Connection}
    (h : (iteration config backoff a).connection = some connection) :
    loadHostJwt config.hostJwtPath a.hostJwt = .ok connection.jwt ∧
      resolveFluxUrl a.post config.assignmentUrl config.fluxUrl connection.jwt (assignmentRequest config) =
        .ok connection.url ∧
      fluxTlsConfig connection.url config.fluxTlsPinPath a.peer.pin = .ok connection.tls := by
  unfold iteration at h
  cases hjwt : loadHostJwt config.hostJwtPath a.hostJwt with
  | error e =>
    rw [hjwt] at h
    cases h
  | ok jwt =>
    rw [hjwt] at h
    cases hurl : resolveFluxUrl a.post config.assignmentUrl config.fluxUrl jwt (assignmentRequest config) with
    | error e =>
      simp only [hurl] at h
      cases h
    | ok url =>
      have hserve : (connectAndServe config url jwt a.peer).1 = some connection := by
        simp only [hurl] at h
        rcases hconnect : connectAndServe config url jwt a.peer with ⟨c, e | ⟨⟩⟩
        · simpa only [hconnect] using h
        · simpa only [hconnect] using h
      unfold connectAndServe at hserve
      cases hopen : openChannel config url jwt a.peer with
      | error chain =>
        rw [hopen] at hserve
        cases hserve
      | ok c =>
        rw [hopen] at hserve
        obtain rfl := Option.some.inj hserve
        obtain ⟨rfl, rfl, htls⟩ := openChannel_ok hopen
        exact ⟨rfl, hurl, htls⟩

private theorem loop_getElem? {backoff n : Nat} {attempts : List Attempt} {i : Iteration}
    (h : (loop config backoff attempts)[n]? = some i) : ∃ a b, attempts[n]? = some a ∧ i = iteration config b a := by
  induction attempts generalizing backoff n with
  | nil => cases h
  | cons a attempts ih =>
    cases n with
    | zero => exact ⟨a, backoff, rfl, (Option.some.inj h).symm⟩
    | succ n => exact ih h

private theorem loadHostJwt_ok {path : String} {file : HostJwtFile} {jwt : String}
    (h : loadHostJwt path file = .ok jwt) :
    (∃ mode, file.mode = .ok mode ∧ mode &&& 0o777 &&& 0o077 = 0) ∧
      (∃ raw, file.content = .ok raw ∧ jwt = Str.trim raw) ∧ jwt ≠ "" := by
  unfold loadHostJwt at h
  cases hmode : file.mode with
  | error e =>
    rw [hmode] at h
    cases h
  | ok mode =>
    simp only [hmode] at h
    split at h
    · cases h
    · rename_i hperms
      cases hcontent : file.content with
      | error e =>
        rw [hcontent] at h
        cases h
      | ok raw =>
        simp only [hcontent] at h
        split at h
        · cases h
        · rename_i hempty
          obtain rfl := Except.ok.inj h
          exact ⟨⟨mode, rfl, not_not.1 hperms⟩, ⟨raw, rfl, rfl⟩, hempty⟩

/-- What is true of a channel dialed in a round. -/
structure Protected (config : GrpcConfig) (a : Attempt) (connection : Connection) : Prop where
  /-- The token is the one that the file holds in this round, and nobody else may read it. -/
  token : (∃ raw, a.hostJwt.content = .ok raw ∧ connection.jwt = Str.trim raw) ∧ connection.jwt ≠ "" ∧
    ∃ mode, a.hostJwt.mode = .ok mode ∧ mode &&& 0o777 &&& 0o077 = 0
  /-- The URL is the one assigned in this round to the holder of this token, or the configured one. -/
  url : resolveFluxUrl a.post config.assignmentUrl config.fluxUrl connection.jwt (assignmentRequest config) =
    .ok connection.url
  /-- Plaintext is for hosts without a pin and URLs that are not `https`. -/
  plaintext : connection.tls = none → a.peer.pin = .notFound ∧ startsWithHttps connection.url = false
  /-- Else the pin is trusted alone, for the host of the URL up to its first colon, so for all of it if it has none. -/
  pinned : ∀ tls, connection.tls = some tls → a.peer.pin = .bytes tls.caCertificate ∧
    ∀ (scheme : String) (authority : Authority) (rest : String), ':' ∉ scheme.toList → authority.WellFormed →
      nameOfHost authority.host ≠ "" → Str.Trimmed (nameOfHost authority.host) →
      (∀ c l, rest.toList = c :: l → endsAuthority c = true) → connection.url = urlOf scheme authority rest →
      tls.domainName = some (nameOfHost authority.host) ∧
        (tls.domainName = some authority.host ↔ ':' ∉ authority.host.toList)

private theorem protected_of_iteration {backoff : Nat} {a : Attempt} {connection : Connection}
    (h : (iteration config backoff a).connection = some connection) : Protected config a connection := by
  obtain ⟨hjwt, hurl, htls⟩ := iteration_connection h
  obtain ⟨hmode, hraw, hne⟩ := loadHostJwt_ok hjwt
  rcases fluxTlsConfig_ok htls with ⟨hpin, hhttps, hnone⟩ | ⟨pem, hpin, hsome⟩
  · refine ⟨⟨hraw, hne, hmode⟩, hurl, fun _ => ⟨hpin, hhttps⟩, fun tls hsome => ?_⟩
    rw [hnone] at hsome
    cases hsome
  · refine ⟨⟨hraw, hne, hmode⟩, hurl, fun hnone => ?_, fun tls htls' => ?_⟩
    · rw [hnone] at hsome
      cases hsome
    · have htls : tls = ⟨pem, fluxTlsDomain connection.url⟩ := Option.some.inj (htls'.symm.trans hsome)
      have hdomain : tls.domainName = fluxTlsDomain connection.url := by rw [htls]
      refine ⟨by rw [htls]; exact hpin, ?_⟩
      rintro scheme authority rest hscheme hauthority hhost htrim hrest hconnection
      rw [hdomain, hconnection, fluxTlsDomain_urlOf hscheme hauthority hhost htrim hrest]
      refine ⟨rfl, ?_⟩
      rw [Option.some.injEq]
      exact nameOfHost_eq_self_iff

/-- Whatever the token file, the assignment endpoint, the pin file and flux are like from attempt to attempt, a channel
that is dialed in a round of a run is protected in the attempt of that round. -/
theorem connections_protected (config : GrpcConfig) (hostJwt : HostJwtFile) (attempts : List Attempt)
    (iterations : List Iteration) (hrun : run config hostJwt attempts = .looping iterations) (n : Nat)
    (i : Iteration) (hi : iterations[n]? = some i) (connection : Connection)
    (hconnection : i.connection = some connection) :
    ∃ a, attempts[n]? = some a ∧ Protected config a connection := by
  unfold run at hrun
  split at hrun
  · cases hrun
  · cases hjwt : loadHostJwt config.hostJwtPath hostJwt with
    | error e =>
      rw [hjwt] at hrun
      cases hrun
    | ok jwt =>
      rw [hjwt] at hrun
      obtain rfl := Run.looping.inj hrun
      obtain ⟨a, backoff, ha, rfl⟩ := loop_getElem? hi
      exact ⟨a, ha, protected_of_iteration hconnection⟩

end Loop

def sampleConfig : GrpcConfig where
  hostMgmtIp := "100.64.0.5"
  version := "1.0.0"
  grpcDisabled := false
  fluxUrl := some "HTTPS://flux.example.com:6443/agent"
  assignmentUrl := none
  hostJwtPath := "/etc/coolify/host-jwt"
  fluxTlsPinPath := "/etc/coolify/flux.pin"

/-- A stream that is refused once the channel is dialed. -/
def sampleAttempt (pin : PinFile) (code : Code) : Attempt where
  hostJwt := ⟨.ok 0o100600, .ok " a.b.c\n"⟩
  post _ _ _ := .error "connection refused"
  peer := ⟨fun _ => .ok (), pin, fun _ => .ok (), fun _ => .error [none, some code]⟩
  elapsed := 20

/-- With a pin in the second attempt only, the second attempt is the first that dials. -/
theorem connections_protected_pinned : ∃ a,
    [sampleAttempt .notFound .unavailable, sampleAttempt (.bytes [1]) .unavailable][1]? = some a ∧
      Protected sampleConfig a
        ⟨"HTTPS://flux.example.com:6443/agent", "a.b.c", some ⟨[1], some "flux.example.com"⟩⟩ := by
  have hdomain : fluxTlsDomain "HTTPS://flux.example.com:6443/agent" = some "flux.example.com" := by decide
  refine connections_protected sampleConfig ⟨.ok 0o600, .ok "a.b.c"⟩ _ _ rfl 1 _ rfl _ ?_
  rw [← hdomain]
  rfl

example : ((loop sampleConfig 1000 (List.replicate 3 (sampleAttempt (.bytes [1]) .unavailable) ++
    [sampleAttempt (.bytes [1]) .unauthenticated, sampleAttempt .notFound .ok])).map Iteration.delay) =
      [1000, 2000, 4000, 900000, 60000] := by decide

end Coold.Agent.Reconnect
