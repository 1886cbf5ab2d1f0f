import Coold.Agent.Serve
import Coold.Flux.Routing

/-!
# Flux and coold agree on commands

Flux names a command by the capability that it needs, coold by the type that it logs, and a response by the type of its
body.  These are the same names on both sides: what flux routes coold advertises (`routeCoold_advertised`), and what
comes back for a dispatched command is of the command's kind, or an error, and can be converted for Laravel
(`dispatches_answered`).
-/

namespace Coold.Flux

open Coold.Agent Coold.Agent.Serve

private theorem commandType_toCommand (c : CommandPayload) :
    Handlers.commandType c.toCommand = requiredCapability c := by
  cases c <;> rfl

private theorem toCommand_ne_ping (c : CommandPayload) : c.toCommand ≠ .ping := by
  cases c <;> exact fun h => by cases h

/-- Every capability that flux asks for is one that coold advertises. -/
private theorem requiredCapability_mem (c : CommandPayload) : requiredCapability c ∈ primitiveCapabilities := by
  cases c <;> simp [requiredCapability, primitiveCapabilities]

/-- Flux never says of a host whose stream has the capabilities of this coold that it does not support a command. -/
theorem routeCoold_advertised {streams : Streams} {env : DispatchEnvelope} {handle : StreamHandle}
    (hget : streams.get env.hostId = some handle) (hadvertised : handle.advertisedCaps = primitiveCapabilities) :
    routeCoold streams env = .sendCoold env.hostId ⟨env.requestId, some env.command.toCommand⟩ ∨
      routeCoold streams env =
        .pushError 403 ("capability " ++ requiredCapability env.command ++ " is not authorized for this host token") := by
  have hmem := requiredCapability_mem env.command
  simp only [routeCoold, hget, hadvertised, hmem, if_true]
  split
  · exact Or.inr rfl
  · exact Or.inl rfl

/-- The messages that flux sends to a host: pings, and what it routes there. -/
def FromFlux (hostId : String) (msg : ServerMsg) : Prop :=
  msg.command = some .ping ∨ ∃ streams env, routeCoold streams env = .sendCoold hostId msg

/-- The response is for the dispatch, and what Laravel gets is data of the command's kind, or an error of coold. -/
structure Delivers (fromStr : String → Option Json.Value) (env : DispatchEnvelope) (response : Response) : Prop where
  requestId : response.requestId = env.requestId
  kind : Handlers.responseBodyType response.body = requiredCapability env.command ∨
    ∃ message, response.body = some (.error 500 message)
  converts : ∃ body, ResponseBody.tryFromProto fromStr response = some body ∧
    ((∃ message, body = .error 500 message) → ∃ message, response.body = some (.error 500 message))

/-- Only an error is converted to an error. -/
private theorem tryFromProto_error {fromStr : String → Option Json.Value} {response : Response} {code : Nat}
    {message : String}
    (hbody : response.body ≠ none) (h : ResponseBody.tryFromProto fromStr response = some (.error code message)) :
    response.body = some (.error code message) := by
  obtain ⟨requestId, body⟩ := response
  cases body with
  | none => exact absurd rfl hbody
  | some body =>
    cases body with
    | error code' message' =>
      obtain ⟨rfl, rfl⟩ := ResponseBody.error.inj (Option.some.inj h)
      rfl
    | _ => cases h

private theorem delivers_of_replies {fromStr : String → Option Json.Value} {env : DispatchEnvelope}
    {response : Response}
    (h : Replies ⟨env.requestId, env.command.toCommand⟩ response) : Delivers fromStr env response := by
  obtain ⟨hid, body, hbody, hanswers⟩ := h
  have hkind : Handlers.responseBodyType response.body = requiredCapability env.command ∨
      ∃ message, response.body = some (.error 500 message) := by
    rw [hbody, ← commandType_toCommand]
    rcases hanswers with htype | ⟨message, rfl⟩
    · exact Or.inl htype
    · exact Or.inr ⟨message, rfl⟩
  obtain ⟨converted, hconverted⟩ := Option.isSome_iff_exists.1 (ResponseBody.isSome_tryFromProto fromStr response)
  refine ⟨hid, hkind, converted, hconverted, ?_⟩
  rintro ⟨message, rfl⟩
  exact ⟨message, tryFromProto_error (by simp [hbody]) hconverted⟩

/-- The task of a dispatched command. -/
def taskOfEnvelope (env : DispatchEnvelope) : Task := ⟨env.requestId, env.command.toCommand⟩

private theorem exists_envelope {hostId : String} {msgs : List ServerMsg} (h : ∀ msg ∈ msgs, FromFlux hostId msg)
    {task : Task}
    (htask : task ∈ commandsOf msgs) : ∃ env : DispatchEnvelope, env.hostId = hostId ∧ taskOfEnvelope env = task := by
  obtain ⟨msg, hmsg, htask⟩ := List.mem_filterMap.1 htask
  rcases h msg hmsg with hping | ⟨streams, env, hroute⟩
  · rw [taskOf, hping] at htask
    cases htask
  · obtain ⟨rfl, rfl, -⟩ := routeCoold_eq_sendCoold hroute
    have hne := toCommand_ne_ping env.command
    refine ⟨env, rfl, ?_⟩
    unfold taskOf at htask
    split at htask
    · cases htask
    · rename_i hping
      exact absurd (Option.some.inj hping) hne
    · rename_i command hcommand
      obtain rfl := Option.some.inj hcommand
      exact Option.some.inj htask

private theorem exists_map_eq {α γ : Type} {f : γ → α} {s : Multiset α} (h : ∀ a ∈ s, ∃ c, f c = a) :
    ∃ t : Multiset γ, t.map f = s := by
  induction s using Multiset.induction_on with
  | empty => exact ⟨0, rfl⟩
  | cons a s ih =>
    obtain ⟨c, rfl⟩ := h a (Multiset.mem_cons_self a s)
    obtain ⟨t, rfl⟩ := ih fun b hb => h b (Multiset.mem_cons_of_mem hb)
    exact ⟨c ::ₘ t, Multiset.map_cons f c t⟩

/-- When everything that a host receives comes from flux, then after any run of the host the responses that its stream
has taken belong one to one to dispatches for this host, with their request ids and with bodies that are converted; when
nothing is on its way and nothing was lost, all dispatches are answered. -/
theorem dispatches_answered (config : GrpcConfig) (labels : List Label) (s : State)
    (hrun : Lts.run step (init config) labels = some s) (hostId : String)
    (hflux : ∀ msg ∈ s.received, FromFlux hostId msg) (fromStr : String → Option Json.Value) :
    ∃ dispatches : Multiset DispatchEnvelope, (∀ env ∈ dispatches, env.hostId = hostId) ∧
      dispatches.map taskOfEnvelope ≤ ↑(commandsOf s.received) ∧
      Multiset.Rel (Delivers fromStr) dispatches ↑(responsesOf s.sent) ∧
      (s.Quiet → dispatches.map taskOfEnvelope = ↑(commandsOf s.received)) := by
  obtain ⟨answered, hle, hrel, hquiet⟩ := (served_of_run hrun).answered
  have henvelope : ∀ task ∈ answered, ∃ env : {env : DispatchEnvelope // env.hostId = hostId},
      taskOfEnvelope env.1 = task := by
    intro task htask
    have hmem : task ∈ commandsOf s.received := Multiset.mem_coe.1 (Multiset.mem_of_le hle htask)
    obtain ⟨env, hhost, henv⟩ := exists_envelope hflux hmem
    exact ⟨⟨env, hhost⟩, henv⟩
  obtain ⟨envs, rfl⟩ := exists_map_eq henvelope
  have hmap : (envs.map Subtype.val).map taskOfEnvelope = envs.map fun env => taskOfEnvelope env.1 :=
    Multiset.map_map taskOfEnvelope Subtype.val envs
  refine ⟨envs.map Subtype.val, fun env henv => ?_, hmap ▸ hle, ?_, fun h => hmap.trans (hquiet h)⟩
  · obtain ⟨env, -, rfl⟩ := Multiset.mem_map.1 henv
    exact env.2
  · rw [Multiset.rel_map_left] at hrel ⊢
    exact hrel.mono fun env _ response _ h => delivers_of_replies h

/-- A host whose stream may do everything. -/
def sampleStreams : Streams := Streams.new.insert "100.64.0.5" ⟨0, primitiveCapabilities, primitiveCapabilities⟩ 0

/-- Two dispatches, of which the second is answered first. -/
theorem dispatches_answered_both : ∃ dispatches : Multiset DispatchEnvelope,
    (∀ env ∈ dispatches, env.hostId = "100.64.0.5") ∧
      dispatches.map taskOfEnvelope ≤ ↑[(⟨"a", .imagesList⟩ : Task), ⟨"b", .containersList⟩] ∧
      Multiset.Rel (Delivers fun _ => none) dispatches
        ↑[(⟨"b", some (.error 500 "")⟩ : Response), ⟨"a", some (.error 500 "")⟩] ∧
      (sampleEnd.Quiet → dispatches.map taskOfEnvelope = ↑[(⟨"a", .imagesList⟩ : Task), ⟨"b", .containersList⟩]) := by
  refine dispatches_answered sampleConfig sampleLabels sampleEnd rfl "100.64.0.5" (fun msg hmsg => ?_) fun _ => none
  have hcases : msg = ⟨"a", some .imagesList⟩ ∨ msg = ⟨"b", some .containersList⟩ ∨ msg = ⟨"p", some .ping⟩ := by
    simpa [sampleEnd] using hmsg
  rcases hcases with rfl | rfl | rfl
  · exact Or.inr ⟨sampleStreams, ⟨"100.64.0.5", "a", .imagesList⟩, by decide⟩
  · exact Or.inr ⟨sampleStreams, ⟨"100.64.0.5", "b", .containersList⟩, by decide⟩
  · exact Or.inl rfl

end Coold.Flux
