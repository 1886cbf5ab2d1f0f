import Coold.Flux.GrpcServer

/-!
# What is published, step by step

An update reaches Laravel in two ways: a step spawns a publish task that posts it later (`spawned`), or the step posts
it itself (`reported`).  The spawned tasks wait in the order in which they were spawned, and any of them may be the
next to complete.
-/

namespace Coold.Flux

/-- The publisher has an endpoint and a token. -/
def ResourceStatusPublisher.Enabled (p : ResourceStatusPublisher) : Prop :=
  p.endpointUrl.isSome = true ∧ p.token.isSome = true

instance (p : ResourceStatusPublisher) : Decidable p.Enabled :=
  inferInstanceAs (Decidable (p.endpointUrl.isSome = true ∧ p.token.isSome = true))

private theorem ResourceStatusPublisher.publish_of_enabled {p : ResourceStatusPublisher} (h : p.Enabled)
    (update : ResourceStatusUpdate) : p.publish update = some (resourceStatusPayload update) := by
  obtain ⟨url, hurl⟩ := Option.isSome_iff_exists.1 h.1
  obtain ⟨token, htoken⟩ := Option.isSome_iff_exists.1 h.2
  simp [publish, hurl, htoken]

namespace GrpcSys

/-- The publish tasks that a step spawns. -/
def spawned (s : GrpcSys) : GrpcOp → List PublishTask
  | .connect a _ =>
    [⟨cooldStatusUpdate a.hostId "installed" "coold stream connected.", .connected s.tasks.length, false⟩]
  | .statusUpdate i update => if 0 < s.permits then [⟨update, .message i, true⟩] else []
  | .pong i now =>
    match s.tasks[i]? with
    | some t =>
      if (s.streams.touch t.hostId now).1 = true ∧ 0 < s.permits then
        [⟨cooldStatusUpdate t.hostId "installed" "coold heartbeat restored.", .message i, true⟩]
      else []
    | none => []
  | _ => []

/-- The updates that a step posts itself. -/
def reported (s : GrpcSys) : GrpcOp → List (ResourceStatusUpdate × Origin)
  | .reportExit i =>
    match s.tasks[i]? with
    | some t => [(cooldStatusUpdate t.hostId "unreachable" "coold stream disconnected.", .disconnected i)]
    | none => []
  | .reportStale =>
    match s.heartbeat with
    | .reporting (hostId :: _) => [(cooldStatusUpdate hostId "unreachable" "coold heartbeat timed out.", .stale)]
    | _ => []
  | _ => []

/-- What is posted for a list of updates. -/
def posts (cfg : GrpcConfig) (l : List (ResourceStatusUpdate × Origin)) : List (ResourceStatusPayload × Origin) :=
  l.filterMap fun x => (cfg.publisher.publish x.1).map fun payload => (payload, x.2)

variable {cfg : GrpcConfig} {s s' : GrpcSys} {a : GrpcOp}

theorem posts_of_enabled (h : cfg.publisher.Enabled) (l : List (ResourceStatusUpdate × Origin)) :
    posts cfg l = l.map fun x => (resourceStatusPayload x.1, x.2) := by
  simp [posts, ResourceStatusPublisher.publish_of_enabled h]

private theorem posted_post (s : GrpcSys) (u : ResourceStatusUpdate) (o : Origin) :
    (s.post cfg.publisher u o).posted = s.posted ++ posts cfg [(u, o)] := by
  simp only [post, posts, List.filterMap_cons, List.filterMap_nil]
  cases cfg.publisher.publish u <;> rfl

private theorem publishing_spawnBoundedPublish (s : GrpcSys) (u : ResourceStatusUpdate) (o : Origin) :
    (s.spawnBoundedPublish u o).publishing = s.publishing ++ if 0 < s.permits then [⟨u, o, true⟩] else [] := by
  unfold spawnBoundedPublish
  split <;> simp

private theorem posted_spawnBoundedPublish (s : GrpcSys) (u : ResourceStatusUpdate) (o : Origin) :
    (s.spawnBoundedPublish u o).posted = s.posted := by
  unfold spawnBoundedPublish
  split <;> rfl

/-- A step that completes no publish task appends what it spawns to the tasks and what it reports to the posts. -/
theorem published_step (h : s.step cfg a = some s') (hk : ∀ k, a ≠ .publish k) :
    s'.publishing = s.publishing ++ s.spawned a ∧ s'.posted = s.posted ++ posts cfg (s.reported a) := by
  have hsame : s'.publishing = s.publishing → s'.posted = s.posted → s.spawned a = [] → s.reported a = [] →
      s'.publishing = s.publishing ++ s.spawned a ∧ s'.posted = s.posted ++ posts cfg (s.reported a) := by
    intro hp hs hsp hre
    rw [hp, hs, hsp, hre]
    exact ⟨(List.append_nil _).symm, (List.append_nil _).symm⟩
  cases a with
  | connect ad now =>
    obtain rfl := Option.some.inj h
    exact ⟨rfl, (List.append_nil _).symm⟩
  | statusUpdate i update =>
    obtain ⟨t, -, rfl⟩ := Option.map_eq_some_iff.1 h
    refine ⟨publishing_spawnBoundedPublish s update (.message i), ?_⟩
    rw [posted_spawnBoundedPublish]
    exact (List.append_nil _).symm
  | pong i now =>
    obtain ⟨t, ht, rfl⟩ := Option.map_eq_some_iff.1 h
    obtain ⟨ht, -⟩ := taskAt_eq_some.1 ht
    -- a pong is reported only when it restores the host
    simp only [spawned, ht, pong]
    by_cases hres : (s.streams.touch t.hostId now).1 = true
    · simp only [hres, if_true, true_and]
      rw [publishing_spawnBoundedPublish, posted_spawnBoundedPublish]
      exact ⟨rfl, (List.append_nil _).symm⟩
    · simp only [hres, if_false, false_and, Bool.false_eq_true]
      exact ⟨(List.append_nil _).symm, (List.append_nil _).symm⟩
  | reportExit i =>
    obtain ⟨t, ht, rfl⟩ := Option.map_eq_some_iff.1 h
    obtain ⟨ht, -⟩ := taskAt_eq_some.1 ht
    refine ⟨(List.append_nil _).symm, ?_⟩
    rw [posted_post]
    simp only [reported, ht]
    rfl
  | publish k => exact absurd rfl (hk k)
  | reportStale =>
    simp only [step] at h
    split at h
    · rename_i hostId hostIds hb
      obtain rfl := Option.some.inj h
      refine ⟨(List.append_nil _).symm, ?_⟩
      rw [posted_post]
      simp only [reported, hb]
    · cases h
  | hold i resp gen | ignore i | leave i | remove i | take i | closeRx i =>
    obtain ⟨t, -, rfl⟩ := Option.map_eq_some_iff.1 h
    exact hsame rfl rfl rfl rfl
  | release i | enqueue i msg | tick now | pingTargets | sleep =>
    simp only [step] at h
    split at h
    · obtain rfl := Option.some.inj h
      exact hsame rfl rfl rfl rfl
    · cases h
  | ping requestId =>
    simp only [step] at h
    split at h
    · split at h
      · obtain rfl := Option.some.inj h
        exact hsame rfl rfl rfl rfl
      · obtain rfl := Option.some.inj h
        exact hsame rfl rfl rfl rfl
      · cases h
    · cases h

/-- A publish task that completes posts its update. -/
theorem publish_step {k : Nat} (h : s.step cfg (.publish k) = some s') :
    ∃ before p after, s.publishing = before ++ p :: after ∧ before.length = k ∧
      s'.publishing = before ++ after ∧ s'.posted = s.posted ++ posts cfg [(p.update, p.origin)] ∧
      s'.streams = s.streams ∧ s'.tasks = s.tasks ∧ s'.heartbeat = s.heartbeat := by
  obtain ⟨p, hp, rfl⟩ := Option.map_eq_some_iff.1 h
  obtain ⟨hk, rfl⟩ := List.getElem?_eq_some_iff.1 hp
  refine ⟨s.publishing.take k, s.publishing[k], s.publishing.drop (k + 1), ?_, ?_, ?_, ?_, rfl, rfl, rfl⟩
  · rw [List.getElem_cons_drop, List.take_append_drop]
  · rw [List.length_take, min_eq_left hk.le]
  · exact List.eraseIdx_eq_take_drop_succ _ _
  · exact posted_post _ _ _

end GrpcSys

end Coold.Flux
