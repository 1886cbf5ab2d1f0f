import Coold.Flux.Publishing

/-!
# Runs of the gRPC server

Two properties of every interleaving of stream tasks, publish tasks and heartbeat.

The stream map should hold the handle of the stream that was accepted last for a host, as long as that stream has
not exited (`RegistryOk`).  Since a task removes its host by name, this fails exactly when an older stream of the
host exits after a newer one was accepted (`NoLateExit`).

What is published because of a message on a stream should be about the host of that stream (`OriginOk`).  A status
update is forwarded as it was received, so this fails exactly when an update that names another host gets a permit
(`NamesOwnHost`).
-/

namespace Coold.Flux.GrpcSys

open Lts

variable {cfg : GrpcConfig} {s s' : GrpcSys} {a : GrpcOp}

/-! ### The stream map -/

/-- The stream that was accepted last for its host. -/
def Latest (s : GrpcSys) (i : Nat) (t : StreamTask) : Prop :=
  s.tasks[i]? = some t ∧ ∀ j t', s.tasks[j]? = some t' → t'.hostId = t.hostId → j ≤ i

/-- A host whose latest stream has not exited is registered with the handle of that stream. -/
def RegistryOk (s : GrpcSys) : Prop :=
  ∀ i t, s.Latest i t → t.exited = false → s.streams.get t.hostId = some ⟨i, t.caps, t.advertisedCaps⟩

/-- A stream that removes its host is the latest one of the host, or the latest one has exited before. -/
def NoLateExit (s : GrpcSys) : GrpcOp → Prop
  | .remove i => ∀ t j t', s.tasks[i]? = some t → s.Latest j t' → t'.hostId = t.hostId → j = i ∨ t'.exited = true
  | _ => True

private theorem registryOk_connect (h : s.RegistryOk) (ad : Admission) (now : Nat) :
    (s.connect ad now).RegistryOk := by
  intro i t hlatest hexit
  obtain ⟨ht, hmax⟩ := hlatest
  have hnew : (s.tasks ++ [StreamTask.new ad])[s.tasks.length]? = some (.new ad) := by simp
  simp only [connect, Streams.get_insert] at ht hmax ⊢
  by_cases hhost : t.hostId = ad.hostId
  · -- the new stream is the latest one of its host
    have hge : s.tasks.length ≤ i := hmax _ _ hnew hhost.symm
    have hlt : i < s.tasks.length + 1 := by
      have := (List.getElem?_eq_some_iff.1 ht).1
      simpa using this
    obtain rfl : i = s.tasks.length := by omega
    rw [hnew, Option.some.injEq] at ht
    rw [if_pos hhost, ← ht]
    rfl
  · rw [if_neg hhost]
    have hlt : i < s.tasks.length := by
      by_contra hge
      have hi := (List.getElem?_eq_some_iff.1 ht).1
      obtain rfl : i = s.tasks.length := by
        simp only [List.length_append, List.length_singleton] at hi
        omega
      rw [hnew, Option.some.injEq] at ht
      exact hhost (ht ▸ rfl)
    rw [List.getElem?_append_left hlt] at ht
    refine h i t ⟨ht, fun j t' ht' hh => ?_⟩ hexit
    refine hmax j t' ?_ hh
    rw [List.getElem?_append_left (List.getElem?_eq_some_iff.1 ht').1, ht']

private theorem registryOk_quiet (hq : Quiet a s s') : s'.RegistryOk ↔ s.RegistryOk := by
  constructor
  · intro h i t hlatest hexit
    obtain ⟨t', ht', hstep⟩ := hq.task i t hlatest.1
    obtain ⟨hhost, hcaps, hadv, hex⟩ := hstep.identity
    have hlatest' : s'.Latest i t' := by
      refine ⟨ht', fun j u' hu' hh => ?_⟩
      obtain ⟨u, hu, hustep⟩ := hq.task' j u' hu'
      exact hlatest.2 j u hu (by rw [← hustep.identity.1, hh, hhost])
    have := h i t' hlatest' (hex.trans hexit)
    rwa [hq.get, hhost, hcaps, hadv] at this
  · intro h i t' hlatest hexit
    obtain ⟨t, ht, hstep⟩ := hq.task' i t' hlatest.1
    obtain ⟨hhost, hcaps, hadv, hex⟩ := hstep.identity
    have hlatest' : s.Latest i t := by
      refine ⟨ht, fun j u hu hh => ?_⟩
      obtain ⟨u', hu', hustep⟩ := hq.task j u hu
      exact hlatest.2 j u' hu' (by rw [hustep.identity.1, hh, hhost])
    rw [hq.get, hhost, hcaps, hadv]
    exact h i t hlatest' (hex.symm.trans hexit)

private theorem registryOk_remove {i : Nat} {t : StreamTask} (h : s.RegistryOk) (ht : s.tasks[i]? = some t) :
    ({ s with streams := s.streams.remove t.hostId }.setPhase i .removed).RegistryOk ↔ s.NoLateExit (.remove i) := by
  have htask : ∀ j, ({ s with streams := s.streams.remove t.hostId }.setPhase i .removed).tasks[j]? =
      s.tasks[j]?.map fun u => if i = j then { u with phase := .removed } else u :=
    fun j => getElem?_tasks_modifyTask _ i j _
  have hget : ∀ h, ({ s with streams := s.streams.remove t.hostId }.setPhase i .removed).streams.get h =
      if h = t.hostId then none else s.streams.get h :=
    fun h => Streams.get_remove s.streams t.hostId h
  -- the hosts of the tasks do not change, so neither do the latest streams
  have hlatest : ∀ j u, j ≠ i →
      (({ s with streams := s.streams.remove t.hostId }.setPhase i .removed).Latest j u ↔ s.Latest j u) := by
    intro j u hj
    unfold Latest
    rw [htask j]
    simp only [if_neg (Ne.symm hj), Option.map_id_fun', id_eq]
    refine and_congr_right fun _ => ⟨fun hmax k v hv hh => ?_, fun hmax k v hv hh => ?_⟩
    · refine hmax k (if i = k then { v with phase := .removed } else v) ?_ ?_
      · rw [htask k, hv]
        rfl
      · split <;> exact hh
    · rw [htask k] at hv
      obtain ⟨w, hw, rfl⟩ := Option.map_eq_some_iff.1 hv
      refine hmax k w hw ?_
      split at hh <;> exact hh
  constructor
  · intro h' t₁ j u ht₁ hu hhost
    obtain rfl := Option.some.inj (ht.symm.trans ht₁)
    by_contra hnot
    obtain ⟨hj, hexit⟩ := not_or.1 hnot
    have := h' j u ((hlatest j u hj).2 hu) (by simpa using hexit)
    rw [hget, if_pos hhost] at this
    cases this
  · intro hlate j u hu hexit
    have hj : j ≠ i := by
      rintro rfl
      have := hu.1
      rw [htask j, ht] at this
      simp only [if_true, Option.map_some, Option.some.injEq] at this
      rw [← this] at hexit
      cases hexit
    have hu' := (hlatest j u hj).1 hu
    rw [hget]
    split
    · rename_i hhost
      rcases hlate t j u ht hu' hhost with hji | hex
      · exact absurd hji hj
      · rw [hexit] at hex
        cases hex
    · exact h j u hu' hexit

/-- Over every interleaving, the stream map holds the handle of the latest live stream of every host in every state
of a run exactly when no stream of the run removes its host after a newer stream of the host was accepted that has
not exited. -/
theorem registryOk_iff (cfg : GrpcConfig) (tr : List GrpcOp) (s : GrpcSys)
    (hr : run (step cfg) init tr = some s) :
    Always (step cfg) RegistryOk init tr ↔ Along (step cfg) NoLateExit init tr := by
  refine always_iff_along_of_step ?_ ?_ hr
  · intro s a s' hQ hs
    rcases step_cases hs with ⟨ad, now, rfl, rfl⟩ | ⟨i, t, rfl, ht, -, rfl⟩ | ⟨hne, hquiet⟩
    · exact iff_of_true (registryOk_connect hQ ad now) trivial
    · exact registryOk_remove hQ ht
    · have hP : s.NoLateExit a := by
        cases a with
        | remove i => exact absurd rfl (hne i)
        | _ => trivial
      exact iff_of_true ((registryOk_quiet hquiet).2 hQ) hP
  · intro i t hlatest
    have := hlatest.1
    simp [init] at this

/-- Two streams of one host, the second one with fewer capabilities. -/
def firstStream : Admission :=
  ⟨"100.64.0.5", ["containers.list", "coold.logs"], ["containers.list", "coold.logs"], 1000⟩

def secondStream : Admission := ⟨"100.64.0.5", ["coold.logs"], ["containers.list", "coold.logs"], 2000⟩

def quietConfig : GrpcConfig := ⟨⟨none, none⟩, 45⟩

/-- A host that reconnects after its first stream has exited is registered. -/
theorem reconnect_after_exit_registered :
    ∃ s, run (step quietConfig) init [.connect firstStream 0, .leave 0, .remove 0, .connect secondStream 5] = some s ∧
      Always (step quietConfig) RegistryOk init
        [.connect firstStream 0, .leave 0, .remove 0, .connect secondStream 5] := by
  refine ⟨_, rfl, (registryOk_iff quietConfig _ _ rfl).2 ?_⟩
  refine ⟨trivial, fun s₁ h₁ => ⟨trivial, fun s₂ h₂ => ⟨?_, fun _ _ => ⟨trivial, fun _ _ => trivial⟩⟩⟩⟩
  obtain rfl := Option.some.inj h₁
  obtain rfl := Option.some.inj h₂
  intro t j t' _ hj _
  have hlt := (List.getElem?_eq_some_iff.1 hj.1).1
  simp only [setPhase, modifyTask, connect, init, List.nil_append, List.length_modify, List.length_singleton] at hlt
  exact Or.inl (by omega)

/-- The first stream of a host ends, the host reconnects, and then the task of the first stream removes the host:
the second stream is running and the host is not registered. -/
theorem late_exit_unregisters :
    ∃ s, run (step quietConfig) init [.connect firstStream 0, .leave 0, .connect secondStream 5, .remove 0] = some s ∧
      s.Latest 1 (.new secondStream) ∧ (StreamTask.new secondStream).exited = false ∧
      s.streams.get "100.64.0.5" = none := by
  refine ⟨_, rfl, ⟨rfl, fun j t' hj _ => ?_⟩, rfl, rfl⟩
  have hlt := (List.getElem?_eq_some_iff.1 hj).1
  simp only [setPhase, modifyTask, connect, init, List.nil_append, List.length_modify, List.length_append,
    List.length_singleton] at hlt
  omega

/-! ### What is published because of a message -/

/-- What has been posted, and what the spawned tasks will post. -/
def outgoing (cfg : GrpcConfig) (s : GrpcSys) : List (ResourceStatusPayload × Origin) :=
  s.posted ++ s.publishing.filterMap fun p => (cfg.publisher.publish p.update).map fun payload => (payload, p.origin)

/-- The updates that a step issues. -/
def issues (s : GrpcSys) : GrpcOp → List (ResourceStatusUpdate × Origin)
  | .connect a _ =>
    [(cooldStatusUpdate a.hostId "installed" "coold stream connected.", .connected s.tasks.length)]
  | .statusUpdate i update => if 0 < s.permits then [(update, .message i)] else []
  | .pong i now =>
    match s.tasks[i]? with
    | some t =>
      if (s.streams.touch t.hostId now).1 = true ∧ 0 < s.permits then
        [(cooldStatusUpdate t.hostId "installed" "coold heartbeat restored.", .message i)]
      else []
    | none => []
  | .reportExit i =>
    match s.tasks[i]? with
    | some t => [(cooldStatusUpdate t.hostId "unreachable" "coold stream disconnected.", .disconnected i)]
    | none => []
  | .reportStale =>
    match s.heartbeat with
    | .reporting (hostId :: _) => [(cooldStatusUpdate hostId "unreachable" "coold heartbeat timed out.", .stale)]
    | _ => []
  | _ => []

/-- The payload of an update that is issued with the given origin. -/
private def Issued (cfg : GrpcConfig) (l : List (ResourceStatusUpdate × Origin))
    (x : ResourceStatusPayload × Origin) :
    Prop :=
  ∃ u, (u, x.2) ∈ l ∧ cfg.publisher.publish u = some x.1

/-- A step issues what it reports and what the tasks that it spawns will report. -/
theorem issues_eq (s : GrpcSys) (a : GrpcOp) :
    s.issues a = s.reported a ++ (s.spawned a).map fun p => (p.update, p.origin) := by
  cases a with
  | statusUpdate i update =>
    simp only [issues, reported, spawned]
    split <;> rfl
  | pong i now =>
    simp only [issues, reported, spawned]
    cases s.tasks[i]? with
    | none => rfl
    | some t =>
      simp only
      split <;> rfl
  | reportExit i => exact (List.append_nil _).symm
  | reportStale => exact (List.append_nil _).symm
  | _ => rfl

private theorem mem_posts {l : List (ResourceStatusUpdate × Origin)} {x : ResourceStatusPayload × Origin} :
    x ∈ posts cfg l ↔ Issued cfg l x := by
  obtain ⟨payload, o⟩ := x
  simp only [posts, Issued, List.mem_filterMap, Option.map_eq_some_iff, Prod.mk.injEq, Prod.exists]
  constructor
  · rintro ⟨u, o', hmem, payload', hpub, rfl, rfl⟩
    exact ⟨u, hmem, hpub⟩
  · rintro ⟨u, hmem, hpub⟩
    exact ⟨u, o, hmem, payload, hpub, rfl, rfl⟩

private theorem outgoing_eq (s : GrpcSys) :
    s.outgoing cfg = s.posted ++ posts cfg (s.publishing.map fun p => (p.update, p.origin)) := by
  rw [outgoing, posts, List.filterMap_map]
  rfl

private theorem issued_append {l l' : List (ResourceStatusUpdate × Origin)} {x : ResourceStatusPayload × Origin} :
    Issued cfg (l ++ l') x ↔ Issued cfg l x ∨ Issued cfg l' x := by
  simp only [Issued, List.mem_append, or_and_right, exists_or]

/-- A step adds to what is going out exactly what it issues. -/
private theorem mem_outgoing_step (h : s.step cfg a = some s') {x : ResourceStatusPayload × Origin} :
    x ∈ s'.outgoing cfg ↔ x ∈ s.outgoing cfg ∨ Issued cfg (s.issues a) x := by
  rw [outgoing_eq, outgoing_eq, issues_eq]
  by_cases hk : ∃ k, a = .publish k
  · -- the update of the task that completes is posted instead of pending
    obtain ⟨k, rfl⟩ := hk
    obtain ⟨before, p, after, hp, -, hp', hpost, -⟩ := publish_step h
    have hnone : ¬ Issued cfg [] x := fun ⟨_, hu, _⟩ => absurd hu List.not_mem_nil
    rw [hp, hp', hpost, show s.reported (.publish k) ++ (s.spawned (.publish k)).map _ = [] from rfl,
      or_iff_left hnone]
    simp only [List.map_append, List.map_cons, List.mem_append, mem_posts, issued_append,
      ← List.singleton_append (l := after.map _)]
    tauto
  · obtain ⟨hp, hpost⟩ := published_step h fun k hk' => hk ⟨k, hk'⟩
    rw [hp, hpost]
    simp only [List.map_append, List.mem_append, mem_posts, issued_append]
    tauto

/-- What goes out because of a message on a stream is about the host of the stream. -/
def OriginOk (cfg : GrpcConfig) (s : GrpcSys) : Prop :=
  ∀ payload i, (payload, .message i) ∈ s.outgoing cfg → ∃ t, s.tasks[i]? = some t ∧ payload.hostId = t.hostId

/-- A status update that gets a permit, where anything is published at all, names the host of its stream. -/
def NamesOwnHost (cfg : GrpcConfig) (s : GrpcSys) : GrpcOp → Prop
  | .statusUpdate i update => 0 < s.permits → (cfg.publisher.publish update).isSome →
      ∃ t, s.tasks[i]? = some t ∧ update.hostId = t.hostId
  | _ => True

/-- The updates of a step that a message on a stream causes are about its host, if the step is not a forwarded
update for another one. -/
private theorem issues_ownHost {i : Nat} {u : ResourceStatusUpdate} (hP : s.NamesOwnHost cfg a)
    (hu : (u, .message i) ∈ s.issues a) (hpub : (cfg.publisher.publish u).isSome) :
    ∃ t, s.tasks[i]? = some t ∧ u.hostId = t.hostId := by
  cases a with
  | statusUpdate j update =>
    simp only [issues] at hu
    split at hu
    · rename_i hpermit
      simp only [List.mem_singleton, Prod.mk.injEq, Origin.message.injEq] at hu
      obtain ⟨rfl, rfl⟩ := hu
      exact hP hpermit hpub
    · cases hu
  | pong j now =>
    simp only [issues] at hu
    split at hu
    · rename_i t ht
      split at hu
      · simp only [List.mem_singleton, Prod.mk.injEq, Origin.message.injEq] at hu
        obtain ⟨rfl, rfl⟩ := hu
        exact ⟨t, ht, rfl⟩
      · cases hu
    · cases hu
  | connect ad now => simp [issues] at hu
  | reportExit j =>
    simp only [issues] at hu
    split at hu <;> simp at hu
  | reportStale =>
    simp only [issues] at hu
    split at hu <;> simp at hu
  | _ => cases hu

private theorem originOk_step (h : s.step cfg a = some s') (hQ : s.OriginOk cfg) :
    s'.OriginOk cfg ↔ s.NamesOwnHost cfg a := by
  constructor
  · intro hQ'
    cases a with
    | statusUpdate i update =>
      intro hpermit hpub
      obtain ⟨payload, hpayload⟩ := Option.isSome_iff_exists.1 hpub
      obtain ⟨t', ht', hhost⟩ := hQ' payload i
        ((mem_outgoing_step h).2 (Or.inr ⟨update, by simp [issues, hpermit], hpayload⟩))
      obtain ⟨t, ht, rfl⟩ := Option.map_eq_some_iff.1 h
      rw [tasks_spawnBoundedPublish] at ht'
      exact ⟨t', ht', by rw [← hhost, ResourceStatusPublisher.hostId_of_publish hpayload]⟩
    | _ => trivial
  · intro hP payload i hx
    have hold : ∃ t, s.tasks[i]? = some t ∧ payload.hostId = t.hostId := by
      rcases (mem_outgoing_step h).1 hx with hx | ⟨u, hu, hpub⟩
      · exact hQ payload i hx
      · obtain ⟨t, ht, hhost⟩ := issues_ownHost hP hu (Option.isSome_iff_exists.2 ⟨_, hpub⟩)
        exact ⟨t, ht, by rw [ResourceStatusPublisher.hostId_of_publish hpub, hhost]⟩
    obtain ⟨t, ht, hhost⟩ := hold
    obtain ⟨t', ht', hhost', -⟩ := task_step h ht
    exact ⟨t', ht', by rw [hhost, hhost']⟩

/-- Over every interleaving, everything that is published because of a message on a stream is about the host of
that stream exactly when every status update of the run that gets a permit names the host of its stream. -/
theorem originOk_iff (cfg : GrpcConfig) (tr : List GrpcOp) (s : GrpcSys) (hr : run (step cfg) init tr = some s) :
    Always (step cfg) (OriginOk cfg) init tr ↔ Along (step cfg) (NamesOwnHost cfg) init tr := by
  refine always_iff_along_of_step (fun _ _ _ hQ hs => originOk_step hs hQ) ?_ hr
  intro payload i hx
  simp [outgoing, init] at hx

def publishingConfig : GrpcConfig := ⟨.new (some "https://laravel.internal/") (some "secret"), 45⟩

def webExited (hostId : String) : ResourceStatusUpdate :=
  { resourceType := "application"
    hostId := hostId
    containerId := "abc"
    containerName := "web"
    status := "exited"
    statusMessage := "Status received from coold through flux." }

/-- An update that names the host of its stream is published for that host. -/
theorem own_update_published :
    ∃ s, run (step publishingConfig) init [.connect firstStream 0, .statusUpdate 0 (webExited "100.64.0.5")] =
        some s ∧
      Always (step publishingConfig) (OriginOk publishingConfig) init
        [.connect firstStream 0, .statusUpdate 0 (webExited "100.64.0.5")] := by
  refine ⟨_, rfl, (originOk_iff publishingConfig _ _ rfl).2 ?_⟩
  refine ⟨trivial, fun s₁ h₁ => ⟨?_, fun _ _ => trivial⟩⟩
  obtain rfl := Option.some.inj h₁
  exact fun _ _ => ⟨.new firstStream, rfl, rfl⟩

/-- The stream of one host forwards an update that names another host, and it is posted for that other host. -/
theorem foreign_update_published :
    ∃ s, run (step publishingConfig) init
        [.connect firstStream 0, .statusUpdate 0 (webExited "100.64.0.9"), .publish 1] = some s ∧
      s.tasks[0]? = some (.new firstStream) ∧
      s.posted = [(resourceStatusPayload (webExited "100.64.0.9"), .message 0)] ∧
      (resourceStatusPayload (webExited "100.64.0.9")).hostId ≠ (StreamTask.new firstStream).hostId := by
  refine ⟨_, rfl, rfl, rfl, by decide⟩

end Coold.Flux.GrpcSys
