import Coold.Flux.GrpcServerRuns

/-!
# The last status of a container

coold reports a container when its status changes and does not repeat a report, so Laravel has the right status only
if the last report that arrives is posted, and posted last.  Each report is published by a task of its own if a permit
is free and dropped otherwise, and the tasks complete in any order.

`LastStatusWins` says that, whenever no publish task of a container is outstanding, the last status posted for it is
the last one that was sent on the stream.  It holds all along a run whose steps are `InTurn`: every report of the
container finds a free permit, and the task that was spawned last completes after the ones spawned before it.  What
carries it is `LastOutstanding`: the last task that is outstanding carries the status that was sent last.
-/

namespace Coold.Flux

open Lts
open GrpcSys (firstStream publishingConfig webExited)

/-- The gRPC server, with a record of the status updates that were sent on each stream. -/
structure StatusSys where
  grpc : GrpcSys
  sent : List (Nat × ResourceStatusUpdate)

/-- The stream and the update of a message, if it is a status update. -/
def GrpcOp.update : GrpcOp → List (Nat × ResourceStatusUpdate)
  | .statusUpdate i update => [(i, update)]
  | _ => []

/-- The publish task was spawned because of a message on stream `i` about container `c`. -/
def PublishTask.concerns (i : Nat) (c : String) (p : PublishTask) : Bool :=
  decide (p.origin = .message i) && decide (p.update.containerId = c)

namespace StatusSys

def init : StatusSys := ⟨.init, []⟩

def step (cfg : GrpcConfig) (s : StatusSys) (a : GrpcOp) : Option StatusSys :=
  (s.grpc.step cfg a).map fun grpc => ⟨grpc, s.sent ++ a.update⟩

/-- The publish tasks of a container that have not completed. -/
def outstanding (s : StatusSys) (i : Nat) (c : String) : List PublishTask :=
  s.grpc.publishing.filter (PublishTask.concerns i c)

/-- The last status that was sent on a stream about a container. -/
def lastSent (s : StatusSys) (i : Nat) (c : String) : Option ResourceStatusPayload :=
  (s.sent.filter fun x => decide (x.1 = i) && decide (x.2.containerId = c)).getLast?.map
    fun x => resourceStatusPayload x.2

/-- The last status that was posted because of a message on a stream about a container. -/
def lastPosted (s : StatusSys) (i : Nat) (c : String) : Option ResourceStatusPayload :=
  (s.grpc.posted.filter fun x => decide (x.2 = .message i) && decide (x.1.containerId = c)).getLast?.map Prod.fst

/-- If nothing about the container is still to be posted, the last status posted is the last one sent. -/
def LastStatusWins (i : Nat) (c : String) (s : StatusSys) : Prop :=
  s.outstanding i c = [] → s.lastPosted i c = s.lastSent i c

/-- A report of the container finds a free permit, and a task of the container that completes when none spawned after
it is outstanding leaves none spawned before it outstanding.  A pong on the stream makes flux publish a report with
no container id, which must not be mistaken for one of the container. -/
def InTurn (i : Nat) (c : String) (s : StatusSys) : GrpcOp → Prop
  | .statusUpdate j update => j = i → update.containerId = c → 0 < s.grpc.permits
  | .publish k => ∀ p ∈ s.grpc.publishing[k]?, p.concerns i c = true →
      (s.grpc.publishing.drop (k + 1)).filter (PublishTask.concerns i c) = [] →
      (s.grpc.publishing.take k).filter (PublishTask.concerns i c) = []
  | .pong j _ => j = i → c ≠ ""
  | _ => True

instance (i : Nat) (c : String) (s : StatusSys) : ∀ a, Decidable (s.InTurn i c a)
  | .statusUpdate j update => inferInstanceAs (Decidable (j = i → update.containerId = c → 0 < s.grpc.permits))
  | .publish k => inferInstanceAs (Decidable (∀ p ∈ s.grpc.publishing[k]?, p.concerns i c = true →
      (s.grpc.publishing.drop (k + 1)).filter (PublishTask.concerns i c) = [] →
      (s.grpc.publishing.take k).filter (PublishTask.concerns i c) = []))
  | .pong j _ => inferInstanceAs (Decidable (j = i → c ≠ ""))
  | .connect _ _ | .hold _ _ _ | .release _ | .ignore _ | .leave _ | .remove _ | .reportExit _
  | .enqueue _ _ | .take _ | .closeRx _ | .tick _ | .reportStale | .pingTargets | .ping _ | .sleep => isTrue trivial

/-- The last task that is outstanding carries the status that was sent last; if none is, that status was posted
last. -/
def LastOutstanding (i : Nat) (c : String) (s : StatusSys) : Prop :=
  s.lastSent i c = match (s.outstanding i c).getLast? with
    | some p => some (resourceStatusPayload p.update)
    | none => s.lastPosted i c

/-! ### What a step does to the three -/

variable {cfg : GrpcConfig} {s s' : StatusSys} {a : GrpcOp} {i : Nat} {c : String}

private theorem step_eq (h : s.step cfg a = some s') :
    s.grpc.step cfg a = some s'.grpc ∧ s'.sent = s.sent ++ a.update := by
  obtain ⟨grpc, hg, rfl⟩ := Option.map_eq_some_iff.1 h
  exact ⟨hg, rfl⟩

/-- What a step reports itself is not because of a message. -/
private theorem reported_origin {g : GrpcSys} {x : ResourceStatusUpdate × Origin} (hx : x ∈ g.reported a) :
    x.2 ≠ .message i := by
  cases a with
  | reportExit j =>
    simp only [GrpcSys.reported] at hx
    split at hx
    · rw [List.mem_singleton.1 hx]
      simp
    · cases hx
  | reportStale =>
    simp only [GrpcSys.reported] at hx
    split at hx
    · rw [List.mem_singleton.1 hx]
      simp
    · cases hx
  | _ => cases hx

private theorem outstanding_step (h : s.step cfg a = some s') (hk : ∀ k, a ≠ .publish k) :
    s'.outstanding i c = s.outstanding i c ++ (s.grpc.spawned a).filter (PublishTask.concerns i c) := by
  rw [outstanding, (GrpcSys.published_step (step_eq h).1 hk).1, List.filter_append]
  rfl

private theorem lastPosted_step (hen : cfg.publisher.Enabled) (h : s.step cfg a = some s')
    (hk : ∀ k, a ≠ .publish k) : s'.lastPosted i c = s.lastPosted i c := by
  have hnone : (GrpcSys.posts cfg (s.grpc.reported a)).filter
      (fun x => decide (x.2 = .message i) && decide (x.1.containerId = c)) = [] := by
    rw [GrpcSys.posts_of_enabled hen, List.filter_eq_nil_iff]
    intro y hy
    obtain ⟨x, hx, rfl⟩ := List.mem_map.1 hy
    simp [reported_origin hx]
  rw [lastPosted, (GrpcSys.published_step (step_eq h).1 hk).2, List.filter_append, hnone, List.append_nil]
  rfl

private theorem lastSent_step (h : s.step cfg a = some s')
    (ha : ∀ update, a = .statusUpdate i update → update.containerId ≠ c) : s'.lastSent i c = s.lastSent i c := by
  have hnone : a.update.filter (fun x => decide (x.1 = i) && decide (x.2.containerId = c)) = [] := by
    rw [List.filter_eq_nil_iff]
    intro x hx
    cases a with
    | statusUpdate j update =>
      rw [List.mem_singleton.1 hx]
      by_cases hj : j = i
      · subst hj
        simp [ha update rfl]
      · simp [hj]
    | _ => cases hx
  rw [lastSent, (step_eq h).2, List.filter_append, hnone, List.append_nil]
  rfl

/-- A step that spawns no task of the container and sends no status of it. -/
private theorem lastOutstanding_other (hen : cfg.publisher.Enabled) (h : s.step cfg a = some s')
    (hk : ∀ k, a ≠ .publish k) (ha : ∀ update, a = .statusUpdate i update → update.containerId ≠ c)
    (hsp : (s.grpc.spawned a).filter (PublishTask.concerns i c) = []) (hw : s.LastOutstanding i c) :
    s'.LastOutstanding i c := by
  have hout : s'.outstanding i c = s.outstanding i c := by rw [outstanding_step h hk, hsp, List.append_nil]
  unfold LastOutstanding
  rw [hout, lastSent_step h ha, lastPosted_step hen h hk]
  exact hw

private theorem filter_spawned_eq_nil (ha : ∀ j update, a = .statusUpdate j update → j = i → update.containerId ≠ c)
    (hpong : ∀ j now, a = .pong j now → j = i → c ≠ "") (g : GrpcSys) :
    (g.spawned a).filter (PublishTask.concerns i c) = [] := by
  rw [List.filter_eq_nil_iff]
  intro p hp
  simp only [PublishTask.concerns, Bool.and_eq_true, decide_eq_true_eq, not_and]
  cases a with
  | connect ad now =>
    obtain rfl := List.mem_singleton.1 hp
    simp
  | statusUpdate j update =>
    simp only [GrpcSys.spawned] at hp
    split at hp
    · obtain rfl := List.mem_singleton.1 hp
      simpa using ha j update rfl
    · cases hp
  | pong j now =>
    have hid : p.origin = .message j ∧ p.update.containerId = "" := by
      simp only [GrpcSys.spawned] at hp
      split at hp
      · split at hp
        · obtain rfl := List.mem_singleton.1 hp
          exact ⟨rfl, rfl⟩
        · cases hp
      · cases hp
    rw [hid.1, hid.2]
    intro hj hc
    exact hpong j now rfl (Origin.message.inj hj) hc.symm
  | _ => cases hp

private theorem lastOutstanding_statusUpdate {update : ResourceStatusUpdate} (hpermit : 0 < s.grpc.permits)
    (h : s.step cfg (.statusUpdate i update) = some s') (hc : update.containerId = c) :
    s'.LastOutstanding i c := by
  have hsent : s'.lastSent i c = some (resourceStatusPayload update) := by
    rw [lastSent, (step_eq h).2, GrpcOp.update, List.filter_append]
    simp [hc]
  have hout : s'.outstanding i c = s.outstanding i c ++ [⟨update, .message i, true⟩] := by
    rw [outstanding_step h nofun]
    simp [GrpcSys.spawned, hpermit, PublishTask.concerns, hc]
  rw [LastOutstanding, hsent, hout, List.getLast?_concat]

private theorem lastOutstanding_publish {k : Nat} (hen : cfg.publisher.Enabled)
    (h : s.step cfg (.publish k) = some s') (hin : s.InTurn i c (.publish k)) (hw : s.LastOutstanding i c) :
    s'.LastOutstanding i c := by
  obtain ⟨before, p, after, hpub, hlen, hpub', hpost, -⟩ := GrpcSys.publish_step (step_eq h).1
  have hsent : s'.lastSent i c = s.lastSent i c := lastSent_step h nofun
  have hk : s.grpc.publishing[k]? = some p := by
    rw [hpub, ← hlen]
    simp
  have htake : s.grpc.publishing.take k = before := by rw [hpub, ← hlen, List.take_left]
  have hdrop : s.grpc.publishing.drop (k + 1) = after := by rw [hpub, ← hlen, List.drop_length_add_append]; rfl
  have hout : s.outstanding i c = before.filter (PublishTask.concerns i c) ++
      (if p.concerns i c then [p] else []) ++ after.filter (PublishTask.concerns i c) := by
    rw [outstanding, hpub, List.filter_append, List.filter_cons]
    split <;> simp
  have hout' : s'.outstanding i c =
      before.filter (PublishTask.concerns i c) ++ after.filter (PublishTask.concerns i c) := by
    rw [outstanding, hpub', List.filter_append]
  unfold LastOutstanding at hw ⊢
  rw [hsent]
  -- a task of the container posts its status, the others leave everything as it is
  by_cases hp : p.concerns i c = true
  · rw [if_pos hp] at hout
    cases hafter : after.filter (PublishTask.concerns i c) with
    | nil =>
      have hbefore : before.filter (PublishTask.concerns i c) = [] := by
        rw [← htake]
        exact hin p hk hp (by rw [hdrop, hafter])
      have hlast : s'.lastPosted i c = some (resourceStatusPayload p.update) := by
        have hp' := hp
        simp only [PublishTask.concerns, Bool.and_eq_true, decide_eq_true_eq] at hp'
        rw [lastPosted, hpost, GrpcSys.posts_of_enabled hen, List.filter_append]
        simp [hp'.1, resourceStatusPayload, hp'.2]
      rw [hout, hbefore, hafter] at hw
      rw [hout', hbefore, hafter, hw]
      exact hlast.symm
    | cons q rest =>
      -- the last task of the container stays
      rw [hw, hout, hout', hafter, List.getLast?_append_cons, List.getLast?_append_cons]
      cases hl : (q :: rest).getLast? with
      | none => simp at hl
      | some last => rfl
  · rw [if_neg hp, List.append_nil] at hout
    have hlast : s'.lastPosted i c = s.lastPosted i c := by
      rw [lastPosted, hpost, GrpcSys.posts_of_enabled hen, List.filter_append]
      have hnot : ¬ (p.origin = .message i ∧ p.update.containerId = c) := by
        simpa [PublishTask.concerns] using hp
      simp only [List.map_cons, List.map_nil, List.filter_cons, List.filter_nil, resourceStatusPayload,
        Bool.and_eq_true, decide_eq_true_eq, if_neg hnot, List.append_nil]
      rfl
    rw [hw, hout, hout', hlast]

private theorem lastOutstanding_step (hen : cfg.publisher.Enabled) (h : s.step cfg a = some s')
    (hin : s.InTurn i c a) (hw : s.LastOutstanding i c) : s'.LastOutstanding i c := by
  have hother : (∀ k, a ≠ .publish k) →
      (∀ j update, a = .statusUpdate j update → j = i → update.containerId ≠ c) →
      (∀ j now, a = .pong j now → j = i → c ≠ "") → s'.LastOutstanding i c := fun hk ha hpong =>
    lastOutstanding_other hen h hk (fun update heq => ha i update heq rfl) (filter_spawned_eq_nil ha hpong _) hw
  cases a with
  | statusUpdate j update =>
    by_cases hj : j = i ∧ update.containerId = c
    · obtain ⟨rfl, hc⟩ := hj
      exact lastOutstanding_statusUpdate (hin rfl hc) h hc
    · refine hother nofun (fun j' update' heq hij hc => ?_) nofun
      obtain ⟨rfl, rfl⟩ := GrpcOp.statusUpdate.inj heq
      exact hj ⟨hij, hc⟩
  | publish k => exact lastOutstanding_publish hen h hin hw
  | pong j now =>
    refine hother nofun nofun fun j' now' heq hij => ?_
    obtain ⟨rfl, rfl⟩ := GrpcOp.pong.inj heq
    exact hin hij
  | _ => exact hother nofun nofun nofun

private theorem lastStatusWins_of_lastOutstanding (h : s.LastOutstanding i c) : s.LastStatusWins i c := by
  intro hnil
  rw [LastOutstanding, hnil] at h
  exact h.symm

/-- Over every interleaving, with every post accepted: in a run in which every report of a container finds a free
permit and no publish task of the container is overtaken by the last one, whenever no publish task of the container is
outstanding the last status posted for it is the last one sent on the stream. -/
theorem last_status_wins (cfg : GrpcConfig) (hen : cfg.publisher.Enabled) (i : Nat) (c : String) (tr : List GrpcOp)
    (hin : Along (step cfg) (InTurn i c) init tr) : Always (step cfg) (LastStatusWins i c) init tr :=
  always_of_along (fun _ _ _ hw hin h => lastOutstanding_step hen h hin hw)
    (fun _ => lastStatusWins_of_lastOutstanding) rfl hin

def statusOfWeb (status : String) : ResourceStatusUpdate := { webExited "100.64.0.5" with status := status }

/-- A container stops and starts again, and the second report is posted last. -/
def restartTrace : List GrpcOp :=
  [.connect firstStream 0, .statusUpdate 0 (statusOfWeb "exited"), .statusUpdate 0 (statusOfWeb "running"),
    .publish 0, .publish 0, .publish 0]

theorem restart_posted_in_turn :
    ∃ s, run (step publishingConfig) init restartTrace = some s ∧
      Always (step publishingConfig) (LastStatusWins 0 "abc") init restartTrace := by
  refine ⟨_, rfl, last_status_wins publishingConfig (by decide) 0 "abc" _ ?_⟩
  decide

/-- The two tasks complete in the other order: nothing is outstanding, and Laravel was told last that the container
has stopped. -/
theorem overtaken_status_stays :
    ∃ s ∈ run (step publishingConfig) init
        [.connect firstStream 0, .statusUpdate 0 (statusOfWeb "exited"), .statusUpdate 0 (statusOfWeb "running"),
          .publish 2, .publish 1, .publish 0],
      s.grpc.publishing = [] ∧ (s.lastSent 0 "abc").map ResourceStatusPayload.status = some "running" ∧
        (s.lastPosted 0 "abc").map ResourceStatusPayload.status = some "exited" := by
  decide

end StatusSys

end Coold.Flux
