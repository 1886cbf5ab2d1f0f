import Coold.Flux.GrpcServerRuns

/-!
# The reported reachability of a host

Laravel is told that a server is installed when a stream of its host is accepted and when a stale host answers a ping
again, and that it is unreachable when a stream ends and when the heartbeat finds the host stale.  Each of the four
also changes the entry of the host in the stream map, but not in the same instant: a task that removes the host
reports it later, the heartbeat reports the hosts that it has marked one after the other, and a restored host is
reported only if a permit is free.

`verdict` is what will have been published last for a host once everything on its way is published, in the order in
which it is issued (`InIssueOrder`).  It agrees with the entry (`Agrees`) along a run exactly when every step is
`ReportedInTurn`: a host comes back only when no report of its loss is due, and a pong that restores it finds a
permit.
-/

namespace Coold.Flux

/-- The status is one of the server with the given host id. -/
def ResourceStatusPayload.ofServer (h : String) (payload : ResourceStatusPayload) : Bool :=
  decide (payload.resourceType = "server") && decide (payload.hostId = h)

/-- The hosts that the heartbeat has marked stale and not yet reported. -/
def Heartbeat.unreported : Heartbeat → List String
  | .reporting hostIds => hostIds
  | _ => []

namespace GrpcSys

open Lts

/-! ### What is published about a server -/

/-- The statuses of a server that were published. -/
def serverStatuses (s : GrpcSys) (h : String) : List String :=
  ((s.posted.map Prod.fst).filter (ResourceStatusPayload.ofServer h)).map ResourceStatusPayload.status

/-- The statuses of a server that spawned tasks will publish. -/
def unpublished (s : GrpcSys) (h : String) : List String :=
  ((s.publishing.map fun p => resourceStatusPayload p.update).filter (ResourceStatusPayload.ofServer h)).map
    ResourceStatusPayload.status

/-- A task has removed the host and not reported it yet, or the heartbeat has marked it stale and not reported it yet. -/
def ReportDue (s : GrpcSys) (h : String) : Prop :=
  (∃ t ∈ s.tasks, t.hostId = h ∧ t.phase = .removed) ∨ h ∈ s.heartbeat.unreported

instance (s : GrpcSys) (h : String) : Decidable (s.ReportDue h) :=
  inferInstanceAs (Decidable ((∃ t ∈ s.tasks, t.hostId = h ∧ t.phase = .removed) ∨ h ∈ s.heartbeat.unreported))

/-- Nothing about the server is still to be published. -/
def NothingOutstanding (s : GrpcSys) (h : String) : Prop := s.unpublished h = [] ∧ ¬ s.ReportDue h

instance (s : GrpcSys) (h : String) : Decidable (s.NothingOutstanding h) :=
  inferInstanceAs (Decidable (s.unpublished h = [] ∧ ¬ s.ReportDue h))

/-- What will have been published last. -/
def verdict (s : GrpcSys) (h : String) : Option String :=
  if s.ReportDue h then some "unreachable" else (s.serverStatuses h ++ s.unpublished h).getLast?

/-- The host will have been reported installed exactly when it has a reachable entry. -/
def Agrees (h : String) (s : GrpcSys) : Prop := s.verdict h = some "installed" ↔ s.streams.reachable h = true

/-- What is published about a server is published in the order in which it is issued. -/
def InIssueOrder (h : String) (s : GrpcSys) : GrpcOp → Prop
  | .publish k => ∀ p ∈ s.publishing[k]?, (resourceStatusPayload p.update).ofServer h = true →
      ∀ q ∈ s.publishing.take k, (resourceStatusPayload q.update).ofServer h = false
  | .reportExit i => ∀ t ∈ s.tasks[i]?, t.hostId = h → s.unpublished h = []
  | .reportStale => s.heartbeat.unreported.head? = some h → s.unpublished h = []
  | _ => True

/-- What a step needs of the state before it. -/
def ReportedInTurn (h : String) (s : GrpcSys) : GrpcOp → Prop
  | .connect a _ => a.hostId = h → ¬ s.ReportDue h
  | .pong i now => ∀ t ∈ s.tasks[i]?, t.hostId = h → (s.streams.touch h now).1 = true →
      0 < s.permits ∧ ¬ s.ReportDue h
  | .statusUpdate _ update => (resourceStatusPayload update).ofServer h = true → 0 < s.permits → ¬ s.ReportDue h →
      (update.status = "installed" ↔ s.streams.reachable h = true)
  | _ => True

variable {cfg : GrpcConfig} {s s' : GrpcSys} {a : GrpcOp} {h : String}

/-- The statuses of a server that a step issues. -/
def issuedStatuses (s : GrpcSys) (h : String) (a : GrpcOp) : List String :=
  (((s.issues a).map fun x => resourceStatusPayload x.1).filter (ResourceStatusPayload.ofServer h)).map
    ResourceStatusPayload.status

private theorem ofServer_cooldStatusUpdate (host status msg : String) :
    (resourceStatusPayload (cooldStatusUpdate host status msg)).ofServer h = true ↔ host = h := by
  rw [ResourceStatusPayload.ofServer, Bool.and_eq_true, decide_eq_true_iff, decide_eq_true_iff]
  exact and_iff_right rfl

/-- A report that a step makes itself finds nothing unpublished. -/
private theorem unpublished_of_reported (hord : s.InIssueOrder h a) {x : ResourceStatusUpdate × Origin}
    (hx : x ∈ s.reported a) (hof : (resourceStatusPayload x.1).ofServer h = true) : s.unpublished h = [] := by
  cases a with
  | reportExit i =>
    simp only [reported] at hx
    split at hx
    · rename_i t ht
      rw [List.mem_singleton.1 hx, ofServer_cooldStatusUpdate] at hof
      exact hord t ht hof
    · cases hx
  | reportStale =>
    simp only [reported] at hx
    split at hx
    · rename_i hostId hostIds hb
      rw [List.mem_singleton.1 hx, ofServer_cooldStatusUpdate] at hof
      refine hord ?_
      rw [hb, ← hof]
      rfl
    · cases hx
  | _ => cases hx

/-- What a step issues is added at the end of what is published, one way or the other. -/
private theorem history_step (hen : cfg.publisher.Enabled) (hs : s.step cfg a = some s') (hord : s.InIssueOrder h a) :
    s'.serverStatuses h ++ s'.unpublished h = s.serverStatuses h ++ s.unpublished h ++ s.issuedStatuses h a := by
  by_cases hk : ∃ k, a = .publish k
  · -- the first task about the server moves its status from one list to the end of the other
    obtain ⟨k, rfl⟩ := hk
    obtain ⟨before, p, after, hpub, hlen, hpub', hpost, -⟩ := publish_step hs
    rw [serverStatuses, unpublished, hpost, hpub', posts_of_enabled hen, serverStatuses, unpublished, hpub]
    by_cases hp : (resourceStatusPayload p.update).ofServer h = true
    · -- the tasks before this one are not about the server
      have hbefore : (before.map fun p => resourceStatusPayload p.update).filter
          (ResourceStatusPayload.ofServer h) = [] := by
        rw [List.filter_eq_nil_iff]
        intro x hx
        obtain ⟨q, hq, rfl⟩ := List.mem_map.1 hx
        have hfirst := hord p (by rw [hpub, ← hlen]; simp) hp q (by rw [hpub, ← hlen]; simpa using hq)
        simp [hfirst]
      simp [hbefore, hp, issuedStatuses, issues]
    · simp [hp, issuedStatuses, issues]
  · obtain ⟨hpub, hpost⟩ := published_step hs fun k hk' => hk ⟨k, hk'⟩
    rw [serverStatuses, unpublished, hpub, hpost, posts_of_enabled hen, issuedStatuses, issues_eq]
    by_cases hrep : ((s.reported a).map fun x => resourceStatusPayload x.1).filter
        (ResourceStatusPayload.ofServer h) = []
    · simp [serverStatuses, unpublished, hrep, Function.comp_def]
    · obtain ⟨y, hy⟩ := List.exists_mem_of_ne_nil _ hrep
      obtain ⟨hy, hof⟩ := List.mem_filter.1 hy
      obtain ⟨x, hx, rfl⟩ := List.mem_map.1 hy
      -- a step reports by itself only when nothing about the server is unpublished
      have hnone := unpublished_of_reported hord hx hof
      simp only [unpublished, List.map_eq_nil_iff] at hnone
      simp [serverStatuses, unpublished, hnone, Function.comp_def]

private theorem issuedStatuses_eq_nil (hiss : s.issues a = []) : s.issuedStatuses h a = [] := by
  rw [issuedStatuses, hiss]
  rfl

private theorem issuedStatuses_server {host status msg : String} {o : Origin}
    (hiss : s.issues a = [(cooldStatusUpdate host status msg, o)]) :
    s.issuedStatuses h a = if host = h then [status] else [] := by
  rw [issuedStatuses, hiss, List.map_singleton, List.filter_singleton]
  by_cases hhost : host = h
  · rw [if_pos hhost, (ofServer_cooldStatusUpdate host status msg).2 hhost]
    rfl
  · have hof : ¬ (resourceStatusPayload (cooldStatusUpdate host status msg)).ofServer h = true :=
      fun hof => hhost ((ofServer_cooldStatusUpdate host status msg).1 hof)
    rw [if_neg hhost, Bool.eq_false_iff.2 hof]
    rfl

/-! ### The due reports -/

private theorem reportDue_of_eq (htasks : s'.tasks = s.tasks)
    (hbeat : s'.heartbeat.unreported = s.heartbeat.unreported) :
    s'.ReportDue h ↔ s.ReportDue h := by
  rw [ReportDue, htasks, hbeat, ReportDue]

/-- A task that changes neither its host nor whether it has removed it does not matter. -/
private theorem reportDue_of_modify {i : Nat} {f : StreamTask → StreamTask} (htasks : s'.tasks = s.tasks.modify i f)
    (hbeat : s'.heartbeat.unreported = s.heartbeat.unreported)
    (hf : ∀ t, s.tasks[i]? = some t → ((f t).hostId = h ∧ (f t).phase = .removed ↔ t.hostId = h ∧ t.phase = .removed)) :
    s'.ReportDue h ↔ s.ReportDue h := by
  have hget : ∀ j, s'.tasks[j]? = s.tasks[j]?.map fun t => if i = j then f t else t := by
    intro j
    rw [htasks, List.getElem?_modify]
    rfl
  have hsame : ∀ j t, s.tasks[j]? = some t → ((if i = j then f t else t).hostId = h ∧
      (if i = j then f t else t).phase = .removed ↔ t.hostId = h ∧ t.phase = .removed) := by
    intro j t ht
    split
    · rename_i hij
      subst hij
      exact hf t ht
    · exact Iff.rfl
  rw [ReportDue, hbeat, ReportDue]
  refine or_congr_left ⟨?_, ?_⟩
  · rintro ⟨t', ht', hrem⟩
    obtain ⟨j, hj⟩ := List.mem_iff_getElem?.1 ht'
    rw [hget] at hj
    obtain ⟨t, ht, rfl⟩ := Option.map_eq_some_iff.1 hj
    exact ⟨t, List.mem_of_getElem? ht, (hsame j t ht).1 hrem⟩
  · rintro ⟨t, ht, hrem⟩
    obtain ⟨j, hj⟩ := List.mem_iff_getElem?.1 ht
    refine ⟨if i = j then f t else t, List.mem_of_getElem? (by rw [hget, hj]; rfl), (hsame j t hj).2 hrem⟩

/-! ### Agreement, step by step -/

section Agreement

variable (hen : cfg.publisher.Enabled) (hs : s.step cfg a = some s') (hord : s.InIssueOrder h a)

include hen hs hord

private theorem verdict_step : s'.verdict h = if s'.ReportDue h then some "unreachable"
    else (s.serverStatuses h ++ s.unpublished h ++ s.issuedStatuses h a).getLast? := by
  rw [verdict, history_step hen hs hord]

/-- A step that issues nothing and changes neither the due reports nor the entry. -/
private theorem agrees_of_same (hiss : s.issuedStatuses h a = []) (hdue : s'.ReportDue h ↔ s.ReportDue h)
    (hreach : s'.streams.reachable h = s.streams.reachable h) (hA : s.Agrees h) : s'.Agrees h := by
  rw [Agrees, verdict_step hen hs hord, hiss, List.append_nil, hreach, if_congr hdue rfl rfl]
  exact hA

/-- A step after which a report of the loss is due or has just been made, with no entry that is reachable. -/
private theorem agrees_of_lost (hlost : s'.ReportDue h ∨ s.issuedStatuses h a = ["unreachable"])
    (hreach : s'.streams.reachable h = false) : s'.Agrees h := by
  have hverdict : s'.verdict h = some "unreachable" := by
    rw [verdict_step hen hs hord]
    split
    · rfl
    · rename_i hdue
      rw [hlost.resolve_left hdue, List.getLast?_concat]
  rw [Agrees, hverdict, hreach]
  decide

/-- A step that issues that the host is installed, with an entry that is reachable. -/
private theorem agrees_of_installed (hiss : s.issuedStatuses h a = ["installed"])
    (hreach : s'.streams.reachable h = true) : s'.Agrees h ↔ ¬ s'.ReportDue h := by
  rw [Agrees, verdict_step hen hs hord, hiss, List.getLast?_concat, hreach]
  split
  · rename_i hdue
    exact iff_of_false (by decide) (not_not_intro hdue)
  · rename_i hdue
    exact iff_of_true (by decide) hdue

end Agreement

private theorem agrees_connect_iff {ad : Admission} {now : Nat} (hen : cfg.publisher.Enabled) (hA : s.Agrees h)
    (hs : s.step cfg (.connect ad now) = some s') : s'.Agrees h ↔ s.ReportedInTurn h (.connect ad now) := by
  have hiss : s.issuedStatuses h (.connect ad now) = if ad.hostId = h then ["installed"] else [] :=
    issuedStatuses_server rfl
  have hreach : s'.streams.reachable h = if h = ad.hostId then true else s.streams.reachable h := by
    obtain rfl := Option.some.inj hs
    exact Streams.reachable_insert _ _ _ _ _
  have hdue : s'.ReportDue h ↔ s.ReportDue h := by
    obtain rfl := Option.some.inj hs
    simp [ReportDue, connect, StreamTask.new]
  by_cases hhost : ad.hostId = h
  · rw [if_pos hhost] at hiss
    rw [if_pos hhost.symm] at hreach
    rw [agrees_of_installed hen hs trivial hiss hreach, hdue]
    exact ⟨fun hnot _ => hnot, fun hturn => hturn hhost⟩
  · rw [if_neg hhost] at hiss
    rw [if_neg (Ne.symm hhost)] at hreach
    exact iff_of_true (agrees_of_same hen hs trivial hiss hdue hreach hA) fun heq => absurd heq hhost

private theorem agrees_statusUpdate_iff {i : Nat} {update : ResourceStatusUpdate} (hen : cfg.publisher.Enabled)
    (hA : s.Agrees h) (hs : s.step cfg (.statusUpdate i update) = some s') :
    s'.Agrees h ↔ s.ReportedInTurn h (.statusUpdate i update) := by
  obtain ⟨hdue, hreach⟩ : (s'.ReportDue h ↔ s.ReportDue h) ∧ s'.streams = s.streams := by
    obtain ⟨t, -, rfl⟩ := Option.map_eq_some_iff.1 hs
    refine ⟨reportDue_of_eq (tasks_spawnBoundedPublish _ _ _) ?_, streams_spawnBoundedPublish _ _ _⟩
    unfold spawnBoundedPublish
    split <;> rfl
  by_cases hissues : (resourceStatusPayload update).ofServer h = true ∧ 0 < s.permits
  · obtain ⟨hof, hpermit⟩ := hissues
    have hiss : s.issuedStatuses h (.statusUpdate i update) = [update.status] := by
      simp only [issuedStatuses, issues, hpermit, if_true, List.map_singleton, List.filter_singleton, hof]
      rfl
    by_cases hd : s.ReportDue h
    · -- the report that is due comes after the update
      refine iff_of_true ?_ fun _ _ hnot => absurd hd hnot
      have hverdict : s'.verdict h = s.verdict h := by
        rw [verdict_step hen hs trivial, if_pos (hdue.2 hd), verdict, if_pos hd]
      rw [Agrees, hverdict, hreach]
      exact hA
    · rw [Agrees, verdict_step hen hs trivial, hiss, List.getLast?_concat, if_neg (fun hd' => hd (hdue.1 hd')),
        hreach, Option.some.injEq]
      exact ⟨fun hagree _ _ _ => hagree, fun hturn => hturn hof hpermit hd⟩
  · have hiss : s.issuedStatuses h (.statusUpdate i update) = [] := by
      simp only [issuedStatuses, issues]
      split
      · rename_i hpermit
        have hof : ¬ (resourceStatusPayload update).ofServer h = true := fun hof => hissues ⟨hof, hpermit⟩
        simp [hof]
      · rfl
    refine iff_of_true (agrees_of_same hen hs trivial hiss hdue (by rw [hreach]) hA) ?_
    exact fun hof hpermit => absurd ⟨hof, hpermit⟩ hissues

private theorem issuedStatuses_pong {i now : Nat} {t : StreamTask} (ht : s.tasks[i]? = some t) :
    s.issuedStatuses h (.pong i now) =
      if t.hostId = h ∧ (s.streams.touch t.hostId now).1 = true ∧ 0 < s.permits then ["installed"] else [] := by
  by_cases hspawn : (s.streams.touch t.hostId now).1 = true ∧ 0 < s.permits
  · have hiss : s.issues (.pong i now) =
        [(cooldStatusUpdate t.hostId "installed" "coold heartbeat restored.", .message i)] := by
      simp [issues, ht, hspawn]
    rw [issuedStatuses_server hiss]
    simp [hspawn]
  · have hiss : s.issues (.pong i now) = [] := by
      simp [issues, ht, hspawn]
    rw [issuedStatuses_eq_nil hiss, if_neg fun hc => hspawn hc.2]

private theorem agrees_pong_iff {i now : Nat} (hen : cfg.publisher.Enabled) (hA : s.Agrees h)
    (hs : s.step cfg (.pong i now) = some s') : s'.Agrees h ↔ s.ReportedInTurn h (.pong i now) := by
  obtain ⟨t, ht, rfl⟩ := Option.map_eq_some_iff.1 hs
  obtain ⟨ht, -⟩ := taskAt_eq_some.1 ht
  have hdue : (s.pong i t.hostId now).ReportDue h ↔ s.ReportDue h := by
    refine reportDue_of_eq (tasks_pong _ _ _ _) ?_
    simp only [pong, spawnBoundedPublish]
    split
    · split <;> rfl
    · rfl
  have hstreams : (s.pong i t.hostId now).streams = (s.streams.touch t.hostId now).2 := by
    simp only [pong]
    split
    · exact streams_spawnBoundedPublish _ _ _
    · rfl
  have hreach := Streams.reachable_touch s.streams t.hostId h now
  rw [← hstreams] at hreach
  have hturn : s.ReportedInTurn h (.pong i now) ↔
      (t.hostId = h → (s.streams.touch h now).1 = true → 0 < s.permits ∧ ¬ s.ReportDue h) := by
    simp only [ReportedInTurn, ht]
    simp
  have hiss : s.issuedStatuses h (.pong i now) = if _ then _ else _ := issuedStatuses_pong ht
  rw [hturn]
  -- only a pong that restores the host changes its entry
  by_cases hres : t.hostId = h ∧ (s.streams.touch t.hostId now).1 = true
  · obtain ⟨rfl, hres⟩ := hres
    rw [if_pos ⟨rfl, hres⟩] at hreach
    by_cases hpermit : 0 < s.permits
    · rw [if_pos ⟨rfl, hres, hpermit⟩] at hiss
      rw [agrees_of_installed hen hs trivial hiss hreach, hdue]
      exact ⟨fun hnot _ _ => ⟨hpermit, hnot⟩, fun hturn => (hturn rfl hres).2⟩
    · -- the report is dropped, and the last word was another one
      rw [if_neg fun hc => hpermit hc.2.2] at hiss
      refine iff_of_false ?_ fun hturn => hpermit (hturn rfl hres).1
      rw [Agrees, verdict_step hen hs trivial, hiss, List.append_nil, hreach, if_congr hdue rfl rfl]
      intro hagree
      have hold := hA.1 (hagree.2 rfl)
      rw [Streams.not_reachable_of_touch hres] at hold
      cases hold
  · rw [if_neg fun hc => hres ⟨hc.1, hc.2.1⟩] at hiss
    have hsame : (s.pong i t.hostId now).streams.reachable h = s.streams.reachable h :=
      hreach.trans (if_neg fun hc => hres ⟨hc.1.symm, hc.2⟩)
    refine iff_of_true (agrees_of_same hen hs trivial hiss hdue hsame hA) ?_
    rintro rfl hr
    exact absurd ⟨rfl, hr⟩ hres

/-- While a report of its loss is due, a host on which all agree has no reachable entry. -/
private theorem not_reachable_of_due (hA : s.Agrees h) (hdue : s.ReportDue h) : s.streams.reachable h = false := by
  rw [Agrees, verdict, if_pos hdue] at hA
  exact Bool.eq_false_iff.2 fun hr => absurd (hA.2 hr) (by decide)

private theorem agrees_remove {i : Nat} (hen : cfg.publisher.Enabled) (hA : s.Agrees h)
    (hs : s.step cfg (.remove i) = some s') : s'.Agrees h := by
  obtain ⟨t, ht, rfl⟩ := Option.map_eq_some_iff.1 hs
  obtain ⟨ht, -⟩ := taskAt_eq_some.1 ht
  have hreach := Streams.reachable_remove s.streams t.hostId h
  by_cases hhost : t.hostId = h
  · refine agrees_of_lost hen hs trivial (Or.inl (Or.inl ⟨{ t with phase := .removed }, ?_, hhost, rfl⟩))
      (hreach.trans (if_pos hhost.symm))
    refine List.mem_of_getElem? ?_ (i := i)
    rw [setPhase, getElem?_tasks_modifyTask, ht]
    simp
  · refine agrees_of_same hen hs trivial (issuedStatuses_eq_nil rfl) (reportDue_of_modify rfl rfl ?_)
      (hreach.trans (if_neg (Ne.symm hhost))) hA
    intro t' ht'
    obtain rfl := Option.some.inj (ht.symm.trans ht')
    exact iff_of_false (fun hc => hhost hc.1) fun hc => hhost hc.1

private theorem agrees_reportExit {i : Nat} (hen : cfg.publisher.Enabled) (hA : s.Agrees h)
    (hs : s.step cfg (.reportExit i) = some s') (hord : s.InIssueOrder h (.reportExit i)) : s'.Agrees h := by
  obtain ⟨t, ht, rfl⟩ := Option.map_eq_some_iff.1 hs
  obtain ⟨ht, hphase⟩ := taskAt_eq_some.1 ht
  have hiss : s.issuedStatuses h (.reportExit i) = if t.hostId = h then ["unreachable"] else [] :=
    issuedStatuses_server (by simp only [issues, ht]; rfl)
  by_cases hhost : t.hostId = h
  · rw [if_pos hhost] at hiss
    have hdue : s.ReportDue h := Or.inl ⟨t, List.mem_of_getElem? ht, hhost, hphase⟩
    have hreach : s.streams.reachable h = false := not_reachable_of_due hA hdue
    exact agrees_of_lost hen hs hord (Or.inr hiss) hreach
  · rw [if_neg hhost] at hiss
    refine agrees_of_same hen hs hord hiss (reportDue_of_modify rfl rfl ?_) rfl hA
    intro t' ht'
    obtain rfl := Option.some.inj (ht.symm.trans ht')
    exact iff_of_false (fun hc => hhost hc.1) fun hc => hhost hc.1

private theorem agrees_tick {now : Nat} (hen : cfg.publisher.Enabled) (hA : s.Agrees h)
    (hs : s.step cfg (.tick now) = some s') : s'.Agrees h := by
  have hs' := hs
  simp only [step] at hs'
  split at hs'
  · rename_i hb
    obtain rfl := Option.some.inj hs'
    have hreach := Streams.reachable_markStale s.streams h now (fromSecs (max cfg.pongTimeoutSecs 1))
    by_cases hstale : h ∈ (s.streams.markStale now (fromSecs (max cfg.pongTimeoutSecs 1))).1
    · exact agrees_of_lost hen hs trivial (Or.inl (Or.inr hstale)) (hreach.trans (if_pos hstale))
    · refine agrees_of_same hen hs trivial (issuedStatuses_eq_nil rfl) (or_congr_right ?_)
        (hreach.trans (if_neg hstale)) hA
      rw [hb]
      exact iff_of_false hstale (List.not_mem_nil)
  · cases hs'

private theorem agrees_reportStale (hen : cfg.publisher.Enabled) (hA : s.Agrees h)
    (hs : s.step cfg .reportStale = some s') (hord : s.InIssueOrder h .reportStale) : s'.Agrees h := by
  have hs' := hs
  simp only [step] at hs'
  split at hs'
  · rename_i hostId hostIds hb
    obtain rfl := Option.some.inj hs'
    have hiss : s.issuedStatuses h .reportStale = if hostId = h then ["unreachable"] else [] :=
      issuedStatuses_server (by simp only [issues, hb]; rfl)
    by_cases hhost : hostId = h
    · rw [if_pos hhost] at hiss
      have hdue : s.ReportDue h := by
        refine Or.inr ?_
        rw [hb, ← hhost]
        exact List.mem_cons_self
      have hreach : s.streams.reachable h = false := not_reachable_of_due hA hdue
      exact agrees_of_lost hen hs hord (Or.inr hiss) hreach
    · rw [if_neg hhost] at hiss
      refine agrees_of_same hen hs hord hiss (or_congr_right ?_) rfl hA
      rw [hb]
      exact ⟨List.mem_cons_of_mem _, fun hm => (List.mem_cons.1 hm).resolve_left (Ne.symm hhost)⟩
  · cases hs'

private theorem agrees_step_iff (hen : cfg.publisher.Enabled) (hs : s.step cfg a = some s')
    (hord : s.InIssueOrder h a) (hA : s.Agrees h) : s'.Agrees h ↔ s.ReportedInTurn h a := by
  have hsame : s.issues a = [] → (s'.ReportDue h ↔ s.ReportDue h) → s'.streams = s.streams → s'.Agrees h :=
    fun hiss hdue hstreams =>
      agrees_of_same hen hs hord (issuedStatuses_eq_nil hiss) hdue (by rw [hstreams]) hA
  cases a with
  | connect ad now => exact agrees_connect_iff hen hA hs
  | statusUpdate i update => exact agrees_statusUpdate_iff hen hA hs
  | pong i now => exact agrees_pong_iff hen hA hs
  | remove i => exact iff_of_true (agrees_remove hen hA hs) trivial
  | reportExit i => exact iff_of_true (agrees_reportExit hen hA hs hord) trivial
  | tick now => exact iff_of_true (agrees_tick hen hA hs) trivial
  | reportStale => exact iff_of_true (agrees_reportStale hen hA hs hord) trivial
  | publish k =>
    obtain ⟨before, p, after, -, -, -, -, hstreams, htasks, hbeat⟩ := publish_step hs
    exact iff_of_true (hsame rfl (reportDue_of_eq htasks (by rw [hbeat])) hstreams) trivial
  | hold i resp gen | leave i =>
    obtain ⟨t, ht, rfl⟩ := Option.map_eq_some_iff.1 hs
    obtain ⟨ht, hphase⟩ := taskAt_eq_some.1 ht
    refine iff_of_true (hsame rfl (reportDue_of_modify rfl rfl fun t' ht' => ?_) rfl) trivial
    obtain rfl := Option.some.inj (ht.symm.trans ht')
    simp [hphase]
  | release i =>
    have hs' := hs
    simp only [step] at hs'
    split at hs'
    · rename_i resp gen hd
      obtain rfl := Option.some.inj hs'
      obtain ⟨t, ht, hphase⟩ := Option.map_eq_some_iff.1 hd
      refine iff_of_true (hsame rfl (reportDue_of_modify rfl rfl fun t' ht' => ?_) rfl) trivial
      obtain rfl := Option.some.inj (ht.symm.trans ht')
      simp [hphase]
    · cases hs'
  | ignore i =>
    obtain ⟨t, -, rfl⟩ := Option.map_eq_some_iff.1 hs
    exact iff_of_true hA trivial
  | take i | closeRx i =>
    obtain ⟨t, -, rfl⟩ := Option.map_eq_some_iff.1 hs
    exact iff_of_true (hsame rfl (reportDue_of_modify rfl rfl fun _ _ => Iff.rfl) rfl) trivial
  | enqueue i msg =>
    have hs' := hs
    simp only [step] at hs'
    split at hs'
    · obtain rfl := Option.some.inj hs'
      exact iff_of_true (hsame rfl (reportDue_of_modify rfl rfl fun _ _ => Iff.rfl) rfl) trivial
    · cases hs'
  | pingTargets | sleep =>
    have hs' := hs
    simp only [step] at hs'
    split at hs'
    · rename_i hb
      obtain rfl := Option.some.inj hs'
      exact iff_of_true (hsame rfl (reportDue_of_eq rfl (by rw [hb]; rfl)) rfl) trivial
    · cases hs'
  | ping requestId =>
    have hs' := hs
    simp only [step] at hs'
    split at hs'
    · rename_i hb
      split at hs'
      · obtain rfl := Option.some.inj hs'
        refine iff_of_true (hsame rfl (reportDue_of_modify rfl ?_ fun _ _ => Iff.rfl) rfl) trivial
        rw [hb]
        rfl
      · obtain rfl := Option.some.inj hs'
        exact iff_of_true (hsame rfl (reportDue_of_eq rfl (by rw [hb]; rfl)) rfl) trivial
      · cases hs'
    · cases hs'

private theorem agrees_init : init.Agrees h := by
  have hdue : ¬ init.ReportDue h := by
    simp [ReportDue, init, Heartbeat.unreported]
  rw [Agrees, verdict, if_neg hdue]
  exact iff_of_false (by simp [serverStatuses, unpublished, init]) (by simp [init])

/-- Over every interleaving of streams, pongs, sweeps and exits, with everything about the server published in the order
in which it is issued: what will have been published last agrees with the stream map in every state of a run exactly
when every step of the run is reported in turn, and then, whenever nothing about the server is outstanding, the last
status published for it is `installed` exactly when the host has a reachable entry. -/
theorem server_report_agrees (cfg : GrpcConfig) (hen : cfg.publisher.Enabled) (h : String) (tr : List GrpcOp)
    (s : GrpcSys) (hr : run (step cfg) init tr = some s) (hord : Along (step cfg) (InIssueOrder h) init tr) :
    (Always (step cfg) (Agrees h) init tr ↔ Along (step cfg) (ReportedInTurn h) init tr) ∧
    (Along (step cfg) (ReportedInTurn h) init tr → s.NothingOutstanding h →
      ((s.serverStatuses h).getLast? = some "installed" ↔ s.streams.reachable h = true)) := by
  have hiff : Always (step cfg) (Agrees h) init tr ↔ Along (step cfg) (ReportedInTurn h) init tr :=
    always_iff_along_of_along (I := fun _ => True) (fun _ _ _ _ _ _ => trivial)
      (fun _ _ _ ho _ hA hs => agrees_step_iff hen hs ho hA) hord trivial agrees_init hr
  refine ⟨hiff, fun hturn hnone => ?_⟩
  have hA : s.Agrees h := (hiff.2 hturn).last hr
  rwa [Agrees, verdict, if_neg hnone.2, hnone.1, List.append_nil] at hA

instance (h : String) (s : GrpcSys) : ∀ a, Decidable (s.InIssueOrder h a)
  | .publish k => inferInstanceAs (Decidable (∀ p ∈ s.publishing[k]?,
      (resourceStatusPayload p.update).ofServer h = true →
        ∀ q ∈ s.publishing.take k, (resourceStatusPayload q.update).ofServer h = false))
  | .reportExit i => inferInstanceAs (Decidable (∀ t ∈ s.tasks[i]?, t.hostId = h → s.unpublished h = []))
  | .reportStale => inferInstanceAs (Decidable (s.heartbeat.unreported.head? = some h → s.unpublished h = []))
  | .connect _ _ | .hold _ _ _ | .release _ | .statusUpdate _ _ | .pong _ _ | .ignore _ | .leave _ | .remove _
  | .enqueue _ _ | .take _ | .closeRx _ | .tick _ | .pingTargets | .ping _ | .sleep => isTrue trivial

instance (h : String) (s : GrpcSys) : ∀ a, Decidable (s.ReportedInTurn h a)
  | .connect a _ => inferInstanceAs (Decidable (a.hostId = h → ¬ s.ReportDue h))
  | .pong i now => inferInstanceAs (Decidable (∀ t ∈ s.tasks[i]?, t.hostId = h → (s.streams.touch h now).1 = true →
      0 < s.permits ∧ ¬ s.ReportDue h))
  | .statusUpdate _ update => inferInstanceAs (Decidable ((resourceStatusPayload update).ofServer h = true →
      0 < s.permits → ¬ s.ReportDue h → (update.status = "installed" ↔ s.streams.reachable h = true)))
  | .hold _ _ _ | .release _ | .ignore _ | .leave _ | .remove _ | .reportExit _ | .publish _ | .enqueue _ _ | .take _
  | .closeRx _ | .tick _ | .reportStale | .pingTargets | .ping _ | .sleep => isTrue trivial

/-- A host connects, is found stale and reported, and answers again. -/
def restoredTrace : List GrpcOp :=
  [.connect firstStream 0, .publish 0, .tick (fromSecs 60), .reportStale, .pong 0 (fromSecs 61), .publish 0]

theorem restored_host_installed :
    ∃ s, run (step publishingConfig) init restoredTrace = some s ∧ s.NothingOutstanding "100.64.0.5" ∧
      ((s.serverStatuses "100.64.0.5").getLast? = some "installed" ↔ s.streams.reachable "100.64.0.5" = true) := by
  obtain ⟨s, hs⟩ : ∃ s, run (step publishingConfig) init restoredTrace = some s :=
    Option.isSome_iff_exists.1 (by decide)
  have hnone : ∀ s ∈ run (step publishingConfig) init restoredTrace, s.NothingOutstanding "100.64.0.5" := by
    decide
  have hturn : Along (step publishingConfig) (ReportedInTurn "100.64.0.5") init restoredTrace := by decide
  have hagrees := server_report_agrees publishingConfig (by decide) "100.64.0.5" restoredTrace s hs (by decide)
  exact ⟨s, hs, hnone s hs, hagrees.2 hturn (hnone s hs)⟩

/-- A stream ends and removes its host, the host reconnects, and only then is the end of the first stream reported. -/
def reconnectedTrace : List GrpcOp :=
  [.connect firstStream 0, .publish 0, .leave 0, .remove 0, .connect secondStream 5, .publish 0, .reportExit 0]

/-- Everything is published in the order in which it is issued and nothing is outstanding: the host has a reachable entry,
and Laravel was told last that it is unreachable. -/
theorem reconnected_host_unreachable :
    Along (step publishingConfig) (InIssueOrder "100.64.0.5") init reconnectedTrace ∧
    ∃ s ∈ run (step publishingConfig) init reconnectedTrace,
      s.NothingOutstanding "100.64.0.5" ∧ s.streams.reachable "100.64.0.5" = true ∧
        (s.serverStatuses "100.64.0.5").getLast? = some "unreachable" := by
  constructor
  · decide
  · decide

end GrpcSys

end Coold.Flux
