import Coold.Flux.BridgeRuns

/-!
# Dispatches on a stream that drops

A dispatch that has sent its command waits for the response until its timeout.  When the stream ends, its task removes
the host from the stream map and reports it unreachable; it does not look at the pending map.

`DropOk` says what the callers are promised: once the task of a stream has finished, no entry waits for a command that
was sent on the stream, and a dispatch whose entry was waiting then returns 503.  Since nothing on the exit path removes
an entry, this holds along a run exactly when there is never one to remove (`NothingLeft`): no entry waits for a command
of the stream when the task finishes, and none is sent on it afterwards.
-/

namespace Coold.Flux

open Lts

/-- The entry has no response yet. -/
def PendingState.isWaiting {β : Type} : PendingState β → Bool
  | .waiting _ => true
  | .landed _ _ => false

namespace Dispatch

/-- The entry that the dispatch has inserted is there and waits for the response. -/
def waits (x : Dispatch) (pend : PendingSys Answer) : Bool :=
  (pend.entry x.env.requestId).any fun e => decide (e.gen = x.gen) && e.state.isWaiting

/-- The dispatch is past its insertion. -/
def past (x : Dispatch) : Bool :=
  match x.pc with
  | .received | .routed _ | .sampled _ => false
  | _ => true

/-- The dispatch has inserted its entry and not sent its command yet. -/
def linked (x : Dispatch) : Bool :=
  match x.pc with
  | .inserted _ | .parked _ _ | .found _ _ _ => true
  | _ => false

end Dispatch

/-- The stream on which a step sends the command of a dispatch, with the dispatch. -/
def BridgeSys.sends (s : BridgeSys) : BridgeOp → Option (Nat × Nat)
  | .advance d _ =>
    match s.dispatches[d]? with
    | some ⟨_, _, .found _ _ tx⟩ => if s.grpc.trySend tx = some .sent then some (tx, d) else none
    | _ => none
  | _ => none

/-- The bridge, with two records: which dispatch has sent its command on which stream, and which dispatches were waiting
for a command on a stream when its task finished. -/
structure DropSys where
  bridge : BridgeSys
  enqueued : List (Nat × Nat)
  dropped : List Nat

namespace DropSys

def init : DropSys := ⟨.init, [], []⟩

/-- The entry of a dispatch waits for the response. -/
def waits (s : DropSys) (d : Nat) : Bool := s.bridge.dispatches[d]?.any fun x => x.waits s.bridge.pend

/-- The dispatches that wait for a command on a stream. -/
def waiting (s : DropSys) (i : Nat) : List Nat :=
  (s.enqueued.filter fun p => decide (p.1 = i) && s.waits p.2).map Prod.snd

/-- The dispatches that a step drops. -/
def drops (s : DropSys) : BridgeOp → List Nat
  | .grpc (.reportExit i) => s.waiting i
  | _ => []

def step (cfg : BridgeConfig) (s : DropSys) (a : BridgeOp) : Option DropSys :=
  (s.bridge.step cfg a).map fun bridge =>
    { bridge := bridge
      enqueued := s.enqueued ++ (s.bridge.sends a).toList
      dropped := s.dropped ++ s.drops a }

/-- The task of a stream has finished its exit path. -/
def Finished (s : DropSys) (i : Nat) : Prop := (s.bridge.grpc.tasks[i]?.map StreamTask.phase) = some .finished

instance (s : DropSys) (i : Nat) : Decidable (s.Finished i) :=
  inferInstanceAs (Decidable ((s.bridge.grpc.tasks[i]?.map StreamTask.phase) = some .finished))

/-- No entry waits for a command that was sent on a stream whose task has finished. -/
def NoneWaits (s : DropSys) : Prop := ∀ p ∈ s.enqueued, s.Finished p.1 → s.waits p.2 = false

/-- What the callers are promised of a stream that drops. -/
structure DropOk (s : DropSys) : Prop where
  settled : s.NoneWaits
  answered : ∀ d ∈ s.dropped, ∀ x ∈ s.bridge.dispatches[d]?, ∀ outcome, x.pc = .returned outcome →
    ∃ message, outcome = .error 503 message

/-- What a step needs of the state before it. -/
def NothingLeft (s : DropSys) (a : BridgeOp) : Prop :=
  s.drops a = [] ∧ ∀ p ∈ s.bridge.sends a, s.Finished p.1 → s.waits p.2 = false

instance (s : DropSys) (a : BridgeOp) : Decidable (s.NothingLeft a) :=
  inferInstanceAs (Decidable (s.drops a = [] ∧ ∀ p ∈ s.bridge.sends a, s.Finished p.1 → s.waits p.2 = false))

end DropSys

/-! ### What a step does to a task and to a dispatch -/

/-- The task of a stream has finished before, or this step reports its exit. -/
private theorem GrpcSys.finished_step {cfg : GrpcConfig} {s s' : GrpcSys} {a : GrpcOp} (h : s.step cfg a = some s')
    {i : Nat}
    (hf : s'.tasks[i]?.map StreamTask.phase = some .finished) :
    a = .reportExit i ∨ s.tasks[i]?.map StreamTask.phase = some .finished := by
  have hmod : ∀ {j : Nat} {f : StreamTask → StreamTask}, s'.tasks = s.tasks.modify j f →
      (∀ t, (f t).phase = .finished → j = i → t.phase = .finished) →
      s.tasks[i]?.map StreamTask.phase = some .finished := by
    intro j f htasks hphase
    rw [htasks, List.getElem?_modify] at hf
    obtain ⟨t', ht', hfin⟩ := Option.map_eq_some_iff.1 hf
    obtain ⟨t, ht, rfl⟩ := Option.map_eq_some_iff.1 ht'
    rw [ht, Option.map_some]
    split at hfin
    · rename_i hij
      rw [hphase t hfin hij]
    · exact congrArg some hfin
  have hsame : s'.tasks = s.tasks → s.tasks[i]?.map StreamTask.phase = some .finished := by
    intro htasks
    rw [← htasks, hf]
  cases a with
  | connect ad now =>
    obtain rfl := Option.some.inj h
    rw [connect, List.getElem?_append] at hf
    split at hf
    · exact Or.inr hf
    · obtain ⟨t, ht, hfin⟩ := Option.map_eq_some_iff.1 hf
      rw [List.mem_singleton.1 (List.mem_of_getElem? ht)] at hfin
      cases hfin
  | reportExit j =>
    obtain ⟨t, -, rfl⟩ := Option.map_eq_some_iff.1 h
    by_cases hij : j = i
    · exact Or.inl (hij ▸ rfl)
    · exact Or.inr (hmod rfl fun t _ heq => absurd heq hij)
  | hold j resp gen | leave j | remove j =>
    obtain ⟨t, -, rfl⟩ := Option.map_eq_some_iff.1 h
    refine Or.inr (hmod rfl fun t hfin _ => ?_)
    cases hfin
  | take j | closeRx j =>
    obtain ⟨t, -, rfl⟩ := Option.map_eq_some_iff.1 h
    exact Or.inr (hmod rfl fun t hfin _ => hfin)
  | statusUpdate j update =>
    obtain ⟨t, -, rfl⟩ := Option.map_eq_some_iff.1 h
    exact Or.inr (hsame (tasks_spawnBoundedPublish _ _ _))
  | pong j now =>
    obtain ⟨t, -, rfl⟩ := Option.map_eq_some_iff.1 h
    exact Or.inr (hsame (tasks_pong _ _ _ _))
  | ignore j | publish k =>
    obtain ⟨t, -, rfl⟩ := Option.map_eq_some_iff.1 h
    exact Or.inr (hsame rfl)
  | release j =>
    simp only [step] at h
    split at h
    · obtain rfl := Option.some.inj h
      refine Or.inr (hmod rfl fun t hfin _ => ?_)
      cases hfin
    · cases h
  | enqueue j msg =>
    simp only [step] at h
    split at h
    · obtain rfl := Option.some.inj h
      exact Or.inr (hmod rfl fun t hfin _ => hfin)
    · cases h
  | tick now | reportStale | pingTargets | sleep =>
    simp only [step] at h
    split at h
    · obtain rfl := Option.some.inj h
      exact Or.inr (hsame rfl)
    · cases h
  | ping requestId =>
    simp only [step] at h
    split at h
    · split at h
      · obtain rfl := Option.some.inj h
        exact Or.inr (hmod rfl fun t hfin _ => hfin)
      · obtain rfl := Option.some.inj h
        exact Or.inr (hsame rfl)
      · cases h
    · cases h

namespace BridgeSys

variable {cfg : BridgeConfig} {s s' : BridgeSys} {a : BridgeOp}

/-- A dispatch past its insertion stays so, with its envelope and its insertion. -/
private theorem past_step (hs : s.step cfg a = some s') {d : Nat} {x : Dispatch} (hx : s.dispatches[d]? = some x)
    (hpast : x.past = true) :
    ∃ x', s'.dispatches[d]? = some x' ∧ x'.past = true ∧ x'.env = x.env ∧ x'.gen = x.gen := by
  have hset : ∀ {d' : Nat} {y y' : Dispatch}, s.dispatches[d']? = some y →
      (y.past = true → y'.past = true ∧ y'.env = y.env ∧ y'.gen = y.gen) →
      ∃ x', (s.dispatches.set d' y')[d]? = some x' ∧ x'.past = true ∧ x'.env = x.env ∧ x'.gen = x.gen := by
    intro d' y y' hy hkeep
    by_cases hd : d' = d
    · subst hd
      obtain rfl := Option.some.inj (hx.symm.trans hy)
      refine ⟨y', ?_, hkeep hpast⟩
      rw [List.getElem?_set_self (List.getElem?_eq_some_iff.1 hx).1]
    · exact ⟨x, by rw [List.getElem?_set_ne hd, hx], hpast, rfl, rfl⟩
  cases step_sound hs with
  | dispatch env =>
    exact ⟨x, (List.getElem?_append_left (List.getElem?_eq_some_iff.1 hx).1).trans hx, hpast, rfl, rfl⟩
  | advance d' now y y' grpc pend hy hm =>
    refine hset hy fun hy => ?_
    -- a move up to the insertion does not start from a dispatch past it
    cases hm with
    | route handle hpc _ _ | sample msg hpc _ | insert msg hpc _ | duplicate msg code message hpc _ =>
      simp [Dispatch.past, hpc] at hy
    | _ => exact ⟨rfl, rfl, rfl⟩
  | timeout d' y rx code message hy hpc => exact hset hy fun _ => ⟨rfl, rfl, rfl⟩
  | abandon d' y rx hy hpc => exact hset hy fun _ => ⟨rfl, rfl, rfl⟩
  | _ => exact ⟨x, hx, hpast, rfl, rfl⟩

/-- A dispatch that has inserted and not sent carries the number of an insertion that was made. -/
def GensFresh (s : BridgeSys) : Prop := ∀ x ∈ s.dispatches, x.linked = true → x.gen < s.pend.pending.gens

private theorem gensFresh_step (hI : s.InsertsMatch cfg) (h : s.GensFresh) (hs : s.step cfg a = some s') :
    s'.GensFresh := by
  have hgens := gens_step hI hs
  have hold : ∀ x ∈ s.dispatches, x.linked = true → x.gen < s'.pend.pending.gens :=
    fun x hx hl => lt_of_lt_of_le (h x hx hl) hgens
  have hset : ∀ {d : Nat} {y : Dispatch}, (y.linked = true → y.gen < s'.pend.pending.gens) →
      ∀ x ∈ s.dispatches.set d y, x.linked = true → x.gen < s'.pend.pending.gens := by
    intro d y hy x hx
    rcases List.mem_or_eq_of_mem_set hx with hx | rfl
    · exact hold x hx
    · exact hy
  cases step_sound hs with
  | dispatch env =>
    intro x hx hl
    rcases List.mem_append.1 hx with hx | hx
    · exact hold x hx hl
    · rw [List.mem_singleton.1 hx] at hl
      cases hl
  | advance d now y y' grpc pend hy hm =>
    refine hset fun hl => ?_
    have hy' := hold y (List.mem_of_getElem? hy)
    cases hm with
    -- the insertion takes the next number
    | insert msg hpc he =>
      simp only [PendingSys.insertEntry, Pending.insertEntry, insertCall]
      rw [show s.pend.pending.entry y.env.requestId = none from he]
      exact Nat.lt_succ_self _
    | park msg rx hpc _ | lookup msg rx tx hpc _ => exact hy' (by simp only [Dispatch.linked, hpc])
    | _ => cases hl
  | timeout d y rx code message hy hpc =>
    refine hset fun hl => ?_
    cases hl
  | abandon d y rx hy hpc =>
    refine hset fun hl => ?_
    cases hl
  | _ => exact hold

private theorem waits_iff {x : Dispatch} {pend : PendingSys Answer} : x.waits pend = true ↔
    ∃ e, pend.entry x.env.requestId = some e ∧ e.gen = x.gen ∧ e.state.isWaiting = true := by
  rw [Dispatch.waits, Option.any_eq_true]
  simp only [Bool.and_eq_true, decide_eq_true_eq]

/-- An entry that waits for the response to a dispatch was waiting for it before. -/
private theorem waits_of_waits_step (hI : s.InsertsMatch cfg) (hs : s.step cfg a = some s') {x : Dispatch}
    (hgen : x.gen < s.pend.pending.gens) (hw : x.waits s'.pend = true) : x.waits s.pend = true := by
  rcases pend_step hI hs with heq | ⟨op, hop, -⟩
  · rwa [heq] at hw
  · obtain ⟨e', he', hgen', hstate⟩ := waits_iff.1 hw
    rw [PendingSys.entry, PendingSys.step_pending hop] at he'
    have hwait : (op.apply s.pend.pending).Waiting x.env.requestId := by
      cases hst : e'.state with
      | waiting l => exact ⟨e', l, he', hst⟩
      | landed b u =>
        rw [hst] at hstate
        cases hstate
    rcases Pending.entry_of_entry_apply he' with ⟨e, he, -, hsame⟩ | ⟨-, call, now, -, -, -, hnew⟩
    · rcases Pending.waiting_of_waiting_apply hwait with ⟨e₀, l, he₀, hst⟩ | hins
      · obtain rfl := Option.some.inj (he.symm.trans he₀)
        exact waits_iff.2 ⟨e, he, hsame ▸ hgen', by rw [hst]; rfl⟩
      · rw [hins.2] at he
        cases he
    · -- an entry of this step is newer than the insertion of the dispatch
      omega

/-- A step that sends a command. -/
private theorem sends_step (hs : s.step cfg a = some s') {p : Nat × Nat} (hp : s.sends a = some p) :
    ∃ now x msg rx, a = .advance p.2 now ∧ s.dispatches[p.2]? = some x ∧ x.pc = .found msg rx p.1 ∧
      s' = ⟨s.grpc.modifyTask p.1 fun t => t.push msg, s.pend, s.dispatches.set p.2 (x.goto (.awaiting rx))⟩ := by
  cases a with
  | advance d now =>
    simp only [sends] at hp
    split at hp
    · rename_i env gen msg rx tx hx
      split at hp
      · rename_i hsend
        obtain rfl := Option.some.inj hp
        refine ⟨now, _, msg, rx, rfl, hx, rfl, ?_⟩
        simp only [step, hx, Option.bind_some, advance, hsend, Option.some.injEq] at hs
        exact hs.symm
      · cases hp
    · cases hp
  | _ => cases hp

end BridgeSys

namespace DropSys

variable {cfg : BridgeConfig} {s s' : DropSys} {a : BridgeOp}

private theorem step_eq (h : s.step cfg a = some s') : s.bridge.step cfg a = some s'.bridge ∧
    s'.enqueued = s.enqueued ++ (s.bridge.sends a).toList ∧ s'.dropped = s.dropped ++ s.drops a := by
  obtain ⟨bridge, hb, rfl⟩ := Option.map_eq_some_iff.1 h
  exact ⟨hb, rfl, rfl⟩

/-- A dispatch that has sent its command is past its insertion, which was made. -/
structure Linked (cfg : BridgeConfig) (s : DropSys) : Prop where
  inserts : s.bridge.InsertsMatch cfg
  gens : s.bridge.GensFresh
  sent : ∀ p ∈ s.enqueued, ∃ x, s.bridge.dispatches[p.2]? = some x ∧ x.past = true ∧
    x.gen < s.bridge.pend.pending.gens

private theorem linked_init : init.Linked cfg :=
  ⟨List.Perm.nil, fun _ hx => absurd hx List.not_mem_nil, fun _ hp => absurd hp List.not_mem_nil⟩

/-- The dispatch that sends its command in a step. -/
private theorem sending (hL : s.Linked cfg) {p : Nat × Nat} {x : Dispatch} {msg : ServerMsg} {rx tx : Nat}
    (hx : s.bridge.dispatches[p.2]? = some x) (hpc : x.pc = .found msg rx tx) :
    x.past = true ∧ x.gen < s.bridge.pend.pending.gens :=
  ⟨by simp only [Dispatch.past, hpc], hL.gens x (List.mem_of_getElem? hx) (by simp only [Dispatch.linked, hpc])⟩

private theorem Linked.step (hL : s.Linked cfg) (hs : s.step cfg a = some s') : s'.Linked cfg := by
  obtain ⟨hb, henq, -⟩ := step_eq hs
  refine ⟨BridgeSys.insertsMatch_step hL.inserts hb, BridgeSys.gensFresh_step hL.inserts hL.gens hb, ?_⟩
  have hkeep : ∀ (d : Nat) (x : Dispatch), s.bridge.dispatches[d]? = some x → x.past = true →
      x.gen < s.bridge.pend.pending.gens →
      ∃ x', s'.bridge.dispatches[d]? = some x' ∧ x'.past = true ∧ x'.gen < s'.bridge.pend.pending.gens := by
    intro d x hx hpast hgen
    obtain ⟨x', hx', hpast', -, hgen'⟩ := BridgeSys.past_step hb hx hpast
    exact ⟨x', hx', hpast', hgen' ▸ lt_of_lt_of_le hgen (BridgeSys.gens_step hL.inserts hb)⟩
  intro p hp
  rw [henq] at hp
  rcases List.mem_append.1 hp with hp | hp
  · obtain ⟨x, hx, hpast, hgen⟩ := hL.sent p hp
    exact hkeep p.2 x hx hpast hgen
  · obtain ⟨now, x, msg, rx, -, hx, hpc, -⟩ := BridgeSys.sends_step hb (Option.mem_toList.1 hp)
    obtain ⟨hpast, hgen⟩ := sending hL hx hpc
    exact hkeep p.2 x hx hpast hgen

/-- The entry of a dispatch past its insertion does not become waiting. -/
private theorem waits_step (hL : s.Linked cfg) (hs : s.step cfg a = some s') {d : Nat} {x : Dispatch}
    (hx : s.bridge.dispatches[d]? = some x) (hpast : x.past = true) (hgen : x.gen < s.bridge.pend.pending.gens)
    (hw : s.waits d = false) : s'.waits d = false := by
  obtain ⟨hb, -, -⟩ := step_eq hs
  obtain ⟨x', hx', -, henv, hgen'⟩ := BridgeSys.past_step hb hx hpast
  have hsame : x'.waits s'.bridge.pend = x.waits s'.bridge.pend := by
    rw [Dispatch.waits, henv, hgen', Dispatch.waits]
  rw [waits, hx, Option.any_some] at hw
  rw [waits, hx', Option.any_some, hsame]
  by_contra hne
  have hold := BridgeSys.waits_of_waits_step hL.inserts hb hgen (Bool.eq_true_of_not_eq_false hne)
  rw [hold] at hw
  cases hw

private theorem mem_waiting {i d : Nat} : d ∈ s.waiting i ↔ (i, d) ∈ s.enqueued ∧ s.waits d = true := by
  simp only [waiting, List.mem_map, List.mem_filter, Bool.and_eq_true, decide_eq_true_eq]
  constructor
  · rintro ⟨⟨i', d'⟩, ⟨hmem, rfl, hw⟩, rfl⟩
    exact ⟨hmem, hw⟩
  · rintro ⟨hmem, hw⟩
    exact ⟨(i, d), ⟨hmem, rfl, hw⟩, rfl⟩

/-- The task of a stream has finished before, or this step reports its exit. -/
private theorem finished_step (hs : s.step cfg a = some s') {i : Nat} (hf : s'.Finished i) :
    a = .grpc (.reportExit i) ∨ s.Finished i := by
  rcases BridgeSys.grpc_step (step_eq hs).1 with heq | ⟨op, hop, hc⟩
  · exact Or.inr (by rwa [Finished, heq] at hf)
  · rcases GrpcSys.finished_step hop hf with rfl | hf
    · cases hc
      exact Or.inl rfl
    · exact Or.inr hf

private theorem noneWaits_step (hL : s.Linked cfg) (hn : s.NoneWaits) (hleft : s.NothingLeft a)
    (hs : s.step cfg a = some s') : s'.NoneWaits := by
  obtain ⟨hb, henq, -⟩ := step_eq hs
  intro p hp hfin
  rw [henq] at hp
  rcases List.mem_append.1 hp with hold | hnew
  · obtain ⟨x, hx, hpast, hgen⟩ := hL.sent p hold
    refine waits_step hL hs hx hpast hgen ?_
    rcases finished_step hs hfin with rfl | hfin
    · by_contra hne
      have hmem : p.2 ∈ s.waiting p.1 := mem_waiting.2 ⟨hold, Bool.eq_true_of_not_eq_false hne⟩
      rw [show s.waiting p.1 = [] from hleft.1] at hmem
      cases hmem
    · exact hn p hold hfin
  · have hnew := Option.mem_toList.1 hnew
    obtain ⟨now, x, msg, rx, rfl, hx, hpc, -⟩ := BridgeSys.sends_step hb hnew
    obtain ⟨hpast, hgen⟩ := sending hL hx hpc
    refine waits_step hL hs hx hpast hgen (hleft.2 p hnew ?_)
    rcases finished_step hs hfin with heq | hfin
    · cases heq
    · exact hfin

/-- The exit that a step reports is the last thing that the task does. -/
private theorem finished_reportExit {i : Nat} (hs : s.step cfg (.grpc (.reportExit i)) = some s') :
    s'.Finished i ∧ s'.bridge.pend = s.bridge.pend ∧ s'.bridge.dispatches = s.bridge.dispatches := by
  obtain ⟨grpc, hg, hb⟩ := Option.map_eq_some_iff.1 (step_eq hs).1
  obtain ⟨t, ht, rfl⟩ := Option.map_eq_some_iff.1 hg
  obtain ⟨ht, -⟩ := GrpcSys.taskAt_eq_some.1 ht
  refine ⟨?_, by rw [← hb], by rw [← hb]⟩
  rw [Finished, ← hb, GrpcSys.post, GrpcSys.setPhase, GrpcSys.getElem?_tasks_modifyTask, ht]
  simp only [Option.map_some, if_true]

private theorem waits_congr {d : Nat} (hpend : s'.bridge.pend = s.bridge.pend)
    (hdisp : s'.bridge.dispatches = s.bridge.dispatches) : s'.waits d = s.waits d := by
  rw [waits, hpend, hdisp, waits]

private theorem nothingLeft_of_noneWaits (hs : s.step cfg a = some s') (hn : s'.NoneWaits) : s.NothingLeft a := by
  obtain ⟨hb, henq, -⟩ := step_eq hs
  constructor
  · cases a with
    | grpc op =>
      cases op with
      | reportExit i =>
        obtain ⟨hfin, hpend, hdisp⟩ := finished_reportExit hs
        refine List.eq_nil_iff_forall_not_mem.2 fun d hd => ?_
        obtain ⟨hmem, hw⟩ := mem_waiting.1 hd
        have hnot := hn (i, d) (henq ▸ List.mem_append_left _ hmem) hfin
        rw [waits_congr hpend hdisp, hw] at hnot
        cases hnot
      | _ => rfl
    | _ => rfl
  · intro p hp hfin
    obtain ⟨now, x, msg, rx, rfl, hx, hpc, hs'⟩ := BridgeSys.sends_step hb hp
    have hmem : p ∈ s'.enqueued := henq ▸ List.mem_append_right _ (Option.mem_toList.2 hp)
    have hfin' : s'.Finished p.1 := by
      obtain ⟨t, ht, hphase⟩ := Option.map_eq_some_iff.1 hfin
      rw [Finished, hs', GrpcSys.getElem?_tasks_modifyTask, ht, Option.map_some, if_pos rfl]
      exact congrArg some hphase
    have hw := hn p hmem hfin'
    rw [waits, hs', List.getElem?_set_self (List.getElem?_eq_some_iff.1 hx).1, Option.any_some] at hw
    rw [waits, hx, Option.any_some]
    exact hw

/-! ### A whole run -/

/-- Once a stream's task has finished, nothing waits for a command that was sent on it and the dispatches that were
waiting return 503, in every state of a run exactly when no step of the run leaves anything waiting. -/
theorem dropped_stream_fails_iff (cfg : BridgeConfig) (tr : List BridgeOp) (s : DropSys)
    (hr : run (step cfg) init tr = some s) :
    Always (step cfg) DropOk init tr ↔ Along (step cfg) NothingLeft init tr := by
  have hinit : init.NoneWaits := fun _ hp => absurd hp List.not_mem_nil
  have hI : ∀ (s : DropSys) (a : BridgeOp) (s' : DropSys), True → s.Linked cfg → s.step cfg a = some s' →
      s'.Linked cfg := fun s a s' _ hL hs => hL.step hs
  constructor
  · intro h
    refine (always_iff_along_of_along (O := fun _ _ => True) (I := Linked cfg) (Q := NoneWaits) hI ?_
      (along_true _ _) linked_init hinit hr).1 (h.mono fun s hs => hs.settled)
    intro s a s' _ hL hn hs
    exact ⟨nothingLeft_of_noneWaits hs, fun hleft => noneWaits_step hL hn hleft hs⟩
  · intro h
    -- nothing is ever dropped, so that there is nothing to answer
    have hall : Always (step cfg) (fun s => s.NoneWaits ∧ s.dropped = []) init tr := by
      refine (always_iff_along_of_along (O := fun _ _ => True) (I := Linked cfg) hI ?_ (along_true _ _) linked_init
        ⟨hinit, rfl⟩ hr).2 h
      intro s a s' _ hL hq hs
      refine ⟨fun hq' => nothingLeft_of_noneWaits hs hq'.1, fun hleft => ⟨noneWaits_step hL hq.1 hleft hs, ?_⟩⟩
      rw [(step_eq hs).2.2, hq.2, hleft.1, List.append_nil]
    refine hall.mono fun s hs => ⟨hs.1, fun d hd => ?_⟩
    rw [hs.2] at hd
    cases hd

/-- The stream of the fixtures ends. -/
def streamEnds : List BridgeOp := [.grpc (.leave 0), .grpc (.remove 0), .grpc (.reportExit 0)]

/-- A stream that ends after its dispatch was answered. -/
theorem answered_before_drop :
    Along (step BridgeSys.sampleConfig) NothingLeft init (BridgeSys.answeredTrace ++ streamEnds) ∧
    Always (step BridgeSys.sampleConfig) DropOk init (BridgeSys.answeredTrace ++ streamEnds) := by
  have hleft : Along (step BridgeSys.sampleConfig) NothingLeft init (BridgeSys.answeredTrace ++ streamEnds) := by
    decide
  exact ⟨hleft, (dropped_stream_fails_iff BridgeSys.sampleConfig _ _ rfl).2 hleft⟩

/-- A stream that ends while its dispatch waits: the entry goes on waiting after the task has finished, and the dispatch
returns 504. -/
theorem dropped_dispatch_times_out :
    ∃ s s' x, run (step BridgeSys.sampleConfig) init
        (.grpc (.connect (BridgeSys.sampleStream "100.64.0.5") 0) :: BridgeSys.dispatched 0 0 ++ streamEnds) = some s ∧
      s.Finished 0 ∧ s.enqueued = [(0, 0)] ∧ s.waits 0 = true ∧ ¬ s.DropOk ∧
      s.step BridgeSys.sampleConfig (.timeout 0) = some s' ∧ 0 ∈ s'.dropped ∧ s'.bridge.dispatches[0]? = some x ∧
      x.pc = .returned (.error 504 "dispatch timeout") := by
  refine ⟨_, _, _, rfl, rfl, rfl, rfl, fun hok => ?_, rfl, List.mem_singleton_self _, rfl, rfl⟩
  exact absurd (hok.settled (0, 0) (List.mem_singleton_self _) rfl) (by decide)

end DropSys

end Coold.Flux
