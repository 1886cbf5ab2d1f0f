import Coold.Flux.UnixBridge

/-!
# What a dispatch returns

An answer reaches a dispatch in two hops: a response is delivered to the entry of its request id, and the entry
passes it on to the handlers that were parked on it.  A `Tie` says what should hold between a dispatch, the entry
it is parked on and the answer; if every park and every delivery of a run respects it, so does every answer that a
dispatch returns (`answer_of_tied`).

With the host as the tie (`hostTie`): a dispatch returns only answers that came on a stream of its host, provided
no response is delivered to the entry of another host.  With the insertion as the tie (`genTie`): a dispatch returns
no answer to an earlier dispatch, and its entry is not removed by a call that acted on an earlier one, provided that
request ids are reused freshly (`FreshReuse`).
-/

namespace Coold.Flux

open Lts

/-- What should hold between a dispatch (its envelope and insertion) and an entry (its request id, host and
insertion), between an entry and an answer delivered to it, and so between a dispatch and the answer it returns. -/
structure Tie where
  parks : DispatchEnvelope → Nat → String → String → Nat → Prop
  delivers : String → String → Nat → Answer → Prop
  returns : DispatchEnvelope → Nat → Answer → Prop
  trans : ∀ {env gen r hostId gen' a}, parks env gen r hostId gen' → delivers r hostId gen' a → returns env gen a

/-- The tie holds for a dispatch in a state of the pending map: for the entry it is parked on, for the body its
channel holds, and for the answer it returned. -/
structure Tied (tie : Tie) (p : Pending Answer) (x : Dispatch) : Prop where
  fresh : ∀ rx, x.rx = some rx → rx < p.oneshots.length
  parked : ∀ rx, x.rx = some rx → ∀ r, rx ∈ p.sinks r → ∀ e, p.entry r = some e →
    tie.parks x.env x.gen r e.hostId e.gen
  sent : ∀ rx, x.rx = some rx → ∀ a, p.oneshots[rx]? = some (.sent a) → tie.returns x.env x.gen a
  returned : ∀ a, x.answer = some a → tie.returns x.env x.gen a

namespace Tied

variable {tie : Tie} {p : Pending Answer} {x : Dispatch}

/-- A dispatch that is not parked and has no answer. -/
private theorem of_rx_none (hrx : x.rx = none) (ha : x.answer = none) : Tied tie p x := by
  refine ⟨?_, ?_, ?_, fun a h => by rw [ha] at h; cases h⟩ <;>
    · intro rx h
      rw [hrx] at h
      cases h

private theorem of_rx_eq {x' : Dispatch} (h : Tied tie p x) (henv : x'.env = x.env) (hgen : x'.gen = x.gen)
    (hrx : x'.rx = x.rx) (ha : x'.answer = none) : Tied tie p x' := by
  refine ⟨?_, ?_, ?_, fun a h => by rw [ha] at h; cases h⟩
  · rw [hrx]
    exact h.fresh
  · rw [hrx, henv, hgen]
    exact h.parked
  · rw [hrx, henv, hgen]
    exact h.sent

/-- A step on the pending map keeps the tie of a dispatch that does not move, if its deliveries respect it. -/
theorem apply (h : Tied tie p x) (op : PendingOp Answer)
    (hop : ∀ r a now, op = .deliver r a now → ∀ e, p.entry r = some e → tie.delivers r e.hostId e.gen a) :
    Tied tie (op.apply p) x := by
  refine ⟨?_, ?_, ?_, h.returned⟩
  · intro rx hrx
    exact lt_of_lt_of_le (h.fresh rx hrx) (Pending.length_oneshots_apply p op)
  · intro rx hrx r hm e' he'
    rcases Pending.mem_sinks_of_apply hm with hm | ⟨-, hlen⟩
    · rcases Pending.entry_of_entry_apply he' with ⟨e, he, hhost, hgen⟩ | ⟨hnone, -⟩
      · rw [hhost, hgen]
        exact h.parked rx hrx r hm e he
      · rw [Pending.sinks_of_entry_none hnone] at hm
        cases hm
    · -- the channel that this step creates is not the one of this dispatch
      have := h.fresh rx hrx
      omega
  · intro rx hrx a ha
    rcases Pending.sent_of_apply ha with ha | ⟨r, now, hdel, hm⟩
    · exact h.sent rx hrx a ha
    · obtain ⟨e, l, he, -⟩ := Pending.waiting_of_mem_sinks hm
      exact tie.trans (h.parked rx hrx r hm e he) (hop r a now hdel e he)

/-- A dispatch that parks is tied if the entry it finds respects the tie. -/
theorem park {msg : ServerMsg} {rx : Nat} (hopen : p.SinksOpen) (hrx : (p.parkLock x.env.requestId).1 = .parked rx)
    (hp : ∀ e, p.entry x.env.requestId = some e → tie.parks x.env x.gen x.env.requestId e.hostId e.gen) :
    Tied tie (p.parkLock x.env.requestId).2 (x.goto (.parked msg rx)) := by
  -- only a waiting entry parks its handler
  have hw : p.Waiting x.env.requestId := by
    by_contra hw
    cases he : p.entry x.env.requestId with
    | none =>
      rw [Pending.parkLock_of_none he] at hrx
      cases hrx
    | some e =>
      cases hs : e.state with
      | waiting l => exact hw ⟨e, l, he, hs⟩
      | landed b u =>
        rw [Pending.parkLock_of_landed he hs] at hrx
        cases hrx
  obtain ⟨e, l, he, hs⟩ := hw
  rw [Pending.parkLock_of_waiting he hs] at hrx ⊢
  obtain rfl : p.oneshots.length = rx := by simpa using hrx
  have hnew : ∀ rx, Dispatch.rx (x.goto (.parked msg p.oneshots.length)) = some rx → p.oneshots.length = rx := by
    intro rx h
    simpa [Dispatch.goto, Dispatch.rx] using h
  refine ⟨?_, ?_, ?_, fun a h => by cases h⟩
  · intro rx h
    rw [← hnew rx h]
    simp
  · intro rx h r hm e' he'
    obtain rfl := hnew rx h
    simp only [Pending.entry, Dict.lookup_insert_ite] at he'
    by_cases hr : r = x.env.requestId
    · rw [if_pos hr, Option.some.injEq] at he'
      rw [← he', hr]
      exact hp e he
    · -- a channel of another entry is older than this one
      have hold : p.oneshots.length ∈ p.sinks r := by
        simpa only [Pending.sinks, Pending.entry, Dict.lookup_insert_ite, if_neg hr] using hm
      obtain ⟨hlt, -⟩ := List.getElem?_eq_some_iff.1 (hopen r _ hold).1
      omega
  · intro rx h a ha
    obtain rfl := hnew rx h
    rw [List.getElem?_concat_length] at ha
    cases ha

end Tied

namespace BridgeSys

variable {cfg : BridgeConfig} {s s' : BridgeSys} {a : BridgeOp} {tie : Tie}

/-- The parks and the deliveries of a step respect the tie. -/
def Respects (cfg : BridgeConfig) (tie : Tie) (s : BridgeSys) : BridgeOp → Prop
  | .advance d _ => ∀ x msg e, s.dispatches[d]? = some x → x.pc = .inserted msg →
      s.pend.entry x.env.requestId = some e → tie.parks x.env x.gen x.env.requestId e.hostId e.gen
  | .deliver i _ => ∀ t resp gen body e, s.grpc.tasks[i]? = some t → t.phase = .delivering resp gen →
      ResponseBody.tryFromProto cfg.fromStr resp = some body → s.pend.entry resp.requestId = some e →
      tie.delivers resp.requestId e.hostId e.gen ⟨body, resp, t.hostId, gen⟩
  | _ => True

/-- The channels of parked handlers are open, and every dispatch is tied. -/
def AllTied (tie : Tie) (p : Pending Answer) (dispatches : List Dispatch) : Prop :=
  p.SinksOpen ∧ ∀ x ∈ dispatches, Tied tie p x

private theorem allTied_apply {p : Pending Answer} {dispatches : List Dispatch} (h : AllTied tie p dispatches)
    (op : PendingOp Answer)
    (hop : ∀ r a now, op = .deliver r a now → ∀ e, p.entry r = some e → tie.delivers r e.hostId e.gen a) :
    AllTied tie (op.apply p) dispatches :=
  ⟨Pending.sinksOpen_apply h.1 op, fun x hx => (h.2 x hx).apply op hop⟩

/-- A dispatch moves and the others stay tied. -/
private theorem allTied_set {p : Pending Answer} {dispatches : List Dispatch} {d : Nat} {x' : Dispatch}
    (h : AllTied tie p dispatches) (hx' : Tied tie p x') : AllTied tie p (dispatches.set d x') := by
  refine ⟨h.1, fun y hy => ?_⟩
  rcases List.mem_or_eq_of_mem_set hy with hy | rfl
  · exact h.2 y hy
  · exact hx'

private theorem pending_sample (p : PendingSys Answer) (call : InsertCall) :
    (p.sample call).2.pending = (PendingOp.sample call : PendingOp Answer).apply p.pending := by
  unfold PendingSys.sample
  split <;> rfl

private theorem allTied_moved {d now : Nat} {x x' : Dispatch} {grpc : GrpcSys} {pend : PendingSys Answer}
    (h : AllTied tie s.pend.pending s.dispatches) (ha : s.Respects cfg tie (.advance d now))
    (hx : s.dispatches[d]? = some x) (hm : Moved cfg s now x x' grpc pend) :
    AllTied tie pend.pending (s.dispatches.set d x') := by
  have htied : Tied tie s.pend.pending x := h.2 x (List.mem_of_getElem? hx)
  cases hm with
  | route handle hpc hget hcap => exact allTied_set h (.of_rx_none rfl rfl)
  | reject code message hpc => exact allTied_set h (.of_rx_none rfl rfl)
  | sample msg hpc hok =>
    rw [pending_sample]
    exact allTied_set (allTied_apply h _ (by simp)) (.of_rx_none rfl rfl)
  | insert msg hpc he =>
    exact allTied_set (allTied_apply h (.insertEntry (insertCall cfg x) now) (by simp)) (.of_rx_none rfl rfl)
  | duplicate msg code message hpc he =>
    exact allTied_set (allTied_apply h (.insertEntry (insertCall cfg x) now) (by simp)) (.of_rx_none rfl rfl)
  | park msg rx hpc hrx =>
    refine allTied_set (allTied_apply h (.park x.env.requestId) (by simp)) (Tied.park h.1 hrx fun e he => ?_)
    exact ha x msg e hx hpc he
  | lost msg code message hpc =>
    exact allTied_set (allTied_apply h (.park x.env.requestId) (by simp)) (.of_rx_none rfl rfl)
  | lookup msg rx tx hpc htx =>
    refine allTied_set h (htied.of_rx_eq rfl rfl ?_ rfl)
    simp [Dispatch.rx, Dispatch.goto, hpc]
  | failing code message hpc => exact allTied_set h (.of_rx_none rfl rfl)
  | send msg rx tx hpc hsend =>
    refine allTied_set h (htied.of_rx_eq rfl rfl ?_ rfl)
    simp [Dispatch.rx, Dispatch.goto, hpc]
  | abort code message hpc =>
    exact allTied_set (allTied_apply h (.remove x.env.requestId) (by simp)) (.of_rx_none rfl rfl)
  | answer rx b hpc hb =>
    -- what is returned is what the channel of the dispatch held
    have hnone : (x.goto (.returned (.answer b))).rx = none := rfl
    refine allTied_set h ⟨by simp [hnone], by simp [hnone], by simp [hnone], fun b' hb' => ?_⟩
    obtain rfl := Option.some.inj hb'
    exact htied.sent rx (by simp [Dispatch.rx, hpc]) b hb

private theorem allTied_step (h : AllTied tie s.pend.pending s.dispatches) (ha : s.Respects cfg tie a)
    (hs : s.step cfg a = some s') : AllTied tie s'.pend.pending s'.dispatches := by
  cases step_sound hs with
  | grpc op grpc _ _ => exact h
  | hold i resp gen t _ _ => exact h
  | drop i resp gen => exact h
  | deliver i now t resp gen body ht hp hbody =>
    refine allTied_apply h (.deliver resp.requestId ⟨body, resp, t.hostId, gen⟩ now) ?_
    intro r b now' hop e he
    simp only [PendingOp.deliver.injEq] at hop
    obtain ⟨rfl, rfl, -⟩ := hop
    exact ha t resp gen body e ht hp hbody he
  | dispatch env =>
    refine ⟨h.1, fun x hx => ?_⟩
    rcases List.mem_append.1 hx with hx | hx
    · exact h.2 x hx
    · obtain rfl := List.mem_singleton.1 hx
      exact .of_rx_none rfl rfl
  | advance d now x x' grpc pend hx hm => exact allTied_moved h ha hx hm
  | timeout d x rx code message hx _ => exact allTied_set h (.of_rx_none rfl rfl)
  | abandon d x rx hx _ => exact allTied_set h (.of_rx_none rfl rfl)
  | drainSample now => exact h
  | finish removal _ => exact allTied_apply h (.finish removal) (by simp)

/-- In a run that respects a tie, every answer that a dispatch has returned does. -/
theorem answer_of_tied {tr : List BridgeOp} {x : Dispatch} {b : Answer}
    (hr : run (step cfg) init tr = some s) (h : Along (step cfg) (Respects cfg tie) init tr) (hx : x ∈ s.dispatches)
    (hb : x.pc = .returned (.answer b)) : tie.returns x.env x.gen b := by
  have hinv : AllTied tie s.pend.pending s.dispatches :=
    invariant (I := fun s => AllTied tie s.pend.pending s.dispatches) (fun _ _ _ hI ha hs => allTied_step hI ha hs)
      ⟨PendingSys.sinksOpen_init, fun _ hx => absurd hx List.not_mem_nil⟩ h hr
  exact (hinv.2 x hx).returned b (by simp only [Dispatch.answer, hb])

/-! ### The host of an answer -/

/-- A dispatch parks on an entry for its own host, and a response is delivered to an entry for the host of the
stream it came on. -/
def SameHost (s : BridgeSys) : BridgeOp → Prop
  | .advance d _ => ∀ x ∈ s.dispatches[d]?, x.parks = true →
      ∀ e ∈ s.pend.entry x.env.requestId, e.hostId = x.env.hostId
  | .deliver i _ => ∀ t ∈ s.grpc.tasks[i]?, ∀ h ∈ t.held, ∀ e ∈ s.pend.entry h.1.requestId, e.hostId = t.hostId
  | _ => True

instance (s : BridgeSys) (a : BridgeOp) : Decidable (s.SameHost a) := by
  cases a <;> unfold SameHost <;> infer_instance

/-- The host as the tie. -/
def hostTie (cfg : BridgeConfig) : Tie where
  parks env _ r hostId _ := r = env.requestId ∧ hostId = env.hostId
  delivers r hostId _ a := a.resp.requestId = r ∧ a.hostId = hostId ∧
    ResponseBody.tryFromProto cfg.fromStr a.resp = some a.body
  returns env _ a := a.resp.requestId = env.requestId ∧ a.hostId = env.hostId ∧
    ResponseBody.tryFromProto cfg.fromStr a.resp = some a.body
  trans := by
    rintro env gen r hostId gen' a ⟨rfl, rfl⟩ h
    exact h

private theorem parks_of_inserted {x : Dispatch} {msg : ServerMsg} (h : x.pc = .inserted msg) : x.parks = true := by
  simp only [Dispatch.parks, h]

private theorem held_of_delivering {t : StreamTask} {resp : Response} {gen : Nat}
    (h : t.phase = .delivering resp gen) : t.held = some (resp, gen) := by
  simp only [StreamTask.held, h]

private theorem respects_hostTie (h : s.SameHost a) : s.Respects cfg (hostTie cfg) a := by
  cases a with
  | advance d now => exact fun x msg e hx hpc he => ⟨rfl, h x hx (parks_of_inserted hpc) e he⟩
  | deliver i now =>
    intro t resp gen body e ht hp hbody he
    exact ⟨rfl, (h t ht _ (held_of_delivering hp) e he).symm, hbody⟩
  | _ => trivial

/-- In every run in which dispatches park on entries for their own host and responses are delivered to entries for
the host of their stream, a dispatch returns only answers made from a response that carries its request id and
came on a stream of its host. -/
theorem answers_come_from_host (cfg : BridgeConfig) (tr : List BridgeOp) (s : BridgeSys)
    (hr : run (step cfg) init tr = some s) (h : Along (step cfg) SameHost init tr) (x : Dispatch)
    (hx : x ∈ s.dispatches) (b : Answer) (hb : x.pc = .returned (.answer b)) :
    b.resp.requestId = x.env.requestId ∧ b.hostId = x.env.hostId ∧
      ResponseBody.tryFromProto cfg.fromStr b.resp = some b.body := by
  have htied : Along (step cfg) (Respects cfg (hostTie cfg)) init tr :=
    along_mono (I := fun _ => True) (fun _ _ _ _ _ _ => trivial) (fun _ _ _ ha => respects_hostTie ha) trivial h
  exact answer_of_tied hr htied hx hb

def sampleStream (hostId : String) : Admission := ⟨hostId, ["coold.logs"], ["coold.logs"], 1000⟩

def sampleEnv : DispatchEnvelope := ⟨"100.64.0.5", "r1", .cooldLogs 10⟩

/-- A dispatch up to the point where it waits for the response. -/
def dispatched (d now : Nat) : List BridgeOp := .dispatch sampleEnv :: List.replicate 6 (.advance d now)

def logs (output : String) : Response := ⟨"r1", some (.cooldLogs output)⟩

/-- A host answers the dispatch that was sent to it. -/
def answeredTrace : List BridgeOp :=
  .grpc (.connect (sampleStream "100.64.0.5") 0) :: dispatched 0 0 ++
    [.response 0 (logs "own") 0, .deliver 0 1, .finish ⟨.deliver, "r1", 0⟩, .advance 0 1]

/-- The answer of the host is returned. -/
theorem own_answer_returned :
    ∃ s x b, run (step sampleConfig) init answeredTrace = some s ∧ s.dispatches = [x] ∧
      x.pc = .returned (.answer b) ∧ b.hostId = x.env.hostId := by
  refine ⟨_, _, _, rfl, rfl, rfl, ?_⟩
  exact (answers_come_from_host sampleConfig answeredTrace _ rfl (by decide) _ (List.mem_singleton_self _) _ rfl).2.1

/-- Another host answers it first: the dispatch returns what a host made that it was not sent to. -/
theorem foreign_answer_returned :
    ∃ s x b, run (step sampleConfig) init
        (.grpc (.connect (sampleStream "100.64.0.5") 0) :: .grpc (.connect (sampleStream "100.64.0.9") 0) ::
          dispatched 0 0 ++
          [.response 1 (logs "forged") 0, .deliver 1 1, .finish ⟨.deliver, "r1", 0⟩, .advance 0 1]) = some s ∧
      s.dispatches = [x] ∧ x.env.hostId = "100.64.0.5" ∧ x.pc = .returned (.answer b) ∧
      b.body = .ok (outputData "forged") ∧ b.resp = logs "forged" ∧ b.hostId = "100.64.0.9" :=
  ⟨_, _, _, rfl, rfl, rfl, rfl, rfl, rfl, rfl⟩

/-! ### Reused request ids -/

/-- When a request id is inserted, no call that acted on an earlier entry of it is about to remove it and no stream
task holds a response for it; and a response that is received is not older than the entry of its request id. -/
def FreshReuse (s : BridgeSys) : BridgeOp → Prop
  | .advance d _ => ∀ x ∈ s.dispatches[d]?, x.inserts = true → s.pend.entry x.env.requestId = none →
      (∀ y ∈ s.pend.finishing, y.requestId ≠ x.env.requestId) ∧
        ∀ t ∈ s.grpc.tasks, ∀ h ∈ t.held, h.1.requestId ≠ x.env.requestId
  | .response _ resp gen => ∀ e ∈ s.pend.entry resp.requestId, e.gen ≤ gen
  | _ => True

instance (s : BridgeSys) (a : BridgeOp) : Decidable (s.FreshReuse a) := by
  cases a <;> unfold FreshReuse <;> infer_instance

/-- The second half of a call removes the entry that the call acted on under the lock, or none. -/
def FinishesOwn (s : BridgeSys) : BridgeOp → Prop
  | .finish removal => removal ∈ s.pend.finishing → ∀ e ∈ s.pend.entry removal.requestId, e.gen = removal.gen
  | _ => True

/-- The insertion as the tie. -/
def genTie : Tie where
  parks _ gen _ _ gen' := gen ≤ gen'
  delivers _ _ gen' a := gen' ≤ a.gen
  returns _ gen a := gen ≤ a.gen
  trans := le_trans

/-- What holds in a run that reuses request ids freshly: a dispatch parks on its own entry or a later one, and
neither a second half nor a response that a task holds is older than the entry it will meet. -/
structure Clean (cfg : BridgeConfig) (s : BridgeSys) : Prop where
  inserts : s.InsertsMatch cfg
  parking : ∀ x ∈ s.dispatches, x.parks = true →
    x.gen < s.pend.pending.gens ∧ ∀ e, s.pend.entry x.env.requestId = some e → x.gen ≤ e.gen
  halves : ∀ y ∈ s.pend.finishing, ∀ e, s.pend.entry y.requestId = some e → e.gen = y.gen
  held : ∀ t ∈ s.grpc.tasks, ∀ h ∈ t.held, ∀ e, s.pend.entry h.1.requestId = some e → e.gen ≤ h.2

/-- An entry was there with the same generation, or a dispatch has inserted it in this step. -/
private theorem entry_step (hI : s.InsertsMatch cfg) (hs : s.step cfg a = some s') {r : String}
    {e' : PendingEntry Answer} (he' : s'.pend.entry r = some e') :
    (∃ e, s.pend.entry r = some e ∧ e'.gen = e.gen) ∨
      (s.pend.entry r = none ∧ e'.gen = s.pend.pending.gens ∧
        ∃ d now x, a = .advance d now ∧ s.dispatches[d]? = some x ∧ x.inserts = true ∧ x.env.requestId = r) := by
  rcases pend_step hI hs with h | ⟨op, hop, hins⟩
  · rw [h] at he'
    exact Or.inl ⟨e', he', rfl⟩
  · rw [PendingSys.entry, PendingSys.step_pending hop] at he'
    rcases Pending.entry_of_entry_apply he' with ⟨e, he, -, hgen⟩ | ⟨hnone, call, now, rfl, rfl, -, hgen⟩
    · exact Or.inl ⟨e, he, hgen⟩
    · obtain ⟨d, x, ha, hx, hxi, rfl⟩ := hins call now rfl
      exact Or.inr ⟨hnone, hgen, d, now, x, ha, hx, hxi, rfl⟩

theorem gens_step (hI : s.InsertsMatch cfg) (hs : s.step cfg a = some s') :
    s.pend.pending.gens ≤ s'.pend.pending.gens := by
  rcases pend_step hI hs with h | ⟨op, hop, -⟩
  · rw [h]
  · rw [PendingSys.step_pending hop]
    exact Pending.gens_apply _ op

/-- A dispatch that is about to park was so before, or has just inserted its entry. -/
private theorem parks_step (hs : s.step cfg a = some s') {x : Dispatch} (hx : x ∈ s'.dispatches)
    (hp : x.parks = true) :
    x ∈ s.dispatches ∨ (s.pend.entry x.env.requestId = none ∧ x.gen = s.pend.pending.gens ∧
      s.pend.pending.gens < s'.pend.pending.gens) := by
  have hset : ∀ {d x'}, x'.parks = false → x ∈ s.dispatches.set d x' → x ∈ s.dispatches := by
    intro d x' hx' hx
    rcases List.mem_or_eq_of_mem_set hx with hx | rfl
    · exact hx
    · rw [hx'] at hp
      cases hp
  cases step_sound hs with
  | dispatch env =>
    rcases List.mem_append.1 hx with hx | hx
    · exact Or.inl hx
    · obtain rfl := List.mem_singleton.1 hx
      cases hp
  | advance d now y y' grpc pend hy hm =>
    cases hm with
    | insert msg hpc he =>
      rcases List.mem_or_eq_of_mem_set hx with hx | rfl
      · exact Or.inl hx
      · refine Or.inr ⟨he, rfl, ?_⟩
        simp only [PendingSys.insertEntry, Pending.insertEntry, insertCall]
        rw [show s.pend.pending.entry y.env.requestId = none from he]
        exact Nat.lt_succ_self _
    | _ => exact Or.inl (hset rfl hx)
  | timeout d y rx code message _ _ => exact Or.inl (hset rfl hx)
  | abandon d y rx _ _ => exact Or.inl (hset rfl hx)
  | _ => exact Or.inl hx

private theorem clean_halves (h : s.Clean cfg) (ha : s.FreshReuse a) (hs : s.step cfg a = some s') :
    ∀ y ∈ s'.pend.finishing, ∀ e, s'.pend.entry y.requestId = some e → e.gen = y.gen := by
  intro y hy e' he'
  have hy' : y ∈ s.pend.finishing ∨ ∃ e, s.pend.entry y.requestId = some e ∧ e.gen = y.gen := by
    rcases pend_step h.inserts hs with heq | ⟨op, hop, -⟩
    · exact Or.inl (heq ▸ hy)
    · rcases PendingSys.mem_finishing_step hop hy with hy | ⟨e, he, hgen, -⟩
      · exact Or.inl hy
      · exact Or.inr ⟨e, he, hgen⟩
  rcases entry_step h.inserts hs he' with ⟨e, he, hgen⟩ | ⟨hnone, -, d, now, x, rfl, hx, hxi, hr⟩
  · rw [hgen]
    rcases hy' with hy | ⟨e₀, he₀, hgen₀⟩
    · exact h.halves y hy e he
    · obtain rfl := Option.some.inj (he.symm.trans he₀)
      exact hgen₀
  · -- the entry is new, and no second half was under way for its request id
    rcases hy' with hy | ⟨e₀, he₀, -⟩
    · exact absurd hr.symm ((ha x hx hxi (hr ▸ hnone)).1 y hy)
    · rw [hnone] at he₀
      cases he₀

private theorem clean_held (h : s.Clean cfg) (ha : s.FreshReuse a) (hs : s.step cfg a = some s') :
    ∀ t ∈ s'.grpc.tasks, ∀ x ∈ t.held, ∀ e, s'.pend.entry x.1.requestId = some e → e.gen ≤ x.2 := by
  intro t ht x hx e' he'
  have hold : (∃ i, a = .response i x.1 x.2) ∨ ∃ t ∈ s.grpc.tasks, t.held = some x := by
    rcases grpc_step hs with heq | ⟨op, hop, hc⟩
    · exact Or.inr ⟨t, heq ▸ ht, hx⟩
    · rcases GrpcSys.held_step hop ht hx with ⟨i, rfl⟩ | hold
      · cases hc with
        | own _ hint => cases hint
        | received _ _ _ => exact Or.inl ⟨i, rfl⟩
      · exact Or.inr hold
  rcases entry_step h.inserts hs he' with ⟨e, he, hgen⟩ | ⟨hnone, -, d, now, y, rfl, hy, hyi, hr⟩
  · rw [hgen]
    rcases hold with ⟨i, rfl⟩ | ⟨t₀, ht₀, hx₀⟩
    · exact ha e he
    · exact h.held t₀ ht₀ x hx₀ e he
  · -- the entry is new, and no task held a response for its request id
    rcases hold with ⟨i, hi⟩ | ⟨t₀, ht₀, hx₀⟩
    · cases hi
    · exact absurd hr.symm ((ha y hy hyi (hr ▸ hnone)).2 t₀ ht₀ x hx₀)

private theorem clean_step (h : s.Clean cfg) (ha : s.FreshReuse a) (hs : s.step cfg a = some s') : s'.Clean cfg := by
  refine ⟨insertsMatch_step h.inserts hs, ?_, clean_halves h ha hs, clean_held h ha hs⟩
  intro x hx hp
  rcases parks_step hs hx hp with hx | ⟨hnone, hgen, hlt⟩
  · obtain ⟨hlt, hle⟩ := h.parking x hx hp
    refine ⟨lt_of_lt_of_le hlt (gens_step h.inserts hs), fun e' he' => ?_⟩
    rcases entry_step h.inserts hs he' with ⟨e, he, hgen⟩ | ⟨-, hgen, -⟩
    · rw [hgen]
      exact hle e he
    · omega
  · refine ⟨by omega, fun e' he' => ?_⟩
    rcases entry_step h.inserts hs he' with ⟨e, he, -⟩ | ⟨-, hgen', -⟩
    · rw [hnone] at he
      cases he
    · omega

private theorem clean_init : init.Clean cfg :=
  ⟨List.Perm.nil, by simp [init], by simp [init, PendingSys.init], by simp [init, GrpcSys.init]⟩

private theorem respects_genTie (h : s.Clean cfg) : s.Respects cfg genTie a := by
  cases a with
  | advance d now =>
    intro x msg e hx hpc he
    exact (h.parking x (List.mem_of_getElem? hx) (parks_of_inserted hpc)).2 e he
  | deliver i now =>
    intro t resp gen body e ht hp _ he
    exact h.held t (List.mem_of_getElem? ht) _ (held_of_delivering hp) e he
  | _ => trivial

private theorem finishesOwn_of_clean (h : s.Clean cfg) : s.FinishesOwn a := by
  cases a with
  | finish removal => exact h.halves removal
  | _ => trivial

/-- In every run that reuses request ids freshly, a dispatch returns no answer to an earlier insertion than its
own, and no entry is removed by the second half of a call that acted on an earlier one. -/
theorem reuse_is_clean (cfg : BridgeConfig) (tr : List BridgeOp) (s : BridgeSys)
    (hr : run (step cfg) init tr = some s) (h : Along (step cfg) FreshReuse init tr) :
    (∀ x ∈ s.dispatches, ∀ b, x.pc = .returned (.answer b) → x.gen ≤ b.gen) ∧
      Along (step cfg) FinishesOwn init tr := by
  have hclean : ∀ (s : BridgeSys) a s', s.Clean cfg → s.FreshReuse a → s.step cfg a = some s' → s'.Clean cfg :=
    fun _ _ _ hI ha hs => clean_step hI ha hs
  constructor
  · intro x hx b hb
    exact answer_of_tied hr (along_mono hclean (fun _ _ hI _ => respects_genTie hI) clean_init h) hx hb
  · exact along_mono hclean (fun _ _ hI _ => finishesOwn_of_clean hI) clean_init h

/-- A dispatch that is answered, and then another one with the same request id. -/
def reusedTrace : List BridgeOp :=
  answeredTrace ++ dispatched 1 2 ++
    [.response 0 (logs "second") 1, .deliver 0 3, .finish ⟨.deliver, "r1", 1⟩, .advance 1 3]

/-- The second dispatch returns its own answer. -/
theorem fresh_reuse_answered :
    ∃ s x₀ x₁ b, run (step sampleConfig) init reusedTrace = some s ∧ s.dispatches = [x₀, x₁] ∧
      x₁.pc = .returned (.answer b) ∧ x₁.gen = 1 ∧ x₁.gen ≤ b.gen := by
  refine ⟨_, _, _, _, rfl, rfl, rfl, rfl, ?_⟩
  have hclean := reuse_is_clean sampleConfig reusedTrace _ rfl (by decide)
  exact hclean.1 _ (List.mem_cons_of_mem _ List.mem_cons_self) _ rfl

/-- A dispatch times out and is swept, its request id is dispatched again, and the late response to the first
dispatch is returned by the second.  If the first one is answered while the sweep is between its two steps, the
sweep removes the waiting entry of the second. -/
theorem late_answer_returned :
    (∃ s x₀ x₁ b, run (step sampleConfig) init
        (.grpc (.connect (sampleStream "100.64.0.5") 0) :: dispatched 0 0 ++
          [.timeout 0, .drainSample (fromSecs 61), .finish ⟨.drain, "r1", 0⟩] ++ dispatched 1 (fromSecs 62) ++
          [.response 0 (logs "first") 0, .deliver 0 (fromSecs 63), .finish ⟨.deliver, "r1", 1⟩,
            .advance 1 (fromSecs 63)]) = some s ∧
      s.dispatches = [x₀, x₁] ∧ x₁.env.requestId = x₀.env.requestId ∧ x₁.pc = .returned (.answer b) ∧
      x₁.gen = 1 ∧ b.gen = 0) ∧
    ∃ s s' e, run (step sampleConfig) init
        (.grpc (.connect (sampleStream "100.64.0.5") 0) :: dispatched 0 0 ++
          [.drainSample (fromSecs 60), .response 0 (logs "first") 0, .deliver 0 (fromSecs 60),
            .finish ⟨.deliver, "r1", 0⟩] ++
          dispatched 1 (fromSecs 60)) = some s ∧
      s.pend.entry "r1" = some e ∧ e.state = .waiting [1] ∧ e.gen = 1 ∧
      s.step sampleConfig (.finish ⟨.drain, "r1", 0⟩) = some s' ∧ s'.pend.entry "r1" = none :=
  ⟨⟨_, _, _, _, rfl, rfl, rfl, rfl, rfl, rfl⟩, _, _, _, rfl, rfl, rfl, rfl, rfl, rfl⟩

end BridgeSys

end Coold.Flux
