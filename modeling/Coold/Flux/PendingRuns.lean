import Coold.Flux.Pending

/-!
# Interleaved calls on the pending map

What a parked handler gets, over every interleaving of the atomic steps of any number of calls (which, for a call
without others, add up to the call as a whole: `run_alone`).  A handler that is parked stays among the sinks of its
entry until a response is delivered to the entry or the entry is removed (`mem_sinks_apply`), and what its channel
then holds never changes (`settled_apply`).  The second halves of `park` and `deliver` remove by request id; as long
as a request id is inserted only once they act on the entry that was there (`mem_finishing_step`), and a handler
gets the answer that is due to it.
-/

namespace Coold.Flux

variable {β : Type}

/-- What a step does to the map and the channels. -/
def PendingOp.apply (p : Pending β) : PendingOp β → Pending β
  | .sample _ => p
  | .insertEntry call now => (p.insertEntry call.requestId call.hostId call.kind now).2
  | .park requestId => (p.parkLock requestId).2
  | .deliver requestId body now => (p.deliverLock requestId body now).2
  | .drainSample _ _ => p
  | .finish removal => p.erase removal.requestId
  | .remove requestId => p.erase requestId

/-- The step removes the entry of a request id, if there is one. -/
def PendingOp.Erases (r : String) (a : PendingOp β) : Prop :=
  a = .remove r ∨ ∃ removal, a = .finish removal ∧ removal.requestId = r

/-- The step works on the entry of a request id. -/
def PendingOp.On (r : String) : PendingOp β → Prop
  | .sample _ => False
  | .insertEntry call _ => call.requestId = r
  | .park requestId => requestId = r
  | .deliver requestId _ _ => requestId = r
  | .drainSample _ _ => False
  | .finish removal => removal.requestId = r
  | .remove requestId => requestId = r

theorem PendingSys.step_pending {s s' : PendingSys β} {a : PendingOp β} (h : s.step a = some s') :
    s'.pending = a.apply s.pending := by
  cases a with
  | sample call =>
    obtain rfl := Option.some.inj h
    simp only [PendingSys.sample, PendingOp.apply]
    split <;> rfl
  | insertEntry call now =>
    simp only [PendingSys.step] at h
    split at h
    · obtain rfl := Option.some.inj h
      rfl
    · cases h
  | park r => obtain rfl := Option.some.inj h; rfl
  | deliver r body now => obtain rfl := Option.some.inj h; rfl
  | drainSample now timeout => obtain rfl := Option.some.inj h; rfl
  | finish removal =>
    simp only [PendingSys.step] at h
    split at h
    · obtain rfl := Option.some.inj h
      rfl
    · cases h
  | remove r => obtain rfl := Option.some.inj h; rfl

namespace Pending

/-! ### Entries -/

/-- A step on other request ids does not change an entry. -/
private theorem entry_apply_of_not_on {p : Pending β} {a : PendingOp β} {r : String} (h : ¬ a.On r) :
    (a.apply p).entry r = p.entry r := by
  cases a with
  | sample call => rfl
  | insertEntry call now =>
    have hne : ¬ (r = call.requestId ∧ p.entry r = none) := fun hc => h hc.1.symm
    rw [PendingOp.apply, entry_insertEntry, if_neg hne]
  | park requestId => exact entry_parkLock_of_ne (fun hc => h hc.symm)
  | deliver requestId body now => rw [PendingOp.apply, entry_deliverLock, if_neg (fun hc => h hc.symm)]
  | drainSample now timeout => rfl
  | finish removal => rw [PendingOp.apply, entry_erase, if_neg (fun hc => h hc.symm)]
  | remove requestId => rw [PendingOp.apply, entry_erase, if_neg (fun hc => h hc.symm)]

/-- The step inserts an entry for a request id that has none. -/
def Inserts (r : String) (p : Pending β) (a : PendingOp β) : Prop :=
  (∃ call now, a = .insertEntry call now ∧ call.requestId = r) ∧ p.entry r = none

private theorem entry_apply_none {p : Pending β} {a : PendingOp β} {r : String} (h : p.entry r = none)
    (ha : ¬ Inserts r p a) : (a.apply p).entry r = none := by
  cases a with
  | sample call => exact h
  | insertEntry call now =>
    have hne : ¬ (r = call.requestId ∧ p.entry r = none) := fun hc => ha ⟨⟨call, now, rfl, hc.1.symm⟩, h⟩
    rw [PendingOp.apply, entry_insertEntry, if_neg hne, h]
  | park requestId =>
    by_cases hr : r = requestId
    · subst hr
      rw [PendingOp.apply, parkLock_of_none h, h]
    · rw [PendingOp.apply, entry_parkLock_of_ne hr, h]
  | deliver requestId body now =>
    rw [PendingOp.apply, entry_deliverLock, h]
    split <;> rfl
  | drainSample now timeout => exact h
  | finish removal =>
    rw [PendingOp.apply, entry_erase, h]
    split <;> rfl
  | remove requestId =>
    rw [PendingOp.apply, entry_erase, h]
    split <;> rfl

/-- An entry becomes waiting only by its insertion. -/
theorem waiting_of_waiting_apply {p : Pending β} {a : PendingOp β} {r : String} (h : (a.apply p).Waiting r) :
    p.Waiting r ∨ Inserts r p a := by
  obtain ⟨e, l, he, hs⟩ := h
  -- an operation on another request id does not touch the entry
  by_cases ha : a.On r
  · cases a with
    | sample call => cases ha
    | insertEntry call now =>
      by_cases hn : p.entry r = none
      · exact Or.inr ⟨⟨call, now, rfl, ha⟩, hn⟩
      · rw [PendingOp.apply, entry_insertEntry, if_neg (fun hc => hn hc.2)] at he
        exact Or.inl ⟨e, l, he, hs⟩
    | park requestId =>
      obtain rfl : requestId = r := ha
      by_cases hw : p.Waiting requestId
      · exact Or.inl hw
      · rw [PendingOp.apply, parkLock_eq_self hw] at he
        exact Or.inl ⟨e, l, he, hs⟩
    | deliver requestId body now =>
      obtain rfl : requestId = r := ha
      rw [PendingOp.apply, entry_deliverLock, if_pos rfl, Option.map_eq_some_iff] at he
      obtain ⟨e', -, rfl⟩ := he
      cases hs
    | drainSample now timeout => cases ha
    | finish removal =>
      rw [PendingOp.apply, entry_erase, if_pos (Eq.symm ha)] at he
      cases he
    | remove requestId =>
      rw [PendingOp.apply, entry_erase, if_pos (Eq.symm ha)] at he
      cases he
  · rw [entry_apply_of_not_on ha] at he
    exact Or.inl ⟨e, l, he, hs⟩

/-- An entry carries a landed body that it carried before or that this step delivers. -/
private theorem landed_of_landed_apply {p : Pending β} {a : PendingOp β} {r : String} {e : PendingEntry β} {b : β}
    {u : Nat}
    (he : (a.apply p).entry r = some e) (hs : e.state = .landed b u) :
    p.entry r = some e ∨ ∃ now, a = .deliver r b now := by
  by_cases ha : a.On r
  · cases a with
    | sample call => cases ha
    | insertEntry call now =>
      rw [PendingOp.apply, entry_insertEntry] at he
      split at he
      · obtain rfl := Option.some.inj he
        cases hs
      · exact Or.inl he
    | park requestId =>
      obtain rfl : requestId = r := ha
      -- parking keeps an entry waiting, so that the landed one is the old one
      by_cases hw : p.Waiting requestId
      · obtain ⟨e', l, he', hs'⟩ := hw
        rw [PendingOp.apply, parkLock_of_waiting he' hs'] at he
        simp only [entry, Dict.lookup_insert_ite, if_true, Option.some.injEq] at he
        obtain rfl := he
        cases hs
      · rw [PendingOp.apply, parkLock_eq_self hw] at he
        exact Or.inl he
    | deliver requestId body now =>
      obtain rfl : requestId = r := ha
      rw [PendingOp.apply, entry_deliverLock, if_pos rfl, Option.map_eq_some_iff] at he
      obtain ⟨e', -, rfl⟩ := he
      simp only [land, PendingState.landed.injEq] at hs
      exact Or.inr ⟨now, by rw [hs.1]⟩
    | drainSample now timeout => cases ha
    | finish removal =>
      rw [PendingOp.apply, entry_erase, if_pos (Eq.symm ha)] at he
      cases he
    | remove requestId =>
      rw [PendingOp.apply, entry_erase, if_pos (Eq.symm ha)] at he
      cases he
  · rw [entry_apply_of_not_on ha] at he
    exact Or.inl he

/-- A landed entry stays as it is until the next delivery or its removal. -/
private theorem entry_apply_of_landed {p : Pending β} {a : PendingOp β} {r : String} {e : PendingEntry β} {b : β}
    {u : Nat}
    (he : p.entry r = some e) (hs : e.state = .landed b u) (hd : ∀ b now, a ≠ .deliver r b now) (ha : ¬ a.Erases r) :
    (a.apply p).entry r = some e := by
  by_cases hon : a.On r
  · cases a with
    | sample call => cases hon
    | insertEntry call now =>
      rw [PendingOp.apply, entry_insertEntry, if_neg, he]
      rintro ⟨-, hn⟩
      rw [he] at hn
      cases hn
    | park requestId =>
      obtain rfl : requestId = r := hon
      rw [PendingOp.apply, parkLock_of_landed he hs, he]
    | deliver requestId body now =>
      obtain rfl : requestId = r := hon
      exact absurd rfl (hd body now)
    | drainSample now timeout => cases hon
    | finish removal => exact absurd (Or.inr ⟨removal, rfl, hon⟩) ha
    | remove requestId =>
      obtain rfl : requestId = r := hon
      exact absurd (Or.inl rfl) ha
  · rw [entry_apply_of_not_on hon, he]

private theorem landed_of_parkLock {p : Pending β} {r : String} {b : β} (h : (p.parkLock r).1 = .alreadyLanded b) :
    ∃ e u, p.entry r = some e ∧ e.state = .landed b u := by
  cases he : p.entry r with
  | none =>
    rw [parkLock_of_none he] at h
    cases h
  | some e =>
    cases hs : e.state with
    | waiting l =>
      rw [parkLock_of_waiting he hs] at h
      cases h
    | landed b' u =>
      rw [parkLock_of_landed he hs] at h
      simp only [ParkResult.alreadyLanded.injEq] at h
      exact ⟨e, u, rfl, h ▸ hs⟩

/-! ### Parked handlers and their channels -/

/-- Every parked handler has an empty channel and is parked on one request id only. -/
def SinksOpen (p : Pending β) : Prop :=
  ∀ r rx, rx ∈ p.sinks r → p.oneshots[rx]? = some .empty ∧ ∀ r', rx ∈ p.sinks r' → r' = r

/-- Clearing the sinks of one request id and settling their channels leaves the others open. -/
private theorem sinksOpen_of_clear {p p' : Pending β} {q : String} {f : Oneshot β → Oneshot β} (h : p.SinksOpen)
    (hs : ∀ r, p'.sinks r = if r = q then [] else p.sinks r)
    (ho : p'.oneshots = Oneshot.settle f (p.sinks q) p.oneshots) : p'.SinksOpen := by
  have hsub : ∀ r rx, rx ∈ p'.sinks r → r ≠ q ∧ rx ∈ p.sinks r := by
    intro r rx hrx
    rw [hs] at hrx
    split at hrx
    · cases hrx
    · rename_i hne
      exact ⟨hne, hrx⟩
  intro r rx hrx
  obtain ⟨hne, hrx⟩ := hsub r rx hrx
  refine ⟨?_, fun r' hrx' => (h r rx hrx).2 r' (hsub r' rx hrx').2⟩
  have hnot : rx ∉ p.sinks q := fun hq => hne ((h q rx hq).2 r hrx)
  rw [ho, Oneshot.getElem?_settle, (h r rx hrx).1]
  simp [hnot]

private theorem sinksOpen_parkLock {p : Pending β} (h : p.SinksOpen) (requestId : String) :
    (p.parkLock requestId).2.SinksOpen := by
  intro r rx hrx
  have hlt : ∀ r rx, rx ∈ p.sinks r → rx ≠ p.oneshots.length := by
    intro r rx hm he
    have := (h r rx hm).1
    rw [he, List.getElem?_eq_none (Nat.le_refl _)] at this
    cases this
  rw [mem_sinks_parkLock] at hrx
  rcases hrx with hrx | ⟨rfl, hw, rfl⟩
  · refine ⟨getElem?_oneshots_parkLock requestId (h r rx hrx).1, fun r' hrx' => ?_⟩
    rw [mem_sinks_parkLock] at hrx'
    rcases hrx' with hrx' | ⟨-, -, he⟩
    · exact (h r rx hrx).2 r' hrx'
    · exact absurd he (hlt r rx hrx)
  · refine ⟨?_, fun r' hrx' => ?_⟩
    · obtain ⟨e, l, he, hs⟩ := hw
      rw [parkLock_of_waiting he hs]
      exact List.getElem?_concat_length
    · rw [mem_sinks_parkLock] at hrx'
      rcases hrx' with hrx' | ⟨rfl, -, -⟩
      · exact absurd rfl (hlt r' _ hrx')
      · rfl

theorem sinksOpen_apply {p : Pending β} (h : p.SinksOpen) (a : PendingOp β) : (a.apply p).SinksOpen := by
  cases a with
  | sample call => exact h
  | insertEntry call now =>
    intro r rx hrx
    rw [PendingOp.apply, sinks_insertEntry] at hrx
    rw [PendingOp.apply, oneshots_insertEntry]
    refine ⟨(h r rx hrx).1, fun r' hrx' => ?_⟩
    rw [sinks_insertEntry] at hrx'
    exact (h r rx hrx).2 r' hrx'
  | park requestId => exact sinksOpen_parkLock h requestId
  | deliver requestId body now =>
    exact sinksOpen_of_clear h (sinks_deliverLock p requestId body now) (oneshots_deliverLock p requestId body now)
  | drainSample now timeout => exact h
  | finish removal => exact sinksOpen_of_clear h (sinks_erase p removal.requestId) rfl
  | remove requestId => exact sinksOpen_of_clear h (sinks_erase p requestId) rfl

/-- A handler that parks joins the sinks of the waiting entry. -/
private theorem mem_sinks_of_parkLock {p : Pending β} {r : String} {rx : Nat} (h : (p.parkLock r).1 = .parked rx) :
    rx ∈ (p.parkLock r).2.sinks r := by
  rw [mem_sinks_parkLock]
  cases he : p.entry r with
  | none =>
    rw [parkLock_of_none he] at h
    cases h
  | some e =>
    cases hs : e.state with
    | waiting l =>
      rw [parkLock_of_waiting he hs] at h
      simp only [ParkResult.parked.injEq] at h
      exact Or.inr ⟨rfl, ⟨e, l, he, hs⟩, h.symm⟩
    | landed b u =>
      rw [parkLock_of_landed he hs] at h
      cases h

theorem waiting_of_mem_sinks {p : Pending β} {r : String} {rx : Nat} (h : rx ∈ p.sinks r) : p.Waiting r := by
  cases he : p.entry r with
  | none =>
    rw [sinks_of_entry_none he] at h
    cases h
  | some e =>
    cases hs : e.state with
    | waiting l => exact ⟨e, l, he, hs⟩
    | landed b u =>
      rw [sinks_of_landed he hs] at h
      cases h

private theorem Waiting.isSome_entry {p : Pending β} {r : String} (h : p.Waiting r) : (p.entry r).isSome := by
  obtain ⟨e, l, he, -⟩ := h
  rw [he]
  rfl

/-- A delivery fans out to every parked handler. -/
private theorem sent_deliverLock {p : Pending β} (h : p.SinksOpen) {r : String} {rx : Nat} (hrx : rx ∈ p.sinks r)
    (b : β)
    (now : Nat) : (p.deliverLock r b now).2.oneshots[rx]? = some (.sent b) := by
  rw [oneshots_deliverLock, Oneshot.getElem?_settle, (h r rx hrx).1]
  simp [hrx, Oneshot.send]

/-- A parked handler stays parked until its entry gets a response or is removed. -/
theorem mem_sinks_apply {p : Pending β} (h : p.SinksOpen) {r : String} {rx : Nat} (hrx : rx ∈ p.sinks r)
    (a : PendingOp β) :
    rx ∈ (a.apply p).sinks r ∨
      (∃ b now, a = .deliver r b now ∧ (a.apply p).oneshots[rx]? = some (.sent b)) ∨
      (a.Erases r ∧ (a.apply p).oneshots[rx]? = some .closed) := by
  have hempty := (h r rx hrx).1
  -- an entry that is removed drops its senders
  have herase : (p.erase r).oneshots[rx]? = some .closed := by
    show (Oneshot.settle .close (p.sinks r) p.oneshots)[rx]? = some .closed
    rw [Oneshot.getElem?_settle, hempty]
    simp [hrx, Oneshot.close]
  cases a with
  | sample call => exact Or.inl hrx
  | insertEntry call now =>
    left
    rw [PendingOp.apply, sinks_insertEntry]
    exact hrx
  | park requestId =>
    left
    rw [PendingOp.apply, mem_sinks_parkLock]
    exact Or.inl hrx
  | deliver requestId body now =>
    by_cases hr : r = requestId
    · subst hr
      exact Or.inr (Or.inl ⟨body, now, rfl, sent_deliverLock h hrx body now⟩)
    · left
      rw [PendingOp.apply, sinks_deliverLock, if_neg hr]
      exact hrx
  | drainSample now timeout => exact Or.inl hrx
  | finish removal =>
    by_cases hr : r = removal.requestId
    · right; right
      refine ⟨Or.inr ⟨removal, rfl, hr.symm⟩, ?_⟩
      rw [PendingOp.apply, ← hr]
      exact herase
    · left
      rw [PendingOp.apply, sinks_erase, if_neg hr]
      exact hrx
  | remove requestId =>
    by_cases hr : r = requestId
    · right; right
      refine ⟨Or.inl (by rw [hr]), ?_⟩
      rw [PendingOp.apply, ← hr]
      exact herase
    · left
      rw [PendingOp.apply, sinks_erase, if_neg hr]
      exact hrx

/-- A channel that holds a body, or whose sender is gone, does not change any more. -/
theorem settled_apply {p : Pending β} {rx : Nat} {o : Oneshot β} (ho : p.oneshots[rx]? = some o) (hne : o ≠ .empty)
    (a : PendingOp β) : (a.apply p).oneshots[rx]? = some o := by
  have hsettle : ∀ (f : Oneshot β → Oneshot β) sinks, f o = o →
      (Oneshot.settle f sinks p.oneshots)[rx]? = some o := by
    intro f sinks hf
    rw [Oneshot.getElem?_settle, ho]
    simp [hf]
  have hclose : Oneshot.close o = o := by cases o <;> first | rfl | exact absurd rfl hne
  cases a with
  | sample call => exact ho
  | insertEntry call now =>
    rw [PendingOp.apply, oneshots_insertEntry]
    exact ho
  | park requestId => exact getElem?_oneshots_parkLock requestId ho
  | deliver requestId body now =>
    rw [PendingOp.apply, oneshots_deliverLock]
    refine hsettle _ _ ?_
    cases o <;> first | rfl | exact absurd rfl hne
  | drainSample now timeout => exact ho
  | finish removal => exact hsettle _ _ hclose
  | remove requestId => exact hsettle _ _ hclose

/-! ### Where the entries and the channels of a state come from -/

/-- An entry was there with the same host and generation, or this step has inserted it. -/
theorem entry_of_entry_apply {p : Pending β} {a : PendingOp β} {r : String} {e' : PendingEntry β}
    (h : (a.apply p).entry r = some e') :
    (∃ e, p.entry r = some e ∧ e'.hostId = e.hostId ∧ e'.gen = e.gen) ∨
      (p.entry r = none ∧ ∃ call now, a = .insertEntry call now ∧ call.requestId = r ∧
        e'.hostId = call.hostId ∧ e'.gen = p.gens) := by
  by_cases ha : a.On r
  · cases a with
    | sample call => cases ha
    | insertEntry call now =>
      rw [PendingOp.apply, entry_insertEntry] at h
      split at h
      · rename_i hn
        obtain rfl := Option.some.inj h
        exact Or.inr ⟨hn.2, call, now, rfl, ha, rfl, rfl⟩
      · exact Or.inl ⟨e', h, rfl, rfl⟩
    | park requestId =>
      obtain rfl : requestId = r := ha
      by_cases hw : p.Waiting requestId
      · obtain ⟨e, l, he, hs⟩ := hw
        rw [PendingOp.apply, parkLock_of_waiting he hs] at h
        simp only [entry, Dict.lookup_insert_ite, if_true, Option.some.injEq] at h
        exact Or.inl ⟨e, he, by rw [← h], by rw [← h]⟩
      · rw [PendingOp.apply, parkLock_eq_self hw] at h
        exact Or.inl ⟨e', h, rfl, rfl⟩
    | deliver requestId body now =>
      obtain rfl : requestId = r := ha
      rw [PendingOp.apply, entry_deliverLock, if_pos rfl, Option.map_eq_some_iff] at h
      obtain ⟨e, he, rfl⟩ := h
      exact Or.inl ⟨e, he, rfl, rfl⟩
    | drainSample now timeout => cases ha
    | finish removal =>
      rw [PendingOp.apply, entry_erase, if_pos (Eq.symm ha)] at h
      cases h
    | remove requestId =>
      rw [PendingOp.apply, entry_erase, if_pos (Eq.symm ha)] at h
      cases h
  · rw [entry_apply_of_not_on ha] at h
    exact Or.inl ⟨e', h, rfl, rfl⟩

/-- A handler that is parked was parked before, or this step has parked it on a new channel. -/
theorem mem_sinks_of_apply {p : Pending β} {a : PendingOp β} {r : String} {rx : Nat}
    (h : rx ∈ (a.apply p).sinks r) : rx ∈ p.sinks r ∨ (a = .park r ∧ rx = p.oneshots.length) := by
  cases a with
  | sample call => exact Or.inl h
  | insertEntry call now =>
    rw [PendingOp.apply, sinks_insertEntry] at h
    exact Or.inl h
  | park requestId =>
    rw [PendingOp.apply, mem_sinks_parkLock] at h
    rcases h with h | ⟨rfl, -, h⟩
    · exact Or.inl h
    · exact Or.inr ⟨rfl, h⟩
  | deliver requestId body now =>
    rw [PendingOp.apply, sinks_deliverLock] at h
    split at h
    · cases h
    · exact Or.inl h
  | drainSample now timeout => exact Or.inl h
  | finish removal =>
    rw [PendingOp.apply, sinks_erase] at h
    split at h
    · cases h
    · exact Or.inl h
  | remove requestId =>
    rw [PendingOp.apply, sinks_erase] at h
    split at h
    · cases h
    · exact Or.inl h

private theorem sent_of_close {sinks : List Nat} {l : List (Oneshot β)} {rx : Nat} {b : β}
    (h : (Oneshot.settle .close sinks l)[rx]? = some (.sent b)) : l[rx]? = some (.sent b) := by
  rw [Oneshot.getElem?_settle, Option.map_eq_some_iff] at h
  obtain ⟨o, ho, h⟩ := h
  split at h
  · cases o <;> simp_all [Oneshot.close]
  · rw [ho, h]

private theorem oneshots_parkLock (p : Pending β) (r : String) :
    (p.parkLock r).2.oneshots = p.oneshots ∨ (p.parkLock r).2.oneshots = p.oneshots ++ [.empty] := by
  by_cases hw : p.Waiting r
  · obtain ⟨e, l, he, hs⟩ := hw
    rw [parkLock_of_waiting he hs]
    exact Or.inr rfl
  · rw [parkLock_eq_self hw]
    exact Or.inl rfl

/-- A channel holds a body that it held before, or that this step delivers to its handler. -/
theorem sent_of_apply {p : Pending β} {a : PendingOp β} {rx : Nat} {b : β}
    (h : (a.apply p).oneshots[rx]? = some (.sent b)) :
    p.oneshots[rx]? = some (.sent b) ∨ ∃ r now, a = .deliver r b now ∧ rx ∈ p.sinks r := by
  cases a with
  | sample call => exact Or.inl h
  | insertEntry call now =>
    rw [PendingOp.apply, oneshots_insertEntry] at h
    exact Or.inl h
  | park requestId =>
    rcases oneshots_parkLock p requestId with ho | ho
    · rw [PendingOp.apply, ho] at h
      exact Or.inl h
    · rw [PendingOp.apply, ho, List.getElem?_append] at h
      split at h
      · exact Or.inl h
      · rw [List.getElem?_singleton] at h
        split at h <;> cases h
  | deliver requestId body now =>
    rw [PendingOp.apply, oneshots_deliverLock, Oneshot.getElem?_settle, Option.map_eq_some_iff] at h
    obtain ⟨o, ho, h⟩ := h
    split at h
    · rename_i hrx
      -- a channel that was settled before keeps what it has
      cases o with
      | empty =>
        simp only [Oneshot.send, Oneshot.sent.injEq] at h
        exact Or.inr ⟨requestId, now, by rw [h], hrx⟩
      | sent b' => exact Or.inl (by rw [ho]; exact congrArg some h)
      | closed => cases h
    · exact Or.inl (by rw [ho, h])
  | drainSample now timeout => exact Or.inl h
  | finish removal => exact Or.inl (sent_of_close h)
  | remove requestId => exact Or.inl (sent_of_close h)

theorem length_oneshots_apply (p : Pending β) (a : PendingOp β) :
    p.oneshots.length ≤ (a.apply p).oneshots.length := by
  cases a with
  | sample call => exact le_rfl
  | insertEntry call now => rw [PendingOp.apply, oneshots_insertEntry]
  | park requestId =>
    rcases oneshots_parkLock p requestId with ho | ho <;> rw [PendingOp.apply, ho]
    rw [List.length_append]
    omega
  | deliver requestId body now => rw [PendingOp.apply, oneshots_deliverLock, Oneshot.length_settle]
  | drainSample now timeout => exact le_rfl
  | finish removal => rw [PendingOp.apply, erase, Oneshot.length_settle]
  | remove requestId => rw [PendingOp.apply, erase, Oneshot.length_settle]

/-- Only an insertion takes a generation. -/
theorem gens_apply (p : Pending β) (a : PendingOp β) : p.gens ≤ (a.apply p).gens := by
  cases a with
  | sample call => exact le_rfl
  | insertEntry call now =>
    simp only [PendingOp.apply, insertEntry]
    split <;> simp
  | park requestId =>
    by_cases hw : p.Waiting requestId
    · obtain ⟨e, l, he, hs⟩ := hw
      rw [PendingOp.apply, parkLock_of_waiting he hs]
    · rw [PendingOp.apply, parkLock_eq_self hw]
  | deliver requestId body now =>
    simp only [PendingOp.apply, deliverLock]
    split
    · exact le_rfl
    · split <;> exact le_rfl
  | drainSample now timeout => exact le_rfl
  | finish removal => exact le_rfl
  | remove requestId => exact le_rfl

end Pending

/-! ### Runs -/

namespace PendingSys

open Lts

variable {s s' : PendingSys β} {a : PendingOp β} {tr : List (PendingOp β)} {r : String}

/-- A whole call on the pending map. -/
inductive Call (β : Type) where
  | insertWaiting (call : InsertCall) (now : Nat)
  | park (requestId : String)
  | deliver (requestId : String) (body : β) (now : Nat)
  | drainExpired (now cooldTimeout : Nat)

def Call.apply (p : Pending β) : Call β → Pending β
  | .insertWaiting call now => (p.insertWaiting call.requestId call.hostId call.kind call.max now).2
  | .park requestId => (p.park requestId).2
  | .deliver requestId body now => p.deliver requestId body now
  | .drainExpired now cooldTimeout => (p.drainExpired now cooldTimeout).2

private theorem step_finish_head (p : Pending β) (inserting : List InsertCall) (x : Removal) (l : List Removal) :
    step ⟨p, inserting, x :: l⟩ (.finish x) = some ⟨p.erase x.requestId, inserting, l⟩ := by
  simp [step, finish]

/-- The removals of a sweep, one after the other. -/
private theorem run_finish_all (ids : List (String × Nat)) (p : Pending β) (inserting : List InsertCall)
    (l : List Removal) (removed : List (String × PendingSnapshot)) :
    run step ⟨p, inserting, ids.map (fun id => ⟨.drain, id.1, id.2⟩) ++ l⟩
        (ids.map fun id => .finish ⟨.drain, id.1, id.2⟩) =
      some ⟨(ids.foldl
        (fun acc id =>
          match acc.2.remove id.1 with
          | (some snapshot, p) => (acc.1 ++ [(id.1, snapshot)], p)
          | (none, p) => (acc.1, p)) (removed, p)).2, inserting, l⟩ := by
  induction ids generalizing p removed with
  | nil => rfl
  | cons id ids ih =>
    simp only [List.map_cons, List.cons_append, run, step_finish_head, Option.bind_some, List.foldl_cons,
      Pending.remove]
    cases (p.entry id.1).map fun e => (⟨e.hostId, e.kind⟩ : PendingSnapshot) with
    | none => exact ih (p.erase id.1) removed
    | some snapshot => exact ih (p.erase id.1) (removed ++ [(id.1, snapshot)])

/-- Without other calls, the steps of a call add up to the call as a whole. -/
theorem run_alone (s : PendingSys β) (call : Call β) :
    ∃ tr, run step s tr = some { s with pending := call.apply s.pending } := by
  cases call with
  | insertWaiting call now =>
    by_cases hmax : call.max ≤ s.pending.len
    · refine ⟨[.sample call], ?_⟩
      simp [run, step, sample, Call.apply, Pending.insertWaiting, hmax]
    · refine ⟨[.sample call, .insertEntry call now], ?_⟩
      simp [run, step, sample, insertEntry, Call.apply, Pending.insertWaiting, hmax]
  | park requestId =>
    cases he : s.pending.entry requestId with
    | none =>
      refine ⟨[.park requestId], ?_⟩
      simp [run, step, park, Call.apply, Pending.park, Pending.parkLock_of_none he]
    | some e =>
      cases hs : e.state with
      | waiting l =>
        refine ⟨[.park requestId], ?_⟩
        simp [run, step, park, Call.apply, Pending.park, Pending.parkLock_of_waiting he hs]
      | landed b u =>
        refine ⟨[.park requestId, .finish ⟨.park, requestId, e.gen⟩], ?_⟩
        have hhalf : s.half .park requestId = [⟨.park, requestId, e.gen⟩] := by simp [half, he]
        simp [run, step, park, finish, Call.apply, Pending.park, Pending.parkLock_of_landed he hs, hhalf]
  | deliver requestId body now =>
    have hflag := Pending.fst_deliverLock s.pending requestId body now
    by_cases hlive : s.pending.sinks requestId = []
    · refine ⟨[.deliver requestId body now], ?_⟩
      simp [run, step, deliver, Call.apply, Pending.deliver_eq, hflag, hlive]
    · obtain ⟨rx, hrx⟩ := List.exists_mem_of_ne_nil _ hlive
      obtain ⟨e, l, he, -⟩ := Pending.waiting_of_mem_sinks hrx
      refine ⟨[.deliver requestId body now, .finish ⟨.deliver, requestId, e.gen⟩], ?_⟩
      have hhalf : s.half .deliver requestId = [⟨.deliver, requestId, e.gen⟩] := by simp [half, he]
      simp [run, step, deliver, finish, Call.apply, Pending.deliver_eq, hflag, hlive, hhalf]
  | drainExpired now cooldTimeout =>
    refine ⟨.drainSample now cooldTimeout :: (s.pending.drainSample now cooldTimeout).map
      fun id => .finish ⟨.drain, id.1, id.2⟩, ?_⟩
    exact run_finish_all _ s.pending s.inserting s.finishing []

private theorem sinksOpen_run (h : s.pending.SinksOpen) (hr : run step s tr = some s') : s'.pending.SinksOpen :=
  invariant_of_step (I := fun s : PendingSys β => s.pending.SinksOpen)
    (fun _ a _ hs hstep => step_pending hstep ▸ Pending.sinksOpen_apply hs a) h hr

theorem sinksOpen_init : (init : PendingSys β).pending.SinksOpen := by
  intro r rx hrx
  cases hrx

private theorem settled_run {rx : Nat} {o : Oneshot β} (ho : s.pending.oneshots[rx]? = some o) (hne : o ≠ .empty)
    (hr : run step s tr = some s') : s'.pending.oneshots[rx]? = some o :=
  invariant_of_step (I := fun s : PendingSys β => s.pending.oneshots[rx]? = some o)
    (fun _ a _ hs hstep => step_pending hstep ▸ Pending.settled_apply hs hne a) ho hr

/-- What becomes of a parked handler: it is still parked, or a response was delivered to its request id, or the
entry was removed while the handler was parked on it. -/
private theorem parked_run {rx : Nat} (h : s.pending.SinksOpen) (hrx : rx ∈ s.pending.sinks r)
    (hr : run step s tr = some s') :
    rx ∈ s'.pending.sinks r ∨
      (∃ b now, .deliver r b now ∈ tr ∧ s'.pending.oneshots[rx]? = some (.sent b)) ∨
      (s'.pending.oneshots[rx]? = some .closed ∧ ∃ t a u s₁, tr = t ++ a :: u ∧ run step s t = some s₁ ∧
        rx ∈ s₁.pending.sinks r ∧ a.Erases r) := by
  induction tr generalizing s with
  | nil =>
    simp only [run_nil, Option.some.injEq] at hr
    exact Or.inl (hr ▸ hrx)
  | cons a tr ih =>
    obtain ⟨s₁, h₁, h₂⟩ := run_cons_eq_some.1 hr
    have hp := step_pending h₁
    rcases Pending.mem_sinks_apply h hrx a with hm | ⟨b, now, rfl, hb⟩ | ⟨ha, hc⟩
    · rw [← hp] at hm
      rcases ih (hp ▸ Pending.sinksOpen_apply h a) hm h₂ with h' | ⟨b, now, hb, hs⟩ | ⟨hs, t, a', u, s₂, rfl, ht, h'⟩
      · exact Or.inl h'
      · exact Or.inr (Or.inl ⟨b, now, List.mem_cons_of_mem _ hb, hs⟩)
      · exact Or.inr (Or.inr ⟨hs, a :: t, a', u, s₂, rfl, run_cons_eq_some.2 ⟨s₁, h₁, ht⟩, h'⟩)
    · rw [← hp] at hb
      exact Or.inr (Or.inl ⟨b, now, List.mem_cons_self .., settled_run hb (by simp) h₂⟩)
    · rw [← hp] at hc
      exact Or.inr (Or.inr ⟨settled_run hc (by simp) h₂, [], a, tr, s, rfl, rfl, hrx, ha⟩)

/-- A landed body was delivered in the run, or had landed before it. -/
private theorem landed_run {e : PendingEntry β} {b : β} {u : Nat} (hr : run step s tr = some s')
    (he : s'.entry r = some e) (hs : e.state = .landed b u) :
    s.entry r = some e ∨ ∃ now, .deliver r b now ∈ tr := by
  induction tr generalizing s with
  | nil =>
    simp only [run_nil, Option.some.injEq] at hr
    exact Or.inl (hr ▸ he)
  | cons a tr ih =>
    obtain ⟨s₁, h₁, h₂⟩ := run_cons_eq_some.1 hr
    rcases ih h₂ with h | ⟨now, h⟩
    · rw [entry, step_pending h₁] at h
      rcases Pending.landed_of_landed_apply h hs with h | ⟨now, rfl⟩
      · exact Or.inl h
      · exact Or.inr ⟨now, List.mem_cons_self ..⟩
    · exact Or.inr ⟨now, List.mem_cons_of_mem _ h⟩

/-! ### Second halves -/

/-- A second half that a step leaves behind acts on the entry that was there, and if it belongs to a `park` or a
`deliver` that entry has its response. -/
theorem mem_finishing_step {x : Removal} (h : s.step a = some s') (hx : x ∈ s'.finishing) :
    x ∈ s.finishing ∨ ∃ e, s.entry x.requestId = some e ∧ e.gen = x.gen ∧
      (x.half ≠ .drain → ¬ s'.pending.Waiting x.requestId) := by
  have hhalf : ∀ half q, x ∈ s.half half q →
      ∃ e, s.entry q = some e ∧ x.requestId = q ∧ e.gen = x.gen := by
    intro half q hm
    simp only [PendingSys.half, Option.mem_toList, Option.map_eq_some_iff] at hm
    obtain ⟨e, he, rfl⟩ := hm
    exact ⟨e, he, rfl, rfl⟩
  cases a with
  | sample call =>
    obtain rfl := Option.some.inj h
    left
    simp only [sample] at hx
    split at hx <;> exact hx
  | insertEntry call now =>
    simp only [step] at h
    split at h
    · obtain rfl := Option.some.inj h
      exact Or.inl hx
    · cases h
  | park q =>
    obtain rfl := Option.some.inj h
    simp only [PendingSys.park] at hx ⊢
    split at hx
    · rename_i b hb
      rcases List.mem_append.1 hx with hx | hx
      · obtain ⟨e, he, rfl, hg⟩ := hhalf _ _ hx
        refine Or.inr ⟨e, he, hg, fun _ hw => ?_⟩
        -- a park has a second half only when it took a landed body
        cases hs : e.state with
        | waiting l =>
          rw [Pending.parkLock_of_waiting he hs] at hb
          cases hb
        | landed b' u =>
          rw [Pending.parkLock_of_landed he hs] at hw
          obtain ⟨e', l, he', hs'⟩ := hw
          obtain rfl := Option.some.inj (he.symm.trans he')
          rw [hs] at hs'
          cases hs'
      · exact Or.inl hx
    · exact Or.inl hx
  | deliver q body now =>
    obtain rfl := Option.some.inj h
    simp only [PendingSys.deliver] at hx ⊢
    split at hx
    · rcases List.mem_append.1 hx with hx | hx
      · obtain ⟨e, he, rfl, hg⟩ := hhalf _ _ hx
        refine Or.inr ⟨e, he, hg, fun _ hw => ?_⟩
        obtain ⟨e', l, he', hs'⟩ := hw
        rw [Pending.entry_deliverLock, if_pos rfl, Option.map_eq_some_iff] at he'
        obtain ⟨e'', -, rfl⟩ := he'
        cases hs'
      · exact Or.inl hx
    · exact Or.inl hx
  | drainSample now timeout =>
    obtain rfl := Option.some.inj h
    simp only [PendingSys.drainSample] at hx ⊢
    rcases List.mem_append.1 hx with hx | hx
    · rw [List.mem_map] at hx
      obtain ⟨⟨q, g⟩, hq, rfl⟩ := hx
      rw [Pending.drainSample, List.mem_filterMap] at hq
      obtain ⟨⟨k, e⟩, hm, hk⟩ := hq
      split at hk
      · simp only [Option.some.injEq, Prod.mk.injEq] at hk
        obtain ⟨rfl, rfl⟩ := hk
        exact Or.inr ⟨e, Dict.lookup_eq_some_iff_mem.2 hm, rfl, fun hd => absurd rfl hd⟩
      · cases hk
    · exact Or.inl hx
  | finish removal =>
    simp only [step] at h
    split at h
    · obtain rfl := Option.some.inj h
      exact Or.inl (List.mem_of_mem_erase hx)
    · cases h
  | remove q =>
    obtain rfl := Option.some.inj h
    exact Or.inl hx

/-- The step inserts the entry of a request id. -/
def Inserts (r : String) (s : PendingSys β) (a : PendingOp β) : Prop := Pending.Inserts r s.pending a

/-- The step is a `deliver` that finds the entry of a request id. -/
def Delivers (r : String) (s : PendingSys β) (a : PendingOp β) : Prop :=
  (∃ b now, a = .deliver r b now) ∧ (s.entry r).isSome

/-- The step removes the entry of a request id from the map. -/
def Removes (r : String) (s : PendingSys β) (a : PendingOp β) : Prop := a.Erases r ∧ (s.entry r).isSome

/-- Nothing has been inserted for the request id so far. -/
private def Unborn (r : String) (s : PendingSys β) : Prop :=
  s.entry r = none ∧ ∀ x ∈ s.finishing, x.requestId = r → x.half = .drain

/-- A second half of a `park` or a `deliver` finds no waiting entry. -/
private def HalvesLate (r : String) (s : PendingSys β) : Prop :=
  ∀ x ∈ s.finishing, x.requestId = r → x.half ≠ .drain → ¬ s.pending.Waiting r

private theorem unborn_step (h : Unborn r s) (ha : ¬ Inserts r s a) (hs : s.step a = some s') : Unborn r s' := by
  refine ⟨?_, fun x hx hr => ?_⟩
  · rw [entry, step_pending hs]
    exact Pending.entry_apply_none h.1 ha
  · rcases mem_finishing_step hs hx with hx | ⟨e, he, -, -⟩
    · exact h.2 x hx hr
    · rw [hr, h.1] at he
      cases he

private theorem halvesLate_step (h : HalvesLate r s) (ha : ¬ Inserts r s a) (hs : s.step a = some s') :
    HalvesLate r s' := by
  intro x hx hr hd hw
  have hw' : s.pending.Waiting r := by
    rw [step_pending hs] at hw
    exact (Pending.waiting_of_waiting_apply hw).resolve_right ha
  rcases mem_finishing_step hs hx with hx | ⟨e, -, -, hlate⟩
  · exact h x hx hr hd hw'
  · exact hlate hd (hr ▸ hw)

private theorem halvesLate_of_unborn (h : Unborn r s) (hs : s.step a = some s') : HalvesLate r s' := by
  intro x hx hr hd
  rcases mem_finishing_step hs hx with hx | ⟨e, he, -, -⟩
  · exact absurd (h.2 x hx hr) hd
  · rw [hr, h.1] at he
    cases he

/-- In a run that inserts a request id at most once, either nothing has been inserted yet, or nothing more will be
and the second halves of `park` and `deliver` find no waiting entry. -/
private theorem unborn_or_late {t u : List (PendingOp β)} (h : AtMostOnce step (Inserts r) init (t ++ u))
    (hr : run step init t = some s) :
    Unborn r s ∨ (HalvesLate r s ∧ Along step (fun s a => ¬ Inserts r s a) s u) :=
  AtMostOnce.before_or_after (U := Unborn r) (V := HalvesLate r) (fun _ _ _ => unborn_step)
    (fun _ _ _ hs _ => halvesLate_of_unborn hs) (fun _ _ _ => halvesLate_step) ⟨rfl, fun _ hx => by cases hx⟩ h hr

/-! ### What a parked handler gets -/

/-- The handler that parked on `r` in state `s₁` has obtained `b` by the time of `s`. -/
def Obtains (s₁ s : PendingSys β) (r : String) (b : β) : Prop :=
  (s₁.park r).1 = .alreadyLanded b ∨
    ∃ rx, (s₁.park r).1 = .parked rx ∧ s.pending.oneshots[rx]? = some (.sent b)

/-- The guarantees of the pending map for one request id, at the end `s` of a run `tr`. -/
structure DeliveryContract (r : String) (tr : List (PendingOp β)) (s : PendingSys β) : Prop where
  /-- A handler that parks before any delivery gets the first body delivered after it. -/
  parkedGetsFirst : ∀ t₁ t₂ t₃ b now s₁ s₂, tr = t₁ ++ .park r :: (t₂ ++ .deliver r b now :: t₃) →
    run step init t₁ = some s₁ → (s₁.entry r).isSome → Along step (fun s a => ¬ Delivers r s a) init t₁ →
    s₁.step (.park r) = some s₂ → Along step (fun s a => ¬ Delivers r s a ∧ ¬ Removes r s a) s₂ t₂ →
    ∃ rx, (s₁.park r).1 = .parked rx ∧ s.pending.oneshots[rx]? = some (.sent b)
  /-- A handler that parks after a delivery gets the body of the latest one at once. -/
  lateGetsLatest : ∀ t₁ t₂ t₃ b now s₁ s₂ s₃, tr = t₁ ++ .deliver r b now :: (t₂ ++ .park r :: t₃) →
    run step init t₁ = some s₁ → (s₁.entry r).isSome → s₁.step (.deliver r b now) = some s₂ →
    Along step (fun s a => ¬ Delivers r s a ∧ ¬ Removes r s a) s₂ t₂ → run step s₂ t₂ = some s₃ →
    (s₃.park r).1 = .alreadyLanded b
  /-- A handler obtains only bodies that were delivered for its request id. -/
  obtainsDelivered : ∀ t₁ t₂ s₁ b, tr = t₁ ++ .park r :: t₂ → run step init t₁ = some s₁ → Obtains s₁ s r b →
    ∃ now, .deliver r b now ∈ tr
  /-- A handler never obtains a second body. -/
  obtainsOnce : ∀ t₁ t₂ t₃ s₁ s₂ b b', tr = t₁ ++ .park r :: (t₂ ++ t₃) → run step init t₁ = some s₁ →
    run step init (t₁ ++ .park r :: t₂) = some s₂ → Obtains s₁ s₂ r b → Obtains s₁ s r b' → b' = b
  /-- A parked handler sees an error only if `drain_expired` or `remove` took the entry while it was waiting. -/
  closedOnlyByEviction : ∀ t₁ t₂ s₁ rx, tr = t₁ ++ .park r :: t₂ → run step init t₁ = some s₁ →
    (s₁.park r).1 = .parked rx → s.pending.oneshots[rx]? = some .closed →
    ∃ t a u s₂, t₂ = t ++ a :: u ∧ run step init (t₁ ++ .park r :: t) = some s₂ ∧ s₂.pending.Waiting r ∧
      (a = .remove r ∨ ∃ g, a = .finish ⟨.drain, r, g⟩)
  /-- Once a `deliver` that fanned out has returned, the request id has no entry. -/
  goneAfterFanOut : ∀ t₁ t₂ g, tr = t₁ ++ .finish ⟨.deliver, r, g⟩ :: t₂ → s.entry r = none
  /-- Steps on other request ids leave the entry alone. -/
  frame : ∀ t₁ a t₂ s₁ s₂, tr = t₁ ++ a :: t₂ → run step init t₁ = some s₁ → s₁.step a = some s₂ → ¬ a.On r →
    s₂.entry r = s₁.entry r

/-- An entry to which nothing was delivered is waiting. -/
private theorem waiting_of_undelivered (h : Along step (fun s a => ¬ Delivers r s a) init tr)
    (hr : run step init tr = some s) {e : PendingEntry β} (he : s.entry r = some e) : ∃ l, e.state = .waiting l := by
  refine invariant (I := fun s : PendingSys β => ∀ e, s.entry r = some e → ∃ l, e.state = .waiting l)
    ?_ (fun e he => by cases he) h hr e he
  intro s a s' hs hd hstep e he
  rw [entry, step_pending hstep] at he
  cases hst : e.state with
  | waiting l => exact ⟨l, rfl⟩
  | landed b u =>
    rcases Pending.landed_of_landed_apply he hst with h' | ⟨now, rfl⟩
    · obtain ⟨l, hl⟩ := hs e h'
      rw [hst] at hl
      cases hl
    · refine absurd ⟨⟨b, now, rfl⟩, ?_⟩ hd
      rw [PendingOp.apply, Pending.entry_deliverLock, if_pos rfl, Option.map_eq_some_iff] at he
      obtain ⟨e', he', -⟩ := he
      rw [entry, he']
      rfl

private theorem park_parkedGetsFirst {t₁ t₂ t₃ : List (PendingOp β)} {b : β} {now : Nat} {s₁ s₂ : PendingSys β}
    (hr : run step init (t₁ ++ .park r :: (t₂ ++ .deliver r b now :: t₃)) = some s) (h₁ : run step init t₁ = some s₁)
    (he : (s₁.entry r).isSome) (hd : Along step (fun s a => ¬ Delivers r s a) init t₁)
    (h₂ : s₁.step (.park r) = some s₂)
    (h₃ : Along step (fun s a => ¬ Delivers r s a ∧ ¬ Removes r s a) s₂ t₂) :
    ∃ rx, (s₁.park r).1 = .parked rx ∧ s.pending.oneshots[rx]? = some (.sent b) := by
  obtain ⟨e, he⟩ := Option.isSome_iff_exists.1 he
  obtain ⟨l, hl⟩ := waiting_of_undelivered hd h₁ he
  have hpark : (s₁.pending.parkLock r).1 = .parked s₁.pending.oneshots.length := by
    rw [Pending.parkLock_of_waiting he hl]
  refine ⟨_, hpark, ?_⟩
  obtain ⟨s₁', h₁', hr⟩ := run_append_eq_some.1 hr
  obtain rfl := Option.some.inj (h₁.symm.trans h₁')
  obtain ⟨s₂', h₂', hr⟩ := run_cons_eq_some.1 hr
  obtain rfl := Option.some.inj (h₂.symm.trans h₂')
  obtain ⟨s₃, hs₃, hr⟩ := run_append_eq_some.1 hr
  obtain ⟨s₄, hs₄, hr⟩ := run_cons_eq_some.1 hr
  -- the handler stays parked up to the delivery
  have hparked : s₃.pending.SinksOpen ∧ s₁.pending.oneshots.length ∈ s₃.pending.sinks r := by
    refine invariant (I := fun s : PendingSys β => s.pending.SinksOpen ∧
      s₁.pending.oneshots.length ∈ s.pending.sinks r) ?_ ⟨?_, ?_⟩ h₃ hs₃
    · intro s a s' hs ha hstep
      rw [step_pending hstep]
      refine ⟨Pending.sinksOpen_apply hs.1 a, ?_⟩
      have hsome := (Pending.waiting_of_mem_sinks hs.2).isSome_entry
      rcases Pending.mem_sinks_apply hs.1 hs.2 a with hm | ⟨b, now, rfl, -⟩ | ⟨hera, -⟩
      · exact hm
      · exact absurd ⟨⟨b, now, rfl⟩, hsome⟩ ha.1
      · exact absurd ⟨hera, hsome⟩ ha.2
    · rw [step_pending h₂]
      exact Pending.sinksOpen_parkLock (sinksOpen_run sinksOpen_init h₁) r
    · rw [step_pending h₂]
      exact Pending.mem_sinks_of_parkLock hpark
  refine settled_run ?_ (by simp) hr
  rw [step_pending hs₄]
  exact Pending.sent_deliverLock hparked.1 hparked.2 b now

private theorem park_lateGetsLatest {t₂ : List (PendingOp β)} {b : β} {now : Nat} {s₁ s₂ s₃ : PendingSys β}
    (he : (s₁.entry r).isSome) (h₁ : s₁.step (.deliver r b now) = some s₂)
    (h₂ : Along step (fun s a => ¬ Delivers r s a ∧ ¬ Removes r s a) s₂ t₂) (h₃ : run step s₂ t₂ = some s₃) :
    (s₃.park r).1 = .alreadyLanded b := by
  have hlanded : ∃ e u, s₃.entry r = some e ∧ e.state = .landed b u := by
    refine invariant (I := fun s : PendingSys β => ∃ e u, s.entry r = some e ∧ e.state = .landed b u) ?_ ?_ h₂ h₃
    · rintro s a s' ⟨e, u, he, hs⟩ ha hstep
      have hsome : (s.entry r).isSome := by rw [he]; rfl
      refine ⟨e, u, ?_, hs⟩
      rw [entry, step_pending hstep]
      refine Pending.entry_apply_of_landed he hs ?_ (fun h => ha.2 ⟨h, hsome⟩)
      rintro b' now' rfl
      exact ha.1 ⟨⟨b', now', rfl⟩, hsome⟩
    · obtain ⟨e, he⟩ := Option.isSome_iff_exists.1 he
      refine ⟨Pending.land b now e, now + fromSecs landedTtlSecs, ?_, rfl⟩
      rw [entry, step_pending h₁, PendingOp.apply, Pending.entry_deliverLock, if_pos rfl,
        show s₁.pending.entry r = some e from he]
      rfl
  obtain ⟨e, u, he, hs⟩ := hlanded
  show (s₃.pending.parkLock r).1 = .alreadyLanded b
  rw [Pending.parkLock_of_landed he hs]

private theorem obtains_delivered {t₁ t₂ : List (PendingOp β)} {s₁ : PendingSys β} {b : β}
    (hr : run step init (t₁ ++ .park r :: t₂) = some s) (h₁ : run step init t₁ = some s₁) (hb : Obtains s₁ s r b) :
    ∃ now, .deliver r b now ∈ t₁ ++ .park r :: t₂ := by
  rcases hb with hb | ⟨rx, hpark, hb⟩
  · obtain ⟨e, u, he, hs⟩ := Pending.landed_of_parkLock hb
    rcases landed_run h₁ he hs with h | ⟨now, h⟩
    · cases h
    · exact ⟨now, List.mem_append_left _ h⟩
  · obtain ⟨s₁', h₁', hr⟩ := run_append_eq_some.1 hr
    obtain rfl := Option.some.inj (h₁.symm.trans h₁')
    obtain ⟨s₂, h₂, hr⟩ := run_cons_eq_some.1 hr
    have hopen : s₂.pending.SinksOpen := by
      rw [step_pending h₂]
      exact Pending.sinksOpen_parkLock (sinksOpen_run sinksOpen_init h₁) r
    have hrx : rx ∈ s₂.pending.sinks r := by
      rw [step_pending h₂]
      exact Pending.mem_sinks_of_parkLock hpark
    -- the parked handler still waits, was answered, or its entry was removed
    rcases parked_run hopen hrx hr with h | ⟨b', now, hm, hb'⟩ | ⟨hc, -⟩
    · have := (sinksOpen_run hopen hr r rx h).1
      rw [hb] at this
      cases this
    · rw [hb] at hb'
      simp only [Option.some.injEq, Oneshot.sent.injEq] at hb'
      subst hb'
      exact ⟨now, List.mem_append_right _ (List.mem_cons_of_mem _ hm)⟩
    · rw [hb] at hc
      cases hc

private theorem obtains_once {t₃ : List (PendingOp β)} {s₁ s₂ : PendingSys β} {b b' : β}
    (hr : run step s₂ t₃ = some s) (hb : Obtains s₁ s₂ r b) (hb' : Obtains s₁ s r b') : b' = b := by
  rcases hb with hb | ⟨rx, hpark, hb⟩ <;> rcases hb' with hb' | ⟨rx', hpark', hb'⟩
  · rw [hb] at hb'
    simpa using hb'.symm
  · rw [hb] at hpark'
    cases hpark'
  · rw [hpark] at hb'
    cases hb'
  · rw [hpark] at hpark'
    simp only [ParkResult.parked.injEq] at hpark'
    subst hpark'
    rw [settled_run hb (by simp) hr] at hb'
    simpa using hb'.symm

private theorem closed_by_eviction {t₁ t₂ : List (PendingOp β)} {s₁ : PendingSys β} {rx : Nat}
    (hins : AtMostOnce step (Inserts r) init (t₁ ++ .park r :: t₂))
    (hr : run step init (t₁ ++ .park r :: t₂) = some s) (h₁ : run step init t₁ = some s₁)
    (hpark : (s₁.park r).1 = .parked rx) (hc : s.pending.oneshots[rx]? = some .closed) :
    ∃ t a u s₂, t₂ = t ++ a :: u ∧ run step init (t₁ ++ .park r :: t) = some s₂ ∧ s₂.pending.Waiting r ∧
      (a = .remove r ∨ ∃ g, a = .finish ⟨.drain, r, g⟩) := by
  obtain ⟨s₁', h₁', hr₁⟩ := run_append_eq_some.1 hr
  obtain rfl := Option.some.inj (h₁.symm.trans h₁')
  obtain ⟨s₂, h₂, hr₂⟩ := run_cons_eq_some.1 hr₁
  have hopen : s₂.pending.SinksOpen := by
    rw [step_pending h₂]
    exact Pending.sinksOpen_parkLock (sinksOpen_run sinksOpen_init h₁) r
  have hrx : rx ∈ s₂.pending.sinks r := by
    rw [step_pending h₂]
    exact Pending.mem_sinks_of_parkLock hpark
  rcases parked_run hopen hrx hr₂ with h | ⟨b', now, hm, hb'⟩ | ⟨-, t, a, u, s₃, rfl, ht, hm, hera⟩
  · have := (sinksOpen_run hopen hr₂ r rx h).1
    rw [hc] at this
    cases this
  · rw [hc] at hb'
    cases hb'
  · have hrun : run step init (t₁ ++ .park r :: t) = some s₃ :=
      run_append_eq_some.2 ⟨s₁, h₁, run_cons_eq_some.2 ⟨s₂, h₂, ht⟩⟩
    have hw := Pending.waiting_of_mem_sinks hm
    refine ⟨t, a, u, s₃, rfl, hrun, hw, ?_⟩
    rcases hera with rfl | ⟨x, rfl, rfl⟩
    · exact Or.inl rfl
    · right
      -- the removal is a second half in flight, so it cannot be one of a `park` or a `deliver`
      obtain ⟨s₃', hs₃', hs₄⟩ := run_append_eq_some.1 hr₂
      obtain rfl := Option.some.inj (ht.symm.trans hs₃')
      obtain ⟨s₄, hfin, -⟩ := run_cons_eq_some.1 hs₄
      have hx : x ∈ s₃.finishing := by
        simp only [step] at hfin
        split at hfin
        · assumption
        · cases hfin
      have hdrain : x.half = .drain := by
        have heq : t₁ ++ PendingOp.park x.requestId :: (t ++ .finish x :: u) =
            (t₁ ++ .park x.requestId :: t) ++ .finish x :: u := by simp
        rw [heq] at hins
        rcases unborn_or_late hins hrun with hU | ⟨hV, -⟩
        · exact hU.2 x hx rfl
        · by_contra hne
          exact hV x hx rfl hne hw
      exact ⟨x.gen, by rw [← hdrain]⟩

private theorem gone_after_fan_out {t₁ t₂ : List (PendingOp β)} {g : Nat}
    (hins : AtMostOnce step (Inserts r) init (t₁ ++ .finish ⟨.deliver, r, g⟩ :: t₂))
    (hr : run step init (t₁ ++ .finish ⟨.deliver, r, g⟩ :: t₂) = some s) : s.entry r = none := by
  obtain ⟨s₁, h₁, hr⟩ := run_append_eq_some.1 hr
  obtain ⟨s₂, h₂, hr⟩ := run_cons_eq_some.1 hr
  have hx : (⟨.deliver, r, g⟩ : Removal) ∈ s₁.finishing := by
    simp only [step] at h₂
    split at h₂
    · assumption
    · cases h₂
  rcases unborn_or_late hins h₁ with hU | ⟨-, hno⟩
  · cases hU.2 _ hx rfl
  · refine invariant (I := fun s : PendingSys β => s.entry r = none) ?_ ?_ (hno.2 s₂ h₂) hr
    · intro s a s' hs ha hstep
      rw [entry, step_pending hstep]
      exact Pending.entry_apply_none hs ha
    · rw [entry, step_pending h₂, PendingOp.apply, Pending.entry_erase, if_pos rfl]

/-- Delivery: over every interleaving of the atomic steps of any calls on any request ids, a request id that is
inserted at most once keeps the delivery contract. -/
theorem pending_delivery (r : String) (tr : List (PendingOp β)) (s : PendingSys β)
    (hr : run step init tr = some s) (hins : AtMostOnce step (Inserts r) init tr) : DeliveryContract r tr s where
  parkedGetsFirst := by
    rintro t₁ t₂ t₃ b now s₁ s₂ rfl h₁ he hd h₂ h₃
    exact park_parkedGetsFirst hr h₁ he hd h₂ h₃
  lateGetsLatest := by
    rintro t₁ t₂ t₃ b now s₁ s₂ s₃ rfl - he h₂ h₃ h₄
    exact park_lateGetsLatest he h₂ h₃ h₄
  obtainsDelivered := by
    rintro t₁ t₂ s₁ b rfl h₁ hb
    exact obtains_delivered hr h₁ hb
  obtainsOnce := by
    rintro t₁ t₂ t₃ s₁ s₂ b b' rfl - h₂ hb hb'
    have heq : t₁ ++ PendingOp.park r :: (t₂ ++ t₃) = (t₁ ++ .park r :: t₂) ++ t₃ := by simp
    rw [heq] at hr
    obtain ⟨s₂', h₂', hr⟩ := run_append_eq_some.1 hr
    obtain rfl := Option.some.inj (h₂.symm.trans h₂')
    exact obtains_once hr hb hb'
  closedOnlyByEviction := by
    rintro t₁ t₂ s₁ rx rfl h₁ hpark hc
    exact closed_by_eviction hins hr h₁ hpark hc
  goneAfterFanOut := by
    rintro t₁ t₂ g rfl
    exact gone_after_fan_out hins hr
  frame := by
    rintro t₁ a t₂ s₁ s₂ - - h₂ ha
    rw [entry, step_pending h₂]
    exact Pending.entry_apply_of_not_on ha

/-- One dispatch: inserted, parked, answered. -/
def answeredTrace : List (PendingOp Nat) :=
  [.sample ⟨"r1", "10.0.0.1", .coold, 16⟩, .insertEntry ⟨"r1", "10.0.0.1", .coold, 16⟩ 0, .park "r1",
    .deliver "r1" 7 5, .finish ⟨.deliver, "r1", 0⟩]

theorem pending_delivery_answered :
    ∃ s, run step init answeredTrace = some s ∧ s.pending.oneshots = [.sent 7] ∧
      DeliveryContract "r1" answeredTrace s := by
  refine ⟨_, rfl, rfl, pending_delivery "r1" answeredTrace _ rfl ?_⟩
  simp [answeredTrace, AtMostOnce, Along, Inserts, Pending.Inserts]

end PendingSys

end Coold.Flux
