import Coold.Flux.PendingRuns

/-!
# How many dispatches are pending

`insert_waiting` samples the number of entries before it takes the lock of the shard, so calls that overlap can all
pass the capacity check and then all insert.  A call between the two steps is one of `inserting`.  The entries and the
calls that have still to insert are at most `max + k - 1` together (`crowd_step`), where `k` bounds the calls in
flight: a call joins them while there are fewer than `max` entries, an insertion turns a call into at most one entry,
and the other operations add no entry.
-/

namespace Coold.Flux

open Lts

variable {β : Type}

namespace Pending

variable (p : Pending β)

private theorem len_insertEntry_le (requestId hostId : String) (kind : PendingKind) (now : Nat) :
    (p.insertEntry requestId hostId kind now).2.len ≤ p.len + 1 := by
  unfold insertEntry
  split
  · exact Nat.le_succ _
  · simp only [len, Dict.length_insert]
    split <;> omega

private theorem len_erase_le (requestId : String) :
    (p.erase requestId).len ≤ p.len := Dict.length_erase_le p.map requestId

/-- An entry that is replaced is counted once. -/
private theorem length_insert_of_entry {p : Pending β} {requestId : String} {e : PendingEntry β}
    (he : p.entry requestId = some e) (e' : PendingEntry β) : (p.map.insert requestId e').entries.length = p.len := by
  have hsome : (p.map.lookup requestId).isSome := Option.isSome_iff_exists.2 ⟨e, he⟩
  rw [Dict.length_insert, if_pos hsome, len]

private theorem len_parkLock (requestId : String) : (p.parkLock requestId).2.len = p.len := by
  by_cases hw : p.Waiting requestId
  · obtain ⟨e, l, he, hs⟩ := hw
    rw [parkLock_of_waiting he hs]
    exact length_insert_of_entry he _
  · rw [parkLock_eq_self hw]

private theorem len_deliverLock (requestId : String) (body : β) (now : Nat) :
    (p.deliverLock requestId body now).2.len = p.len := by
  unfold deliverLock
  cases he : p.entry requestId with
  | none => rfl
  | some e => cases hs : e.state <;> simp only [hs] <;> exact length_insert_of_entry he _

/-- Only an insertion adds an entry, and it adds one. -/
private theorem len_apply_le (a : PendingOp β) (h : ∀ call now, a ≠ .insertEntry call now) :
    (a.apply p).len ≤ p.len := by
  cases a with
  | insertEntry call now => exact absurd rfl (h call now)
  | sample call => exact le_refl _
  | park requestId => exact (p.len_parkLock requestId).le
  | deliver requestId body now => exact (p.len_deliverLock requestId body now).le
  | drainSample now cooldTimeout => exact le_refl _
  | finish removal => exact p.len_erase_le removal.requestId
  | remove requestId => exact p.len_erase_le requestId

/-- A call that does not insert leaves the map as it was. -/
private theorem insertEntry_refused (requestId hostId : String) (kind : PendingKind) (now : Nat)
    (h : (p.insertEntry requestId hostId kind now).1 ≠ .inserted) :
    (p.insertEntry requestId hostId kind now).2 = p := by
  unfold insertEntry at h ⊢
  split
  · rfl
  · rename_i he
    rw [he] at h
    exact absurd rfl h

private theorem insertWaiting_refused (requestId hostId : String) (kind : PendingKind) (max now : Nat)
    (h : (p.insertWaiting requestId hostId kind max now).1 ≠ .inserted) :
    (p.insertWaiting requestId hostId kind max now).2 = p := by
  unfold insertWaiting at h ⊢
  split
  · rfl
  · rename_i hroom
    rw [if_neg hroom] at h
    exact p.insertEntry_refused requestId hostId kind now h

end Pending

namespace PendingSys

/-- The calls of `insert_waiting` that have passed the capacity check and not inserted yet. -/
def inFlight (s : PendingSys β) : Nat := s.inserting.length

/-- A call of `insert_waiting` checks against the cap. -/
def UsesCap (max : Nat) : PendingOp β → Prop
  | .sample call => call.max = max
  | _ => True

/-- The entries and the calls that may still add one. -/
def crowd (s : PendingSys β) : Nat := s.pending.len + s.inFlight

variable {s s' : PendingSys β} {a : PendingOp β} {max k : Nat}

/-- A step that neither samples nor inserts leaves the calls in flight as they are. -/
private theorem inserting_step (hs : s.step a = some s') (hsample : ∀ call, a ≠ .sample call)
    (hinsert : ∀ call now, a ≠ .insertEntry call now) : s'.inserting = s.inserting := by
  cases a with
  | sample call => exact absurd rfl (hsample call)
  | insertEntry call now => exact absurd rfl (hinsert call now)
  | finish removal =>
    simp only [step] at hs
    split at hs
    · obtain rfl := Option.some.inj hs
      rfl
    · cases hs
  | _ =>
    obtain rfl := Option.some.inj hs
    rfl

/-- A call that passes the capacity check finds room; one that does not leaves everything as it is. -/
private theorem sample_cases (s : PendingSys β) (call : InsertCall) :
    ((s.sample call).1 = false ∧ (s.sample call).2 = s) ∨
      ((s.sample call).1 = true ∧ s.pending.len < call.max ∧
        (s.sample call).2 = { s with inserting := call :: s.inserting }) := by
  unfold sample
  by_cases hfull : call.max ≤ s.pending.len
  · rw [if_pos hfull]
    exact Or.inl ⟨rfl, rfl⟩
  · rw [if_neg hfull]
    exact Or.inr ⟨rfl, by omega, rfl⟩

private theorem crowd_sample {call : InsertCall} (hmax : call.max = max) (hk : (s.sample call).2.inFlight ≤ k)
    (h : s.crowd ≤ max + k - 1) : (s.sample call).2.crowd ≤ max + k - 1 := by
  rcases s.sample_cases call with ⟨-, hsame⟩ | ⟨-, hroom, hjoin⟩
  · rw [hsame]
    exact h
  · -- the entries are fewer than `max` when the call joins the others
    rw [hjoin] at hk ⊢
    simp only [crowd, inFlight, List.length_cons] at hk ⊢
    omega

private theorem crowd_insertEntry {call : InsertCall} (now : Nat) (hmem : call ∈ s.inserting) :
    (s.insertEntry call now).2.crowd ≤ s.crowd := by
  have hlen := s.pending.len_insertEntry_le call.requestId call.hostId call.kind now
  have hleft : (s.inserting.erase call).length = s.inserting.length - 1 := List.length_erase_of_mem hmem
  have hpos : 0 < s.inserting.length := List.length_pos_of_mem hmem
  simp only [crowd, inFlight, insertEntry, hleft]
  omega

/-- As long as at most `k` calls are in flight, the crowd stays bounded. -/
theorem crowd_step (hcap : UsesCap max a) (hk : s'.inFlight ≤ k) (h : s.crowd ≤ max + k - 1)
    (hs : s.step a = some s') : s'.crowd ≤ max + k - 1 := by
  by_cases hsample : ∃ call, a = .sample call
  · obtain ⟨call, rfl⟩ := hsample
    obtain rfl := Option.some.inj hs
    exact crowd_sample hcap hk h
  by_cases hinsert : ∃ call now, a = .insertEntry call now
  · obtain ⟨call, now, rfl⟩ := hinsert
    simp only [step] at hs
    split at hs
    · rename_i hmem
      obtain rfl := Option.some.inj hs
      exact (crowd_insertEntry now hmem).trans h
    · cases hs
  · -- the other operations add no entry and no call
    have hno : ∀ call now, a ≠ .insertEntry call now := fun call now ha => hinsert ⟨call, now, ha⟩
    have hlen : s'.pending.len ≤ s.pending.len := step_pending hs ▸ s.pending.len_apply_le a hno
    have hcalls := inserting_step hs (fun call ha => hsample ⟨call, ha⟩) hno
    simp only [crowd, inFlight, hcalls] at h ⊢
    omega

/-- The pending map never holds more than `max + k - 1` entries while at most `k` calls of `insert_waiting` are in
flight, however their steps and those of the other operations are interleaved.  So it never holds more than `max` if
insertions do not overlap.  A call that does not insert leaves the map as it was. -/
theorem occupancy_bound (max : Nat) (tr : List (PendingOp β)) (hcap : ∀ a ∈ tr, UsesCap max a) :
    (∀ k, 1 ≤ k → Always step (fun s => s.inFlight ≤ k) init tr →
        Always step (fun s => s.pending.len ≤ max + k - 1) init tr) ∧
      (Always step (fun s => s.inFlight ≤ 1) init tr → Always step (fun s => s.pending.len ≤ max) init tr) ∧
      (∀ (s : PendingSys β) call, (s.sample call).1 = false → (s.sample call).2 = s) ∧
      (∀ (s : PendingSys β) call now, (s.insertEntry call now).1 ≠ .inserted →
        (s.insertEntry call now).2.pending = s.pending) ∧
      ∀ (p : Pending β) requestId hostId kind now,
        (p.insertWaiting requestId hostId kind max now).1 ≠ .inserted →
          (p.insertWaiting requestId hostId kind max now).2 = p := by
  have hbound : ∀ k, Always step (fun s => s.inFlight ≤ k) init tr →
      Always step (fun s => s.pending.len ≤ max + k - 1) init tr := by
    intro k hk
    have hcrowd : Always step (fun s : PendingSys β => s.crowd ≤ max + k - 1) init tr :=
      Always.of_always (fun s a s' ha hk hs => crowd_step ha hk hs) hcap hk (Nat.zero_le _)
    exact hcrowd.mono fun s hs => (Nat.le_add_right _ _).trans hs
  refine ⟨fun k _ => hbound k, hbound 1, ?_, ?_, ?_⟩
  · intro s call hfull
    rcases s.sample_cases call with ⟨-, hsame⟩ | ⟨hok, -⟩
    · exact hsame
    · rw [hok] at hfull
      cases hfull
  · exact fun s call now => s.pending.insertEntry_refused call.requestId call.hostId call.kind now
  · exact fun p requestId hostId kind now => p.insertWaiting_refused requestId hostId kind max now

/-- Two calls pass the check of a map with room for one entry before either inserts. -/
def overlappingTrace : List (PendingOp Nat) :=
  [.sample ⟨"r1", "10.0.0.1", .coold, 1⟩, .sample ⟨"r2", "10.0.0.1", .coold, 1⟩,
    .insertEntry ⟨"r1", "10.0.0.1", .coold, 1⟩ 0, .insertEntry ⟨"r2", "10.0.0.1", .coold, 1⟩ 0]

/-- The bound for two calls in flight, which these two calls reach. -/
theorem occupancy_bound_overlapping :
    Always step (fun s => s.pending.len ≤ 1 + 2 - 1) init overlappingTrace ∧
      ∃ s, run step init overlappingTrace = some s ∧ s.pending.len = 2 := by
  have hcap : ∀ a ∈ overlappingTrace, UsesCap 1 a := by simp [overlappingTrace, UsesCap]
  refine ⟨(occupancy_bound 1 overlappingTrace hcap).1 2 (by decide) ?_, _, rfl, rfl⟩
  simp [overlappingTrace, Always, inFlight, step, sample, insertEntry, init, Pending.len, Pending.new]

end PendingSys

end Coold.Flux
