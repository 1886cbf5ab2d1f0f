import Coold.Lib.Dict
import Coold.Lib.Lts

/-!
# The pending dispatches of flux

`Pending` tracks one entry per request id: `waiting` with the handlers parked on it, or `landed` with a response
that no handler has taken yet.  The body type is a parameter, since nothing here looks into a body.  The `oneshot`
channels that parked handlers wait on are numbered in the order of their creation.

`park`, `deliver` and `drainExpired` take the shard lock, release it, and then remove by request id.  `PendingSys`
is the map together with the calls that are between two of their atomic steps, and `PendingSys.step` is one atomic
step of any caller; every interleaving of any number of calls is a run of it.
-/

namespace Coold.Flux

/-- Instants and durations count nanoseconds. -/
def fromSecs (secs : Nat) : Nat := secs * 1000000000

def landedTtlSecs : Nat := 30

inductive PendingKind where
  | coold
  deriving DecidableEq

/-- A `oneshot` channel, seen from its receiver. -/
inductive Oneshot (β : Type) where
  | empty
  | sent (body : β)
  | closed
  deriving DecidableEq

namespace Oneshot

variable {β : Type}

def send (body : β) : Oneshot β → Oneshot β
  | .empty => .sent body
  | o => o

/-- The sender was dropped. -/
def close : Oneshot β → Oneshot β
  | .empty => .closed
  | o => o

/-- Apply `f` to the channels with the given numbers. -/
def settle (f : Oneshot β → Oneshot β) (sinks : List Nat) (l : List (Oneshot β)) : List (Oneshot β) :=
  l.mapIdx fun i o => if i ∈ sinks then f o else o

theorem getElem?_settle (f : Oneshot β → Oneshot β) (sinks : List Nat) (l : List (Oneshot β)) (i : Nat) :
    (settle f sinks l)[i]? = l[i]?.map fun o => if i ∈ sinks then f o else o := by
  rw [settle, List.getElem?_mapIdx]

theorem length_settle (f : Oneshot β → Oneshot β) (sinks : List Nat) (l : List (Oneshot β)) :
    (settle f sinks l).length = l.length := by
  rw [settle, List.length_mapIdx]

end Oneshot

inductive PendingState (β : Type) where
  | waiting (sinks : List Nat)
  | landed (body : β) (until_ : Nat)
  deriving DecidableEq

/-- The handlers parked on an entry. -/
def PendingState.sinks {β : Type} : PendingState β → List Nat
  | .waiting sinks => sinks
  | .landed _ _ => []

/-- `gen` is a ghost: the number of the insertion that made the entry.  No operation reads it. -/
structure PendingEntry (β : Type) where
  hostId : String
  kind : PendingKind
  startedAt : Nat
  state : PendingState β
  gen : Nat
  deriving DecidableEq

structure PendingSnapshot where
  hostId : String
  kind : PendingKind
  deriving DecidableEq

inductive ParkResult (β : Type) where
  | parked (rx : Nat)
  | alreadyLanded (body : β)
  | notFound
  deriving DecidableEq

inductive InsertOutcome where
  | inserted
  | duplicate
  | atCapacity
  deriving DecidableEq

/-- The shared map, with the channels created so far and (ghost) the number of insertions so far. -/
structure Pending (β : Type) where
  map : Dict String (PendingEntry β)
  oneshots : List (Oneshot β)
  gens : Nat

namespace Pending

variable {β : Type}

def new : Pending β := ⟨∅, [], 0⟩

def len (p : Pending β) : Nat := p.map.entries.length

def entry (p : Pending β) (requestId : String) : Option (PendingEntry β) := p.map.lookup requestId

/-- The second step of `insert_waiting`, under the shard lock. -/
def insertEntry (p : Pending β) (requestId hostId : String) (kind : PendingKind) (now : Nat) :
    InsertOutcome × Pending β :=
  match p.entry requestId with
  | some _ => (.duplicate, p)
  | none =>
    (.inserted,
      { p with
        map := p.map.insert requestId
          { hostId := hostId, kind := kind, startedAt := now, state := .waiting [], gen := p.gens }
        gens := p.gens + 1 })

def insertWaiting (p : Pending β) (requestId hostId : String) (kind : PendingKind) (max now : Nat) :
    InsertOutcome × Pending β :=
  if max ≤ p.len then (.atCapacity, p) else p.insertEntry requestId hostId kind now

/-- The handlers parked on a request id. -/
def sinks (p : Pending β) (requestId : String) : List Nat :=
  ((p.entry requestId).map fun e => e.state.sinks).getD []

/-- Remove an entry by request id.  The senders of a waiting entry are dropped with it. -/
def erase (p : Pending β) (requestId : String) : Pending β :=
  { p with
    map := p.map.erase requestId
    oneshots := Oneshot.settle .close (p.sinks requestId) p.oneshots }

def remove (p : Pending β) (requestId : String) : Option PendingSnapshot × Pending β :=
  ((p.entry requestId).map fun e => ⟨e.hostId, e.kind⟩, p.erase requestId)

def get (p : Pending β) (requestId : String) : Option PendingSnapshot :=
  (p.entry requestId).map fun e => ⟨e.hostId, e.kind⟩

/-- The locked part of `park`. -/
def parkLock (p : Pending β) (requestId : String) : ParkResult β × Pending β :=
  match p.entry requestId with
  | none => (.notFound, p)
  | some e =>
    match e.state with
    | .waiting sinks =>
      (.parked p.oneshots.length,
        { p with
          map := p.map.insert requestId { e with state := .waiting (sinks ++ [p.oneshots.length]) }
          oneshots := p.oneshots ++ [.empty] })
    | .landed body _ => (.alreadyLanded body, p)

def park (p : Pending β) (requestId : String) : ParkResult β × Pending β :=
  match p.parkLock requestId with
  | (.alreadyLanded body, p) => (.alreadyLanded body, p.erase requestId)
  | r => r

/-- The locked part of `deliver`; the flag says whether the body was fanned out to a parked handler. -/
def deliverLock (p : Pending β) (requestId : String) (body : β) (now : Nat) : Bool × Pending β :=
  match p.entry requestId with
  | none => (false, p)
  | some e =>
    let landed := { e with state := .landed body (now + fromSecs landedTtlSecs) }
    match e.state with
    | .waiting sinks =>
      (!sinks.isEmpty,
        { p with
          map := p.map.insert requestId landed
          oneshots := Oneshot.settle (.send body) sinks p.oneshots })
    | .landed _ _ => (false, { p with map := p.map.insert requestId landed })

def deliver (p : Pending β) (requestId : String) (body : β) (now : Nat) : Pending β :=
  match p.deliverLock requestId body now with
  | (true, p) => p.erase requestId
  | (false, p) => p

/-- Whether the sweep at `now` evicts the entry. -/
def expired (now cooldTimeout : Nat) (e : PendingEntry β) : Bool :=
  match e.state with
  | .waiting _ => decide (cooldTimeout ≤ now - e.startedAt)
  | .landed _ until_ => decide (until_ ≤ now)

/-- The first step of `drain_expired`: the ids to evict, with (ghost) the insertion each was sampled at. -/
def drainSample (p : Pending β) (now cooldTimeout : Nat) : List (String × Nat) :=
  p.map.entries.filterMap fun e => if expired now cooldTimeout e.2 then some (e.1, e.2.gen) else none

def drainExpired (p : Pending β) (now cooldTimeout : Nat) : List (String × PendingSnapshot) × Pending β :=
  (p.drainSample now cooldTimeout).foldl
    (fun acc id =>
      match acc.2.remove id.1 with
      | (some snapshot, p) => (acc.1 ++ [(id.1, snapshot)], p)
      | (none, p) => (acc.1, p))
    ([], p)

/-! ### What an operation does to an entry, to the parked handlers and to the channels -/

theorem entry_insertEntry (p : Pending β) (requestId hostId : String) (kind : PendingKind) (now : Nat) (r : String) :
    (p.insertEntry requestId hostId kind now).2.entry r =
      if r = requestId ∧ p.entry r = none then
        some { hostId := hostId, kind := kind, startedAt := now, state := .waiting [], gen := p.gens }
      else p.entry r := by
  unfold insertEntry
  split
  · rename_i e he
    rw [if_neg]
    rintro ⟨rfl, hn⟩
    rw [he] at hn
    cases hn
  · rename_i he
    simp only [entry, Dict.lookup_insert_ite]
    by_cases h : r = requestId
    · subst h
      simp [show p.map.lookup r = none from he]
    · simp [h]

theorem oneshots_insertEntry (p : Pending β) (requestId hostId : String) (kind : PendingKind) (now : Nat) :
    (p.insertEntry requestId hostId kind now).2.oneshots = p.oneshots := by
  unfold insertEntry
  split <;> rfl

theorem sinks_insertEntry (p : Pending β) (requestId hostId : String) (kind : PendingKind) (now : Nat) (r : String) :
    (p.insertEntry requestId hostId kind now).2.sinks r = p.sinks r := by
  unfold sinks
  rw [entry_insertEntry]
  by_cases h : r = requestId ∧ p.entry r = none
  · rw [if_pos h, h.2]
    rfl
  · rw [if_neg h]

theorem entry_erase (p : Pending β) (requestId r : String) :
    (p.erase requestId).entry r = if r = requestId then none else p.entry r := by
  simp only [entry, erase, Dict.lookup_erase_ite]

theorem sinks_erase (p : Pending β) (requestId r : String) :
    (p.erase requestId).sinks r = if r = requestId then [] else p.sinks r := by
  unfold sinks
  rw [entry_erase]
  split <;> rfl

theorem sinks_of_entry_none {p : Pending β} {r : String} (h : p.entry r = none) : p.sinks r = [] := by
  unfold sinks
  rw [h]
  rfl

private theorem sinks_of_waiting {p : Pending β} {r : String} {e : PendingEntry β} {l : List Nat}
    (h : p.entry r = some e)
    (hs : e.state = .waiting l) : p.sinks r = l := by
  unfold sinks
  rw [h, Option.map_some, hs]
  rfl

theorem sinks_of_landed {p : Pending β} {r : String} {e : PendingEntry β} {body : β} {until_ : Nat}
    (h : p.entry r = some e) (hs : e.state = .landed body until_) : p.sinks r = [] := by
  unfold sinks
  rw [h, Option.map_some, hs]
  rfl

/-- The entry after a response has landed on it. -/
def land (body : β) (now : Nat) (e : PendingEntry β) : PendingEntry β :=
  { e with state := .landed body (now + fromSecs landedTtlSecs) }

theorem entry_deliverLock (p : Pending β) (requestId : String) (body : β) (now : Nat) (r : String) :
    (p.deliverLock requestId body now).2.entry r =
      if r = requestId then (p.entry r).map (land body now) else p.entry r := by
  unfold deliverLock
  by_cases h : r = requestId
  · subst h
    rw [if_pos rfl]
    cases he : p.entry r with
    | none => exact he
    | some e => cases hs : e.state <;> simp [entry, hs, land]
  · rw [if_neg h]
    cases he : p.entry requestId with
    | none => rfl
    | some e => cases hs : e.state <;> simp only [entry, hs, Dict.lookup_insert_ite, if_neg h]

theorem sinks_deliverLock (p : Pending β) (requestId : String) (body : β) (now : Nat) (r : String) :
    (p.deliverLock requestId body now).2.sinks r = if r = requestId then [] else p.sinks r := by
  unfold sinks
  rw [entry_deliverLock]
  split
  · cases p.entry r <;> rfl
  · rfl

private theorem settle_nil (f : Oneshot β → Oneshot β) (l : List (Oneshot β)) : Oneshot.settle f [] l = l := by
  apply List.ext_getElem?
  intro i
  rw [Oneshot.getElem?_settle]
  simp

theorem oneshots_deliverLock (p : Pending β) (requestId : String) (body : β) (now : Nat) :
    (p.deliverLock requestId body now).2.oneshots = Oneshot.settle (.send body) (p.sinks requestId) p.oneshots := by
  unfold deliverLock
  cases he : p.entry requestId with
  | none => rw [sinks_of_entry_none he, settle_nil]
  | some e =>
    cases hs : e.state with
    | waiting l => simp only [sinks_of_waiting he hs, hs]
    | landed b u => simp only [sinks_of_landed he hs, settle_nil, hs]

theorem fst_deliverLock (p : Pending β) (requestId : String) (body : β) (now : Nat) :
    (p.deliverLock requestId body now).1 = !(p.sinks requestId).isEmpty := by
  unfold deliverLock
  cases he : p.entry requestId with
  | none => rw [sinks_of_entry_none he]; rfl
  | some e =>
    cases hs : e.state with
    | waiting l => simp only [sinks_of_waiting he hs, hs]
    | landed b u => simp only [sinks_of_landed he hs, hs]; rfl

theorem deliver_eq (p : Pending β) (requestId : String) (body : β) (now : Nat) :
    p.deliver requestId body now =
      if (p.sinks requestId).isEmpty then (p.deliverLock requestId body now).2
      else (p.deliverLock requestId body now).2.erase requestId := by
  have hflag := fst_deliverLock p requestId body now
  unfold deliver
  split
  · rename_i q hq
    rw [hq] at hflag ⊢
    rw [if_neg (by simpa using hflag)]
  · rename_i q hq
    rw [hq] at hflag ⊢
    rw [if_pos (by simpa using hflag)]

/-- A waiting entry takes the new handler; nothing else changes. -/
theorem parkLock_of_waiting {p : Pending β} {requestId : String} {e : PendingEntry β} {l : List Nat}
    (he : p.entry requestId = some e) (hs : e.state = .waiting l) :
    p.parkLock requestId =
      (.parked p.oneshots.length,
        { p with
          map := p.map.insert requestId { e with state := .waiting (l ++ [p.oneshots.length]) }
          oneshots := p.oneshots ++ [.empty] }) := by
  unfold parkLock
  rw [he]
  simp only [hs]

theorem parkLock_of_landed {p : Pending β} {requestId : String} {e : PendingEntry β} {body : β} {until_ : Nat}
    (he : p.entry requestId = some e) (hs : e.state = .landed body until_) :
    p.parkLock requestId = (.alreadyLanded body, p) := by
  unfold parkLock
  rw [he]
  simp only [hs]

theorem parkLock_of_none {p : Pending β} {requestId : String} (he : p.entry requestId = none) :
    p.parkLock requestId = (.notFound, p) := by
  unfold parkLock
  rw [he]

/-- The entry of the request id is there and has no response yet. -/
def Waiting (p : Pending β) (requestId : String) : Prop :=
  ∃ e l, p.entry requestId = some e ∧ e.state = .waiting l

theorem parkLock_eq_self {p : Pending β} {requestId : String} (h : ¬ p.Waiting requestId) :
    (p.parkLock requestId).2 = p := by
  cases he : p.entry requestId with
  | none => rw [parkLock_of_none he]
  | some e =>
    cases hs : e.state with
    | waiting l => exact absurd ⟨e, l, he, hs⟩ h
    | landed b u => rw [parkLock_of_landed he hs]

theorem mem_sinks_parkLock (p : Pending β) (requestId r : String) (rx : Nat) :
    rx ∈ (p.parkLock requestId).2.sinks r ↔
      rx ∈ p.sinks r ∨ (r = requestId ∧ p.Waiting requestId ∧ rx = p.oneshots.length) := by
  by_cases hw : p.Waiting requestId
  · obtain ⟨e, l, he, hs⟩ := hw
    rw [parkLock_of_waiting he hs]
    by_cases h : r = requestId
    · subst h
      have hl : p.sinks r = l := sinks_of_waiting he hs
      simp only [sinks, entry, Dict.lookup_insert_ite, if_true, Option.map_some, Option.getD_some,
        PendingState.sinks, List.mem_append, List.mem_singleton] at hl ⊢
      rw [hl]
      simp [show p.Waiting r from ⟨e, l, he, hs⟩]
    · simp [sinks, entry, h]
  · rw [parkLock_eq_self hw]
    simp [hw]

theorem getElem?_oneshots_parkLock {p : Pending β} {rx : Nat} {o : Oneshot β} (requestId : String)
    (h : p.oneshots[rx]? = some o) : (p.parkLock requestId).2.oneshots[rx]? = some o := by
  by_cases hw : p.Waiting requestId
  · obtain ⟨e, l, he, hs⟩ := hw
    rw [parkLock_of_waiting he hs]
    obtain ⟨hlt, -⟩ := List.getElem?_eq_some_iff.1 h
    rw [List.getElem?_append_left hlt, h]
  · rw [parkLock_eq_self hw, h]

theorem entry_parkLock_of_ne {p : Pending β} {requestId r : String} (h : r ≠ requestId) :
    (p.parkLock requestId).2.entry r = p.entry r := by
  by_cases hw : p.Waiting requestId
  · obtain ⟨e, l, he, hs⟩ := hw
    rw [parkLock_of_waiting he hs]
    simp only [entry, Dict.lookup_insert_ite, if_neg h]
  · rw [parkLock_eq_self hw]

end Pending

/-! ### Calls in flight -/

/-- Which call a removal by id belongs to. -/
inductive Half where
  | park
  | deliver
  | drain
  deriving DecidableEq

/-- A removal by id that a call will do after it released the lock.  `gen` is a ghost: the insertion of the entry
that the call acted on under the lock. -/
structure Removal where
  half : Half
  requestId : String
  gen : Nat
  deriving DecidableEq

/-- An `insert_waiting` call that has passed its capacity check. -/
structure InsertCall where
  requestId : String
  hostId : String
  kind : PendingKind
  max : Nat
  deriving DecidableEq

structure PendingSys (β : Type) where
  pending : Pending β
  inserting : List InsertCall
  finishing : List Removal

/-- One atomic step of a call on the pending map. -/
inductive PendingOp (β : Type) where
  | sample (call : InsertCall)
  | insertEntry (call : InsertCall) (now : Nat)
  | park (requestId : String)
  | deliver (requestId : String) (body : β) (now : Nat)
  | drainSample (now cooldTimeout : Nat)
  | finish (removal : Removal)
  | remove (requestId : String)

namespace PendingSys

variable {β : Type}

def init : PendingSys β := ⟨.new, [], []⟩

abbrev entry (s : PendingSys β) (requestId : String) : Option (PendingEntry β) := s.pending.entry requestId

/-- The capacity check of `insert_waiting`; `false` is the `AtCapacity` outcome. -/
def sample (s : PendingSys β) (call : InsertCall) : Bool × PendingSys β :=
  if call.max ≤ s.pending.len then (false, s) else (true, { s with inserting := call :: s.inserting })

def insertEntry (s : PendingSys β) (call : InsertCall) (now : Nat) : InsertOutcome × PendingSys β :=
  ((s.pending.insertEntry call.requestId call.hostId call.kind now).1,
    { s with
      pending := (s.pending.insertEntry call.requestId call.hostId call.kind now).2
      inserting := s.inserting.erase call })

/-- The second half that a call on the current entry of a request id leaves behind. -/
def half (s : PendingSys β) (half : Half) (requestId : String) : List Removal :=
  ((s.entry requestId).map fun e => (⟨half, requestId, e.gen⟩ : Removal)).toList

def park (s : PendingSys β) (requestId : String) : ParkResult β × PendingSys β :=
  ((s.pending.parkLock requestId).1,
    { s with
      pending := (s.pending.parkLock requestId).2
      finishing :=
        match (s.pending.parkLock requestId).1 with
        | .alreadyLanded _ => s.half .park requestId ++ s.finishing
        | _ => s.finishing })

def deliver (s : PendingSys β) (requestId : String) (body : β) (now : Nat) : PendingSys β :=
  { s with
    pending := (s.pending.deliverLock requestId body now).2
    finishing :=
      if (s.pending.deliverLock requestId body now).1 then s.half .deliver requestId ++ s.finishing
      else s.finishing }

def drainSample (s : PendingSys β) (now cooldTimeout : Nat) : PendingSys β :=
  { s with
    finishing :=
      ((s.pending.drainSample now cooldTimeout).map fun id => ⟨.drain, id.1, id.2⟩) ++ s.finishing }

def finish (s : PendingSys β) (removal : Removal) : PendingSys β :=
  { s with pending := s.pending.erase removal.requestId, finishing := s.finishing.erase removal }

def remove (s : PendingSys β) (requestId : String) : PendingSys β :=
  { s with pending := s.pending.erase requestId }

/-- One atomic step; the second steps of calls need a call that has done its first one. -/
def step (s : PendingSys β) : PendingOp β → Option (PendingSys β)
  | .sample call => some (s.sample call).2
  | .insertEntry call now => if call ∈ s.inserting then some (s.insertEntry call now).2 else none
  | .park requestId => some (s.park requestId).2
  | .deliver requestId body now => some (s.deliver requestId body now)
  | .drainSample now cooldTimeout => some (s.drainSample now cooldTimeout)
  | .finish removal => if removal ∈ s.finishing then some (s.finish removal) else none
  | .remove requestId => some (s.remove requestId)

end PendingSys

end Coold.Flux
