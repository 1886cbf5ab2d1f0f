import Coold.Lib.Dict
import Mathlib.Data.List.Sort

/-!
# The stream map of flux

`Streams` maps a host id to the handle of its stream, with the liveness data the heartbeat keeps beside it.  A
sender of a command channel is modelled by the number of the stream that created the channel; instants are natural
numbers and every operation that reads the clock takes the instant as an argument.

`get` is what the rest of flux sees of an entry.  It is set by `insert`, cleared by `remove`, both by host id, and
not touched by the liveness operations.
-/

namespace Coold.Flux

structure StreamHandle where
  tx : Nat
  caps : List String
  advertisedCaps : List String
  deriving DecidableEq

structure StreamEntry where
  tx : Nat
  caps : List String
  advertisedCaps : List String
  lastSeenAt : Nat
  reachable : Bool
  deriving DecidableEq

structure Streams where
  map : Dict String StreamEntry

namespace Streams

def new : Streams := ⟨∅⟩

def insert (s : Streams) (hostId : String) (handle : StreamHandle) (now : Nat) : Streams :=
  ⟨s.map.insert hostId
    { tx := handle.tx
      caps := handle.caps
      advertisedCaps := handle.advertisedCaps
      lastSeenAt := now
      reachable := true }⟩

def remove (s : Streams) (hostId : String) : Streams := ⟨s.map.erase hostId⟩

def get (s : Streams) (hostId : String) : Option StreamHandle :=
  (s.map.lookup hostId).map fun e => ⟨e.tx, e.caps, e.advertisedCaps⟩

def getTx (s : Streams) (hostId : String) : Option Nat := (s.map.lookup hostId).map fun e => e.tx

def len (s : Streams) : Nat := s.map.entries.length

/-- Record a pong; the flag says whether the host had been reported stale. -/
def touch (s : Streams) (hostId : String) (now : Nat) : Bool × Streams :=
  match s.map.lookup hostId with
  | none => (false, s)
  | some e => (!e.reachable, ⟨s.map.insert hostId { e with lastSeenAt := now, reachable := true }⟩)

def pingTargets (s : Streams) : List (String × Nat) := s.map.entries.map fun e => (e.1, e.2.tx)

/-- Whether the sweep at `now` reports the entry. -/
def stale (now timeout : Nat) (e : StreamEntry) : Bool := e.reachable && decide (timeout ≤ now - e.lastSeenAt)

/-- Mark the entries without a recent pong as unreachable and return their hosts, sorted. -/
def markStale (s : Streams) (now timeout : Nat) : List String × Streams :=
  ((s.map.entries.filterMap fun e => if stale now timeout e.2 then some e.1 else none).insertionSort (· ≤ ·),
    ⟨s.map.mapVal fun _ e => if stale now timeout e then { e with reachable := false } else e⟩)

/-! ### What an operation does to `get` -/

@[simp] theorem get_new (h : String) : new.get h = none := rfl

theorem get_insert (s : Streams) (hostId h : String) (handle : StreamHandle) (now : Nat) :
    (s.insert hostId handle now).get h = if h = hostId then some handle else s.get h := by
  simp only [get, insert, Dict.lookup_insert_ite]
  split <;> rfl

theorem get_remove (s : Streams) (hostId h : String) :
    (s.remove hostId).get h = if h = hostId then none else s.get h := by
  simp only [get, remove, Dict.lookup_erase_ite]
  split <;> rfl

@[simp] theorem get_touch (s : Streams) (hostId h : String) (now : Nat) : (s.touch hostId now).2.get h = s.get h := by
  unfold touch
  split
  · rfl
  · rename_i e he
    simp only [get, Dict.lookup_insert_ite]
    split
    · rename_i hh
      rw [hh, he]
      rfl
    · rfl

@[simp] theorem get_markStale (s : Streams) (h : String) (now timeout : Nat) :
    (s.markStale now timeout).2.get h = s.get h := by
  simp only [get, markStale, Dict.lookup_mapVal, Option.map_map]
  congr 1
  funext e
  simp only [Function.comp_apply]
  split <;> rfl

theorem getTx_eq_map_get (s : Streams) (h : String) : s.getTx h = (s.get h).map StreamHandle.tx := by
  simp only [getTx, get, Option.map_map]
  rfl

/-! ### What an operation does to the reachability of a host -/

/-- The host has an entry that is not marked stale. -/
def reachable (s : Streams) (h : String) : Bool := (s.map.lookup h).any StreamEntry.reachable

@[simp] theorem reachable_new (h : String) : new.reachable h = false := rfl

theorem reachable_insert (s : Streams) (hostId h : String) (handle : StreamHandle) (now : Nat) :
    (s.insert hostId handle now).reachable h = if h = hostId then true else s.reachable h := by
  simp only [reachable, insert, Dict.lookup_insert_ite]
  split <;> rfl

theorem reachable_remove (s : Streams) (hostId h : String) :
    (s.remove hostId).reachable h = if h = hostId then false else s.reachable h := by
  simp only [reachable, remove, Dict.lookup_erase_ite]
  split <;> rfl

/-- A pong restores the entry of its host, and says so. -/
theorem reachable_touch (s : Streams) (hostId h : String) (now : Nat) :
    (s.touch hostId now).2.reachable h = if h = hostId ∧ (s.touch hostId now).1 = true then true else s.reachable h := by
  unfold touch
  cases he : s.map.lookup hostId with
  | none => simp
  | some e =>
    simp only [reachable, Dict.lookup_insert_ite]
    by_cases hh : h = hostId
    · subst hh
      by_cases hr : e.reachable = true <;> simp [he, hr]
    · simp [hh]

/-- A pong that restores an entry was for one that was marked stale. -/
theorem not_reachable_of_touch {s : Streams} {hostId : String} {now : Nat} (h : (s.touch hostId now).1 = true) :
    s.reachable hostId = false := by
  unfold touch at h
  cases he : s.map.lookup hostId with
  | none => simp [he] at h
  | some e =>
    simp only [he, Bool.not_eq_true'] at h
    simp [reachable, he, h]

private theorem mem_markStale {s : Streams} {h : String} {now timeout : Nat} :
    h ∈ (s.markStale now timeout).1 ↔ ∃ e, s.map.lookup h = some e ∧ stale now timeout e = true := by
  simp only [markStale, List.mem_insertionSort, List.mem_filterMap]
  constructor
  · rintro ⟨⟨k, e⟩, hmem, hk⟩
    obtain ⟨hst, rfl⟩ := Option.ite_none_right_eq_some.1 hk |>.imp_right Option.some.inj
    exact ⟨e, Dict.lookup_eq_some_iff_mem.2 hmem, hst⟩
  · rintro ⟨e, he, hst⟩
    exact ⟨⟨h, e⟩, Dict.lookup_eq_some_iff_mem.1 he, by simp [hst]⟩

/-- The sweep marks exactly the hosts that it returns. -/
theorem reachable_markStale (s : Streams) (h : String) (now timeout : Nat) :
    (s.markStale now timeout).2.reachable h =
      if h ∈ (s.markStale now timeout).1 then false else s.reachable h := by
  have hlookup : (s.markStale now timeout).2.map.lookup h =
      (s.map.lookup h).map fun e => if stale now timeout e then { e with reachable := false } else e :=
    Dict.lookup_mapVal _ _ _
  rw [reachable, hlookup]
  cases he : s.map.lookup h with
  | none => simp [mem_markStale, reachable, he]
  | some e =>
    cases hst : stale now timeout e with
    | true => simp [mem_markStale, he, hst]
    | false => simp [mem_markStale, reachable, he, hst]

end Streams

end Coold.Flux
