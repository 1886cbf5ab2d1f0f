import Coold.Lib.Framing

/-!
# The Podman event stream

Podman answers the request for events with one line of JSON for each event and never ends.  `streamOnce` reads the body
frame by frame; it keeps the bytes of the last line, which may go on in the next frame, and hands every line that has
ended to `dispatch`.  So a line may be cut anywhere: what is dispatched depends on the bytes alone
(`streamOnce_lines`), and when the connection breaks, on the lines that had ended (`streamOnce_broken`); the reconciler is
sent the events of these (`eventMessages_ended`).

`serde_json::from_slice` of an event is the parameter `fromSlice`.
-/

namespace Coold.Agent.Events

/-! ### Events -/

inductive EventKind where
  | start
  | stop
  deriving DecidableEq

def EventKind.classify (action : String) : Option EventKind :=
  match action with
  | "start" | "started" | "init" => some .start
  | "die" | "died" | "stop" | "stopped" | "remove" | "removed" | "kill" | "killed" => some .stop
  | _ => none

structure EventMessage where
  kind : EventKind
  containerId : String
  deriving DecidableEq

structure EventActor where
  id : String
  deriving DecidableEq

structure Event where
  kind : String
  action : String
  actor : EventActor
  status : String
  id : String
  deriving DecidableEq

namespace Event

def containerId (e : Event) : String := if e.actor.id ≠ "" then e.actor.id else e.id

def actionName (e : Event) : String := if e.action ≠ "" then e.action else e.status

end Event

section Stream

variable (fromSlice : List UInt8 → Option Event)

/-- What is sent for a line; lines that are no event of a container are skipped. -/
def dispatch (line : List UInt8) : Option EventMessage :=
  match fromSlice line with
  | none => none
  | some event =>
    if event.kind ≠ "container" ∧ event.kind ≠ "" then none
    else
      match EventKind.classify event.actionName with
      | none => none
      | some kind => if event.containerId = "" then none else some ⟨kind, event.containerId⟩

/-! ### The body -/

/-- A frame of the body; only some carry data. -/
inductive BodyFrame where
  | data (bytes : List UInt8)
  | trailers
  deriving DecidableEq

def newline : UInt8 := '\n'.toUInt8

/-- The inner loop: take the lines off the front of the buffer; empty ones are skipped. -/
def drainLines (buf : List UInt8) : List (List UInt8) × List UInt8 :=
  match h : buf.findIdx? (· = newline) with
  | none => ([], buf)
  | some pos =>
    let line := (buf.take (pos + 1)).dropLast
    let drained := drainLines (buf.drop (pos + 1))
    (if line = [] then drained.1 else line :: drained.1, drained.2)
termination_by buf.length
decreasing_by
  obtain ⟨hpos, -⟩ := List.findIdx?_eq_some_iff_getElem.1 h
  rw [List.length_drop]
  omega

/-- The lines that are dispatched and the result, from the frames that follow; `none` is a frame that cannot be read. -/
def readFrames : List (Option BodyFrame) → List UInt8 → List (List UInt8) × Except String Unit
  | [], buf => (if buf = [] then [] else [buf], .ok ())
  | none :: _, _ => ([], .error "read event frame")
  | some .trailers :: frames, buf => readFrames frames buf
  | some (.data bytes) :: frames, buf =>
    let drained := drainLines (buf ++ bytes)
    let rest := readFrames frames drained.2
    (drained.1 ++ rest.1, rest.2)

/-- One connection; there is no body if the request fails or is not successful. -/
def streamOnce (body : Option (List (Option BodyFrame))) : List (List UInt8) × Except String Unit :=
  match body with
  | none => ([], .error "open events stream")
  | some frames => readFrames frames []

/-- What one connection sends to the reconciler. -/
def eventMessages (body : Option (List (Option BodyFrame))) : List EventMessage :=
  (streamOnce body).1.filterMap (dispatch fromSlice)

end Stream

/-! ### The lines of a body -/

open Framing

/-- The bytes of a frame. -/
def BodyFrame.bytes : BodyFrame → List UInt8
  | .data bytes => bytes
  | .trailers => []

def nonEmpty (lines : List (List UInt8)) : List (List UInt8) := lines.filter fun line => line ≠ []

private theorem nonEmpty_cons (line : List UInt8) (lines : List (List UInt8)) :
    nonEmpty (line :: lines) = if line = [] then nonEmpty lines else line :: nonEmpty lines := by
  rw [nonEmpty, List.filter_cons]
  by_cases h : line = []
  · rw [if_pos h, if_neg (by simpa using h)]
    rfl
  · rw [if_neg h, if_pos (by simpa using h)]
    rfl

private theorem nonEmpty_append (lines lines' : List (List UInt8)) :
    nonEmpty (lines ++ lines') = nonEmpty lines ++ nonEmpty lines' :=
  List.filter_append lines lines'

private theorem findIdx?_newline {line : List UInt8} (h : newline ∉ line) :
    line.findIdx? (· = newline) = none := by
  rw [List.findIdx?_eq_none_iff]
  intro b hb
  exact decide_eq_false fun he => h (he ▸ hb)

private theorem drainLines_of_notMem {buf : List UInt8} (h : newline ∉ buf) : drainLines buf = ([], buf) := by
  rw [drainLines]
  split
  · rfl
  · rename_i pos hpos
    rw [findIdx?_newline h] at hpos
    cases hpos

private theorem drainLines_line {line : List UInt8} (h : newline ∉ line) (rest : List UInt8) :
    drainLines (line ++ newline :: rest) =
      (if line = [] then (drainLines rest).1 else line :: (drainLines rest).1, (drainLines rest).2) := by
  have hidx : (line ++ newline :: rest).findIdx? (· = newline) = some line.length := by
    rw [List.findIdx?_append, findIdx?_newline h, List.findIdx?_cons]
    simp
  have htake : ((line ++ newline :: rest).take (line.length + 1)).dropLast = line := by
    rw [List.take_length_add_append]
    simp
  have hdrop : (line ++ newline :: rest).drop (line.length + 1) = rest := by
    rw [List.drop_length_add_append]
    rfl
  rw [drainLines]
  split
  · rename_i hnone
    rw [hidx] at hnone
    cases hnone
  · rename_i pos hpos
    rw [hidx] at hpos
    obtain rfl := Option.some.inj hpos
    rw [htake, hdrop]

/-- The inner loop takes off the lines that have ended and leaves the unfinished one. -/
private theorem drainLines_eq (buf : List UInt8) :
    drainLines buf = (nonEmpty (ended newline buf), unfinished newline buf) := by
  induction buf using line_induction newline with
  | last buf h =>
    rw [drainLines_of_notMem h, ended_of_notMem h, unfinished_of_notMem h]
    rfl
  | line line rest h ih => rw [drainLines_line h, ih, ended_line h, unfinished_line h, nonEmpty_cons]

/-- A body that ends normally: the lines that end in its frames, and at last the unfinished one. -/
private theorem readFrames_ok (frames : List BodyFrame) {buf : List UInt8} (hbuf : newline ∉ buf) :
    readFrames (frames.map some) buf =
      (nonEmpty ((buf ++ frames.flatMap BodyFrame.bytes).splitOn newline), .ok ()) := by
  induction frames generalizing buf with
  | nil =>
    rw [List.flatMap_nil, List.append_nil, List.splitOn_eq_singleton hbuf, nonEmpty_cons]
    rfl
  | cons frame frames ih =>
    rw [List.map_cons, List.flatMap_cons]
    cases frame with
    | trailers => exact ih hbuf
    | data bytes =>
      have hrest := ih (notMem_unfinished newline (buf ++ bytes))
      rw [readFrames, drainLines_eq, hrest, ← nonEmpty_append, ← splitOn_append, List.append_assoc]
      rfl

/-- A body that breaks off: the lines that have ended before. -/
private theorem readFrames_broken (frames : List BodyFrame) (lost : List (Option BodyFrame)) {buf : List UInt8}
    (hbuf : newline ∉ buf) :
    readFrames (frames.map some ++ none :: lost) buf =
      (nonEmpty (ended newline (buf ++ frames.flatMap BodyFrame.bytes)), .error "read event frame") := by
  induction frames generalizing buf with
  | nil =>
    rw [List.flatMap_nil, List.append_nil, ended_of_notMem hbuf]
    rfl
  | cons frame frames ih =>
    rw [List.map_cons, List.cons_append, List.flatMap_cons]
    cases frame with
    | trailers => exact ih hbuf
    | data bytes =>
      have hrest := ih (notMem_unfinished newline (buf ++ bytes))
      rw [readFrames, drainLines_eq, hrest, ← nonEmpty_append, ← ended_append, List.append_assoc]
      rfl

/-- On a stream that ends normally, the lines are the pieces between the newlines of its bytes that are not empty, in
order and with the unterminated last one, however the bytes were cut into frames. -/
theorem streamOnce_lines (frames : List BodyFrame) :
    streamOnce (some (frames.map some)) = (nonEmpty ((frames.flatMap BodyFrame.bytes).splitOn newline), .ok ()) :=
  readFrames_ok frames List.not_mem_nil

/-- When the connection breaks, an unfinished line is lost and nothing else. -/
theorem streamOnce_broken (frames : List BodyFrame) (lost : List (Option BodyFrame)) :
    streamOnce (some (frames.map some ++ none :: lost)) =
      (nonEmpty (ended newline (frames.flatMap BodyFrame.bytes)), .error "read event frame") :=
  readFrames_broken frames lost List.not_mem_nil

/-- The reconciler is sent the events of the lines that have ended, whatever comes after them, however they were cut. -/
theorem eventMessages_ended (fromSlice : List UInt8 → Option Event) (frames : List BodyFrame)
    (lost : List (Option BodyFrame)) :
    eventMessages fromSlice (some (frames.map some ++ none :: lost)) =
      (nonEmpty (ended newline (frames.flatMap BodyFrame.bytes))).filterMap (dispatch fromSlice) := by
  rw [eventMessages, streamOnce_broken]

end Coold.Agent.Events
