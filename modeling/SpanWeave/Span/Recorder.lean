import SpanWeave.Span
import SpanWeave.Json.Writer

set_option autoImplicit false

/-!
# The span recorder

A bracket matcher for each track: an end or a discard takes the most recent begin of its own track
that is still open. Finished spans are kept in the order in which they were finished.
-/
namespace SpanWeave

structure Recorder where
  /-- The open begins of a track, innermost first; a track without any has no entry. -/
  opened : Std.ExtTreeMap Track (List SpanStart) := ∅
  finished : Array Span := #[]
  discarded : Nat := 0
  unmatchedEnds : Nat := 0

namespace Recorder

/-- The open begins of a track, innermost first. -/
def openOn (r : Recorder) (track : Track) : List SpanStart := r.opened.getD track []

def setOpen (r : Recorder) (track : Track) : List SpanStart → Recorder
  | [] => { r with opened := r.opened.erase track }
  | starts => { r with opened := r.opened.insert track starts }

def beginSpan (r : Recorder) (start : SpanStart) : Recorder :=
  r.setOpen start.track (start :: r.openOn start.track)

def endSpan (r : Recorder) (track : Track) (time : Nanos) : Recorder :=
  match r.openOn track with
  | start :: starts =>
    let r := r.setOpen track starts
    { r with finished := r.finished.push (start.finish time) }
  | [] => { r with unmatchedEnds := r.unmatchedEnds + 1 }

def discardSpan (r : Recorder) (track : Track) : Recorder :=
  match r.openOn track with
  | _ :: starts =>
    let r := r.setOpen track starts
    { r with discarded := r.discarded + 1 }
  | [] => r

/-- A span that begins and ends at once leaves the open begins alone. -/
def completeSpan (r : Recorder) (start : SpanStart) (endsAt : Nanos) : Recorder :=
  { r with finished := r.finished.push (start.finish endsAt) }

@[simp] theorem openOn_setOpen (r : Recorder) (track : Track) (starts : List SpanStart) :
    (r.setOpen track starts).openOn track = starts := by
  cases starts with
  | nil => exact Std.ExtTreeMap.getD_erase_self
  | cons start starts => exact Std.ExtTreeMap.getD_insert_self

/-- What happens on one track leaves the others alone. -/
theorem openOn_setOpen_of_ne (r : Recorder) {track other : Track} (h : track ≠ other)
    (starts : List SpanStart) : (r.setOpen track starts).openOn other = r.openOn other := by
  cases starts with
  | nil => simp [openOn, setOpen, Std.ExtTreeMap.getD_erase, h]
  | cons start starts => simp [openOn, setOpen, Std.ExtTreeMap.getD_insert, h]

@[simp] theorem openOn_beginSpan (r : Recorder) (start : SpanStart) :
    (r.beginSpan start).openOn start.track = start :: r.openOn start.track :=
  openOn_setOpen r start.track _

@[simp] theorem openOn_endSpan (r : Recorder) (track : Track) (time : Nanos) :
    (r.endSpan track time).openOn track = (r.openOn track).tail := by
  unfold endSpan
  split
  · rename_i start starts h
    rw [h]
    exact openOn_setOpen r track starts
  · rename_i h
    rw [h]
    exact h

@[simp] theorem openOn_discardSpan (r : Recorder) (track : Track) :
    (r.discardSpan track).openOn track = (r.openOn track).tail := by
  unfold discardSpan
  split
  · rename_i start starts h
    rw [h]
    exact openOn_setOpen r track starts
  · rename_i h
    simp [h]

def openCount (r : Recorder) : Nat := r.opened.foldl (fun n _ starts => n + starts.length) 0

def finishedOf (r : Recorder) (kind : SpanKind) : List Span :=
  r.finished.toList.filter (·.kind == kind)

def take (r : Recorder) : List Span × Recorder := (r.finished.toList, { r with finished := #[] })

def document (r : Recorder) : String :=
  Json.pretty (.array (r.finished.toList.map Span.toJson))

def documentLines (r : Recorder) : String :=
  String.join (r.finished.toList.map fun s => Json.compact s.toJson ++ "\n")

end Recorder

end SpanWeave
