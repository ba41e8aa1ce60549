import SpanWeave.Span.Recorder
import SpanWeave.Thread.State
import SpanWeave.Registry
import SpanWeave.Durations
import SpanWeave.Forest.Mark
import SpanWeave.Clock.Skew
import SpanWeave.WorkQueue
import SpanWeave.NameFilter

set_option autoImplicit false

/-!
# The engine

What all threads of a session share: the registry of open calls, the queue of deferred work, the
allocator of span ids, the clock skew, and the sinks that spans, durations and marks go to. Each
sink may be absent.
-/
namespace SpanWeave

structure Sinks where
  spans : Option Recorder := none
  durations : Option Durations := none
  marks : Option MarkLog := none
  scope : Scope := {}

namespace Sinks

def beginSpan (s : Sinks) (start : SpanStart) : Sinks :=
  { s with spans := s.spans.map (·.beginSpan start) }

def endSpan (s : Sinks) (track : Track) (time : Nanos) : Sinks :=
  { s with spans := s.spans.map (·.endSpan track time) }

def discardSpan (s : Sinks) (track : Track) : Sinks :=
  { s with spans := s.spans.map (·.discardSpan track) }

def completeSpan (s : Sinks) (start : SpanStart) (endsAt : Nanos) : Sinks :=
  { s with spans := s.spans.map (·.completeSpan start endsAt) }

def mark (s : Sinks) (name : String) (m : Mark) : Sinks :=
  { s with marks := s.marks.map (·.push name m) }

def recordDuration (s : Sinks) (name : String) (duration : Nanos) : Sinks :=
  { s with durations := s.durations.map (·.record s.scope name duration) }

def discardSpans (s : Sinks) (track : Track) : Nat → Sinks
  | 0 => s
  | n + 1 => (s.discardSpan track).discardSpans track n

end Sinks

/-- What may not be done while the runtime waits for us. -/
inductive Deferred where
  | sample (name : String) (duration : Nanos)
  /-- A whole span, and its duration under the span's name. -/
  | leaf (start : SpanStart) (endsAt : Nanos)

def Sinks.perform (s : Sinks) : Deferred → Sinks
  | .sample name duration => s.recordDuration name duration
  | .leaf start endsAt =>
    (s.completeSpan start endsAt).recordDuration start.name (endsAt - start.time)

structure CallCounts where
  enters : Nat := 0
  exits : Nat := 0
  filtered : Nat := 0
  missingRecords : Nat := 0
  clockAnomalies : Nat := 0
  untrackedSpans : Nat := 0
  deriving DecidableEq, Repr, Inhabited

structure DrainCounts where
  batches : Nat := 0
  records : Nat := 0
  emitted : Nat := 0
  orphans : Nat := 0
  untracked : Nat := 0
  deriving DecidableEq, Repr, Inhabited

structure Engine where
  callFilter : NameFilter := .all
  activityFilter : NameFilter := .all
  registry : Registry := {}
  work : WorkQueue Deferred := {}
  ids : SpanIds := {}
  skew : Skew
  sinks : Sinks := {}
  calls : CallCounts := {}
  drains : DrainCounts := {}
  warnings : Array Warning := #[]

namespace Engine

/-- Carries out what the queue has started, and passes its warnings on. -/
def settle (e : Engine) (work : WorkQueue Deferred) : Engine :=
  { e with
    sinks := work.started.foldl Sinks.perform e.sinks
    warnings := e.warnings ++ work.warnings
    work := { work with started := #[], warnings := #[] } }

def submit (e : Engine) (owner : ThreadId) (d : Deferred) : Engine :=
  e.settle (e.work.submit owner { effect := d })

def spawn (e : Engine) (d : Deferred) : Engine := e.settle (e.work.spawn { effect := d })

def flush (e : Engine) (owner : ThreadId) : Engine := e.settle (e.work.flush owner)

def stopWork (e : Engine) : Engine := e.settle e.work.stop

def mapSinks (e : Engine) (f : Sinks → Sinks) : Engine := { e with sinks := f e.sinks }

end Engine

end SpanWeave
