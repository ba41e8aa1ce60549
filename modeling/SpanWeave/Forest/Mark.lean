import SpanWeave.Span
import SpanWeave.NameHash
import SpanWeave.Text.Numeral

set_option autoImplicit false

/-!
# Marks

The compact trace from which span forests are built: a begin mark and an end mark for each call on
the host, and one mark for each whole interval on a device. A mark carries the hash of its name; the
log keeps the first name given for each hash.
-/
namespace SpanWeave

inductive MarkSide where
  | host
  | device
  deriving DecidableEq, Repr, Inhabited

inductive MarkPhase where
  | begins
  | ends
  /-- Both ends of the interval are known. -/
  | whole
  deriving DecidableEq, Repr, Inhabited

structure Mark where
  side : MarkSide
  phase : MarkPhase
  thread : ThreadId
  span : SpanId
  correlation : Option CorrelationId
  parent : Option SpanId
  beginsAt : Nanos
  endsAt : Nanos
  queue : Option QueueId
  nameHash : UInt64
  depth : Nat
  priority : Nat
  deriving DecidableEq, Repr, Inhabited

namespace Mark

def hostBegin (name : String) (thread : ThreadId) (identity : Identity)
    (correlation : Option CorrelationId) (time : Nanos) (queue : Option QueueId) : Mark where
  side := .host
  phase := .begins
  thread := thread
  span := identity.span
  correlation := correlation
  parent := identity.parent
  beginsAt := time
  endsAt := time
  queue := queue
  nameHash := SpanWeave.nameHash name
  depth := identity.depth
  priority := 0

def hostEnd (name : String) (thread : ThreadId) (identity : Identity) (time : Nanos) : Mark :=
  { hostBegin name thread identity none time none with phase := .ends }

/-- An interval on a device under the call `launch`; the lap is its priority. -/
def onDevice (name : String) (thread : ThreadId) (launch : Identity) (correlation : CorrelationId)
    (beginsAt endsAt : Nanos) (queue : QueueId) (lap : Nat) : Mark where
  side := .device
  phase := .whole
  thread := thread
  span := launch.span
  correlation := some correlation
  parent := some launch.span
  beginsAt := beginsAt
  endsAt := endsAt
  queue := some queue
  nameHash := SpanWeave.nameHash name
  depth := deeper launch.depth
  priority := lap

def toJson (m : Mark) : Json.Value :=
  .object [("device", .text (match m.side with | .host => "Cpu" | .device => "Gpu")),
    ("phase", .text (match m.phase with | .begins => "Begin" | .ends => "End" | .whole => "Delta")),
    ("thread_id", Json.ofWord64 m.thread), ("span_id", .ofNat m.span),
    ("correlation_id", Json.orNull Json.ofWord64 m.correlation),
    ("parent_span_id", Json.orNull .ofNat m.parent), ("begin_ns", .ofNat m.beginsAt),
    ("end_ns", .ofNat m.endsAt), ("queue_id", Json.orNull Json.ofWord64 m.queue),
    ("name_hash", Json.ofWord64 m.nameHash), ("depth", .ofNat m.depth),
    ("priority", .ofNat m.priority)]

def ofJson (v : Json.Value) : Option Mark := do
  let [side, phase, thread, span, correlation, parent, beginsAt, endsAt, queue, hash, depth,
      priority] ← Json.slots ["device", "phase", "thread_id", "span_id", "correlation_id",
      "parent_span_id", "begin_ns", "end_ns", "queue_id", "name_hash", "depth", "priority"] v | none
  let side ← Json.required (Json.oneOf false [("Cpu", .host), ("Gpu", .device)]) side
  let phase ← Json.required
    (Json.oneOf false [("Begin", .begins), ("End", .ends), ("Delta", .whole)]) phase
  let thread ← Json.required Json.word64 thread
  let span ← Json.required (Json.natBelow UInt64.size) span
  let correlation ← Json.optional Json.word64 correlation
  let parent ← Json.optional (Json.natBelow UInt64.size) parent
  let beginsAt ← Json.required (Json.natBelow UInt64.size) beginsAt
  let endsAt ← Json.required (Json.natBelow UInt64.size) endsAt
  let queue ← Json.optional Json.word64 queue
  let hash ← Json.required Json.word64 hash
  let depth ← Json.required (Json.natBelow UInt16.size) depth
  let priority ← Json.required (Json.natBelow UInt32.size) priority
  some (Mark.mk side phase thread span correlation parent beginsAt endsAt queue hash depth priority)

end Mark

abbrev HashNames := Std.ExtTreeMap UInt64 String

namespace HashNames

def resolve (names : HashNames) (hash : UInt64) : String :=
  names.getD hash (Text.hexadecimal 16 hash.toNat)

end HashNames

structure MarkLog where
  marks : Array Mark := #[]
  names : HashNames := ∅

/-- Adds a mark; the first name given for a hash stays. -/
def MarkLog.push (l : MarkLog) (name : String) (m : Mark) : MarkLog where
  marks := l.marks.push m
  names := l.names.insertIfNew m.nameHash name

end SpanWeave
