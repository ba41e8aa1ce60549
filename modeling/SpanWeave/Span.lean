import Std.Data.ExtTreeMap
import SpanWeave.Identity

set_option autoImplicit false

/-!
# Spans

One finished unit of traced work, the track it is drawn on, and the marker that opens it. Times are
on the host's clock.
-/
namespace SpanWeave

abbrev Attributes := Std.ExtTreeMap String String

inductive SpanKind where
  | cpu
  | device
  deriving DecidableEq, Repr, Inhabited

/-- The lane that a marker belongs to: a thread of the host or a queue of a device. -/
inductive Track where
  | thread (thread : ThreadId)
  | device (device : DeviceId) (queue : QueueId)
  deriving DecidableEq, Repr, Inhabited

namespace Track

def code : Track → Nat
  | .thread t => 2 * t.toNat
  | .device d q => 2 * (d.toNat * UInt64.size + q.toNat) + 1

theorem code_injective {a b : Track} (h : a.code = b.code) : a = b := by
  cases a with
  | thread t =>
    cases b with
    | thread u =>
      simp only [code] at h
      have ht : t.toNat = u.toNat := by omega
      rw [UInt64.toNat_inj.mp ht]
    | device d q => simp only [code] at h; omega
  | device d q =>
    cases b with
    | thread u => simp only [code] at h; omega
    | device e r =>
      have hq : q.toNat < UInt64.size := q.toNat_lt
      have hr : r.toNat < UInt64.size := r.toNat_lt
      simp only [code, UInt64.size] at h hq hr
      have hd : d.toNat = e.toNat := by omega
      have hs : q.toNat = r.toNat := by omega
      rw [UInt32.toNat_inj.mp hd, UInt64.toNat_inj.mp hs]

instance : Ord Track := ⟨compareOn code⟩

instance : Std.TransOrd Track := inferInstanceAs (Std.TransCmp (compareOn code))

instance : Std.LawfulEqOrd Track where
  eq_of_compare h := code_injective (Std.LawfulEqOrd.eq_of_compare (α := Nat) h)

def toJson : Track → Json.Value
  | Track.thread t => .object [("thread", Json.ofWord64 t)]
  | Track.device d q => .object [("device",
      .object [("device_id", Json.ofWord32 d), ("queue_id", Json.ofWord64 q)])]

def ofJson : Json.Value → Option Track
  | .object [("thread", v)] => (Json.word64 v).map Track.thread
  | .object [("device", v)] => do
    let [d, q] ← Json.slots ["device_id", "queue_id"] v | none
    some (Track.device (← Json.required Json.word32 d) (← Json.required Json.word64 q))
  | _ => none

end Track

def SpanKind.name : SpanKind → String
  | .cpu => "cpu"
  | .device => "device"

def SpanKind.ofJson (v : Json.Value) : Option SpanKind :=
  Json.oneOf false [("cpu", .cpu), ("device", .device)] v

structure Span where
  name : String
  kind : SpanKind
  beginsAt : Nanos
  endsAt : Nanos
  duration : Nanos
  span : SpanId
  parent : Option SpanId
  depth : Nat
  thread : ThreadId
  correlation : Option CorrelationId := none
  lap : Option Nat := none
  device : Option DeviceId := none
  queue : Option QueueId := none
  attributes : Attributes := ∅

namespace Span

def cpu (name : String) (identity : Identity) (beginsAt endsAt : Nanos) (thread : ThreadId) :
    Span where
  name := name
  kind := .cpu
  beginsAt := beginsAt
  endsAt := endsAt
  duration := endsAt - beginsAt
  span := identity.span
  parent := identity.parent
  depth := identity.depth
  thread := thread

/-- A span of a device, one level below the call that launched it; an orphan without such a call. -/
def onDevice (name : String) (launch : Option Identity) (beginsAt endsAt : Nanos)
    (thread : ThreadId) (correlation : CorrelationId) (lap : Nat) (device : DeviceId)
    (queue : QueueId) : Span :=
  let identity := match launch with
    | some call => Identity.child call.span call
    | none => Identity.degraded
  { cpu name identity beginsAt endsAt thread with
    kind := .device, correlation := some correlation, lap := some lap,
    device := some device, queue := some queue }

def isRoot (s : Span) : Bool := s.parent.isNone

def isOrphan (s : Span) : Bool := s.kind == .device && s.parent.isNone

def setAttribute (s : Span) (key value : String) : Span :=
  { s with attributes := s.attributes.insert key value }

def attributesToJson (a : Attributes) : Option Json.Value :=
  if a.isEmpty then none else some (.object (a.toList.map fun (k, v) => (k, .text v)))

def toJson (s : Span) : Json.Value :=
  .object ([("name", .text s.name), ("kind", .text s.kind.name), ("begin_ns", .ofNat s.beginsAt),
    ("end_ns", .ofNat s.endsAt), ("duration_ns", .ofNat s.duration), ("span_id", .ofNat s.span)] ++
    Json.member? "parent_span_id" .ofNat s.parent ++
    [("depth", .ofNat s.depth), ("thread_id", Json.ofWord64 s.thread)] ++
    Json.member? "correlation_id" Json.ofWord64 s.correlation ++
    Json.member? "lap" .ofNat s.lap ++ Json.member? "device_id" Json.ofWord32 s.device ++
    Json.member? "queue_id" Json.ofWord64 s.queue ++
    Json.member? "attributes" id (attributesToJson s.attributes))

/-- Of two members with one name the later one counts. -/
def attributesOfJson : Json.Value → Option Attributes
  | .object members => members.foldlM (fun a (k, v) => (Json.text v).map (a.insert k)) ∅
  | _ => none

def ofJson (v : Json.Value) : Option Span := do
  let [name, kind, beginsAt, endsAt, duration, span, parent, depth, thread, correlation, lap,
      device, queue, attributes] ←
    Json.slots ["name", "kind", "begin_ns", "end_ns", "duration_ns", "span_id", "parent_span_id",
      "depth", "thread_id", "correlation_id", "lap", "device_id", "queue_id", "attributes"] v
    | none
  let name ← Json.required Json.text name
  let kind ← Json.required SpanKind.ofJson kind
  let beginsAt ← Json.required (Json.natBelow UInt64.size) beginsAt
  let endsAt ← Json.required (Json.natBelow UInt64.size) endsAt
  let duration ← Json.required (Json.natBelow UInt64.size) duration
  let span ← Json.required (Json.natBelow UInt64.size) span
  let parent ← Json.optional (Json.natBelow UInt64.size) parent
  let depth ← Json.required (Json.natBelow UInt16.size) depth
  let thread ← Json.required Json.word64 thread
  let correlation ← Json.optional Json.word64 correlation
  let lap ← Json.optional (Json.natBelow UInt32.size) lap
  let device ← Json.optional Json.word32 device
  let queue ← Json.optional Json.word64 queue
  let attributes ← Json.withDefault ∅ attributesOfJson attributes
  some (Span.mk name kind beginsAt endsAt duration span parent depth thread correlation lap device
    queue attributes)

def render (s : Span) : String :=
  "[" ++ (match s.kind with | .cpu => "cpu" | .device => "dev") ++ "] " ++
    String.ofList (List.replicate (2 * s.depth) ' ') ++ s.name ++ " " ++ toString s.beginsAt ++
    ".." ++ toString s.endsAt ++ " (" ++ toString s.duration ++ " ns) span=" ++ toString s.span ++
    " parent=" ++ (match s.parent with | some p => toString p | none => "-") ++
    " depth=" ++ toString s.depth ++
    " thread=" ++ toString s.thread ++
    (match s.lap with | some lap => " lap=" ++ toString lap | none => "") ++
    (match s.correlation with | some c => " cid=" ++ toString c | none => "")

end Span

structure SpanStart where
  name : String
  kind : SpanKind
  track : Track
  time : Nanos
  identity : Identity
  thread : ThreadId
  correlation : Option CorrelationId := none
  lap : Option Nat := none
  attributes : Attributes := ∅

def SpanStart.finish (s : SpanStart) (endsAt : Nanos) : Span :=
  let place : Option DeviceId × Option QueueId := match s.track with
    | .thread _ => (none, none)
    | .device d q => (some d, some q)
  { Span.cpu s.name s.identity s.time endsAt s.thread with
    kind := s.kind, correlation := s.correlation, lap := s.lap, device := place.1, queue := place.2,
    attributes := s.attributes }

end SpanWeave
