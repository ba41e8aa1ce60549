import SpanWeave.Json.Fields
import SpanWeave.Fault
import SpanWeave.Thread.Laps
import SpanWeave.Durations

set_option autoImplicit false

/-!
# Settings

What a session can be told. Every setting has a default, and every number is one of so many bits.
-/
namespace SpanWeave

structure Settings where
  /-- Times of the device are moved to the clock of the host. -/
  useClockSkew : Bool := true
  skewIterations : Nat := 10
  /-- Workers for deferred work; none means that it is done when a thread flushes. -/
  workers : Nat := 0
  warnAbove : Nat := 65536
  lapRetention : LapRetention := .unbounded
  timeline : Bool := false
  flat : Bool := false
  recordSpans : Bool := true
  recordDurations : Bool := true
  recordMarks : Bool := true
  callFilter : Option String := none
  activityFilter : Option String := none
  /-- Bookkeeping and queries are not traced. -/
  standardExclusions : Bool := true
  /-- Profiler signals are blocked on draining threads. -/
  blockSignals : Bool := true
  deriving DecidableEq, Repr, Inhabited

namespace LapRetention

def toJson : LapRetention → Json.Value
  | unbounded => .text "unbounded"
  | bounded n => .object [("bounded", .object [("max_entries", .ofNat n)])]

def ofJson : Json.Value → Option LapRetention
  | .object [("bounded", v)] => do
    let [entries] ← Json.slots ["max_entries"] v | none
    (Json.required (Json.natBelow UInt64.size) entries).map bounded
  | v => Json.oneOf false [("unbounded", unbounded)] v

end LapRetention

namespace Settings

def scope (s : Settings) : Scope where
  timeline := s.timeline
  flat := s.flat

def validate (s : Settings) : Except Fault Settings :=
  if s.skewIterations = 0 then .error (.badSettings .noIterations)
  else if s.lapRetention = .bounded 0 then .error (.badSettings .noRetention)
  else .ok s

def fieldNames : List String :=
  ["use_clock_skew", "skew_iterations", "worker_threads", "queue_warn_threshold", "lap_retention",
   "timeline_profile", "flat_profile", "use_visualization", "use_aggregation", "use_critical_trace",
   "api_filter", "activity_filter", "default_api_exclusions", "block_signals_on_drain"]

def toJson (s : Settings) : Json.Value :=
  .object [("use_clock_skew", .bool s.useClockSkew), ("skew_iterations", .ofNat s.skewIterations),
    ("worker_threads", .ofNat s.workers), ("queue_warn_threshold", .ofNat s.warnAbove),
    ("lap_retention", s.lapRetention.toJson), ("timeline_profile", .bool s.timeline),
    ("flat_profile", .bool s.flat), ("use_visualization", .bool s.recordSpans),
    ("use_aggregation", .bool s.recordDurations), ("use_critical_trace", .bool s.recordMarks),
    ("api_filter", Json.orNull .text s.callFilter),
    ("activity_filter", Json.orNull .text s.activityFilter),
    ("default_api_exclusions", .bool s.standardExclusions),
    ("block_signals_on_drain", .bool s.blockSignals)]

def ofJson (v : Json.Value) : Option Settings := do
  let [useClockSkew, skewIterations, workers, warnAbove, lapRetention, timeline, flat, recordSpans,
      recordDurations, recordMarks, callFilter, activityFilter, standardExclusions, blockSignals] ←
    Json.slots fieldNames v | none
  let standard : Settings := {}
  let useClockSkew ← Json.withDefault standard.useClockSkew Json.bool useClockSkew
  let skewIterations ←
    Json.withDefault standard.skewIterations (Json.natBelow UInt32.size) skewIterations
  let workers ← Json.withDefault standard.workers (Json.natBelow UInt64.size) workers
  let warnAbove ← Json.withDefault standard.warnAbove (Json.natBelow UInt64.size) warnAbove
  let lapRetention ← Json.withDefault standard.lapRetention LapRetention.ofJson lapRetention
  let timeline ← Json.withDefault standard.timeline Json.bool timeline
  let flat ← Json.withDefault standard.flat Json.bool flat
  let recordSpans ← Json.withDefault standard.recordSpans Json.bool recordSpans
  let recordDurations ← Json.withDefault standard.recordDurations Json.bool recordDurations
  let recordMarks ← Json.withDefault standard.recordMarks Json.bool recordMarks
  let callFilter ← Json.optional Json.text callFilter
  let activityFilter ← Json.optional Json.text activityFilter
  let standardExclusions ← Json.withDefault standard.standardExclusions Json.bool standardExclusions
  let blockSignals ← Json.withDefault standard.blockSignals Json.bool blockSignals
  some { useClockSkew, skewIterations, workers, warnAbove, lapRetention, timeline, flat,
         recordSpans, recordDurations, recordMarks, callFilter, activityFilter,
         standardExclusions, blockSignals }

end Settings

end SpanWeave
