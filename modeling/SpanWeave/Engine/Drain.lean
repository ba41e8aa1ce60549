import SpanWeave.Engine
import SpanWeave.Device.Completion

set_option autoImplicit false

/-!
# Draining device activity

How a batch of completions becomes spans of devices. A completion is matched with the call on the
host that is registered under its correlation id; without such a call its span is an orphan. Every
completion of a batch is taken, whatever becomes of it.
-/
namespace SpanWeave

structure DrainReport where
  advanced : Nat := 0
  emitted : Nat := 0
  unsupported : Nat := 0
  filtered : Nat := 0
  anomalies : Nat := 0
  orphans : Nat := 0
  deriving DecidableEq, Repr, Inhabited

def DrainReport.merge (a b : DrainReport) : DrainReport where
  advanced := a.advanced + b.advanced
  emitted := a.emitted + b.emitted
  unsupported := a.unsupported + b.unsupported
  filtered := a.filtered + b.filtered
  anomalies := a.anomalies + b.anomalies
  orphans := a.orphans + b.orphans

inductive Disposition where
  | emitted (orphan : Bool)
  | unsupported
  | filtered
  /-- The end is not after the begin. -/
  | anomaly
  deriving DecidableEq, Repr, Inhabited

def DrainReport.add (r : DrainReport) (d : Disposition) : DrainReport :=
  let r := { r with advanced := r.advanced + 1 }
  match d with
  | .emitted orphan =>
    { r with emitted := r.emitted + 1, orphans := r.orphans + (if orphan then 1 else 0) }
  | .unsupported => { r with unsupported := r.unsupported + 1 }
  | .filtered => { r with filtered := r.filtered + 1 }
  | .anomaly => { r with anomalies := r.anomalies + 1 }

namespace Engine

/-- The name of the registered call, if it has one; else what the runtime says, else the
operation. -/
def deviceName (launch : Option CallRecord) (c : Completion) (op : DeviceOp) : String :=
  ((launch.map (·.name)).filter (!·.isEmpty)).getD (c.opName.getD op.name)

def deviceAttributes (c : Completion) (op : DeviceOp) : Attributes :=
  (((∅ : Attributes).insert "device" (toString c.device)).insert "queue" (toString c.queue)).insert
    "op" op.name

def deviceStart (t : ThreadState) (launch : Option CallRecord) (c : Completion) (op : DeviceOp)
    (beginsAt : Nanos) (lap : Nat) : SpanStart where
  name := deviceName launch c op
  kind := .device
  track := .device c.device c.queue
  time := beginsAt
  identity := match launch with
    | some call => Identity.child call.identity.span call.identity
    | none => Identity.degraded
  thread := match launch with
    | some call => call.thread
    | none => t.thread
  correlation := some c.correlation
  lap := some lap
  attributes := (deviceAttributes c op).insert "corr_id" (toString c.correlation)

def emit (e : Engine) (launch : Option CallRecord) (start : SpanStart) (c : Completion)
    (endsAt : Nanos) (lap : Nat) : Engine :=
  let e := e.mapSinks (·.completeSpan start endsAt)
  match launch with
  | none => e
  | some call =>
    let e := e.mapSinks (·.mark start.name (.onDevice start.name call.thread call.identity
      c.correlation start.time endsAt c.queue lap))
    if e.sinks.durations.isSome then e.submit call.thread (.sample start.name (endsAt - start.time))
    else e

/-- Takes one completion; the lap is counted before it is known whether there will be a span. -/
def drainOne (e : Engine) (t : ThreadState) (offset : Int) (c : Completion) :
    Disposition × ThreadState × Engine :=
  match c.op? with
  | none => (.unsupported, t, e)
  | some op =>
    if !e.activityFilter.accepts op.name then (.filtered, t, e)
    else
      let beginsAt := shiftTime c.beginsAt.toNat offset
      let endsAt := shiftTime c.endsAt.toNat offset
      let (lap, t) := t.nextLap c.correlation
      let (launch, registry) := e.registry.lookupRecord? c.correlation
      let e := { e with registry }
      if endsAt ≤ beginsAt then (.anomaly, t, e)
      else
        (.emitted launch.isNone, t,
          e.emit launch (deviceStart t launch c op beginsAt lap) c endsAt lap)

def askOffset (e : Engine) (clocks : Clocks) : Int × Engine :=
  let asked := e.skew.ask clocks
  (asked.offset, { e with skew := asked.skew, warnings := e.warnings ++ asked.warnings.toArray })

def drain (e : Engine) (clocks : Clocks) (t : ThreadState) (batch : List Completion) :
    DrainReport × ThreadState × Engine :=
  let (offset, e) := e.askOffset clocks
  let (report, t, e) := batch.foldl (fun (report, t, e) c =>
    let (d, t, e) := drainOne e t offset c
    (DrainReport.add report d, t, e)) (({} : DrainReport), t, e)
  (report, t, { e with drains := { e.drains with
    batches := e.drains.batches + 1
    records := e.drains.records + report.advanced
    emitted := e.drains.emitted + report.emitted
    orphans := e.drains.orphans + report.orphans } })

def untrackedLeaf (thread : ThreadId) (c : Completion) (op : DeviceOp) (beginsAt : Nanos) :
    SpanStart where
  name := op.untrackedName
  kind := .device
  track := .device c.device c.queue
  time := beginsAt
  identity := Identity.degraded
  thread := thread
  attributes := deviceAttributes c op

def drainOneUntracked (e : Engine) (thread : ThreadId) (offset : Int) (c : Completion) :
    Disposition × Engine :=
  match c.op? with
  | none => (.unsupported, e)
  | some op =>
    if !e.activityFilter.accepts op.name then (.filtered, e)
    else
      let beginsAt := shiftTime c.beginsAt.toNat offset
      let endsAt := shiftTime c.endsAt.toNat offset
      if endsAt ≤ beginsAt then (.anomaly, e)
      else (.emitted false, e.spawn (.leaf (untrackedLeaf thread c op beginsAt) endsAt))

def drainUntracked (e : Engine) (clocks : Clocks) (thread : ThreadId) (batch : List Completion) :
    DrainReport × Engine :=
  let (offset, e) := e.askOffset clocks
  let (report, e) := batch.foldl (fun (report, e) c =>
    let (d, e) := drainOneUntracked e thread offset c
    (DrainReport.add report d, e)) (({} : DrainReport), e)
  (report, { e with drains := { e.drains with untracked := e.drains.untracked + report.emitted } })

end Engine

end SpanWeave
