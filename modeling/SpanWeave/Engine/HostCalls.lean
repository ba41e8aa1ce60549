import SpanWeave.Engine
import SpanWeave.Host.Call

set_option autoImplicit false

/-!
# Calls on the host

How a call that is entered or left changes the thread it happens on and the engine. An exit closes
the call that the registry has under its correlation id, if that call is open on the thread; if not,
the thread's innermost call is taken for the one that ended.
-/
namespace SpanWeave

inductive Outcome where
  | filtered
  | entered (identity : Identity)
  | exited (identity : Identity)
  /-- No open call of the thread was registered under the id. -/
  | missingRecord
  /-- The end is before the begin; there is no span. -/
  | clockAnomaly
  | untracked (identity : Identity)
  | ignored
  deriving DecidableEq, Repr, Inhabited

namespace Engine

/-- The call that shuts the runtime down; the time of its exit cannot be trusted. -/
def shutdownCall : String := "hsa_shut_down"

def callAttributes (t : ThreadState) (c : HostCall) (identity : Identity) : Attributes :=
  let given : List (String × Option String) :=
    [("corr_id", some (toString c.correlation)), ("tid", some (toString t.thread)),
     ("depth", some (toString identity.depth)), ("pcid", identity.parent.map toString),
     ("kernel", c.kernel), ("queue", c.queue.map toString)]
  given.foldl (fun a (key, value) =>
    match value with
    | some v => a.insert key v
    | none => a) ∅

def callStart (t : ThreadState) (c : HostCall) (identity : Identity) (now : Nanos) : SpanStart where
  name := c.name
  kind := .cpu
  track := .thread t.thread
  time := now
  identity := identity
  thread := t.thread
  correlation := some c.correlation
  attributes := callAttributes t c identity

def enterCall (e : Engine) (t : ThreadState) (c : HostCall) (now : Nanos) :
    Outcome × ThreadState × Engine :=
  let (identity, t, ids) := t.push e.ids now
  let e := { e with
    ids
    calls := { e.calls with enters := e.calls.enters + 1 }
    registry := e.registry.register c.correlation ⟨c.displayName, t.thread, identity⟩
    sinks := (e.sinks.beginSpan (callStart t c identity now)).mark c.name
      (.hostBegin c.name t.thread identity (some c.correlation) now c.queue) }
  (.entered identity, t, e.flush t.thread)

/-- An exit that no open call of the thread is registered for ends the innermost one. -/
def exitUnmatched (e : Engine) (t : ThreadState) (now : Nanos) : Outcome × ThreadState × Engine :=
  let e := { e with calls := { e.calls with missingRecords := e.calls.missingRecords + 1 } }
  let track := Track.thread t.thread
  match t.popTop? with
  | none => (.missingRecord, t, e)
  | some (call, t) =>
    (.missingRecord, t, e.mapSinks fun s =>
      if now < call.beganAt then s.discardSpan track else s.endSpan track now)

/-- An exit ends the call registered with `identity`, which is open on the thread since `beganAt`,
and gives up the `inner` calls inside it. -/
def exitMatched (e : Engine) (t : ThreadState) (c : HostCall) (identity : Identity)
    (beganAt : Nanos) (inner : Nat) (now : Nanos) : Outcome × Engine :=
  let track := Track.thread t.thread
  let e := e.mapSinks (·.discardSpans track inner)
  if now < beganAt then
    (.clockAnomaly, { e.mapSinks (·.discardSpan track) with
      calls := { e.calls with clockAnomalies := e.calls.clockAnomalies + 1 } })
  else
    (.exited identity, e.mapSinks fun s =>
      ((s.endSpan track now).mark c.name (.hostEnd c.name t.thread identity now)).recordDuration
        c.name (now - beganAt))

def exitCall (e : Engine) (t : ThreadState) (c : HostCall) (now : Nanos) :
    Outcome × ThreadState × Engine :=
  let e := { e with calls := { e.calls with exits := e.calls.exits + 1 } }.flush t.thread
  let (identity, registry) := e.registry.close c.correlation
  let e := { e with registry }
  match (if identity.isDegraded then none else t.pop? identity.span) with
  | none => e.exitUnmatched t now
  | some (call, rest) =>
    let (outcome, e) :=
      e.exitMatched t c identity call.beganAt (t.depth - (rest.depth + 1)) now
    (outcome, rest, e)

def untrackedStart (t : ThreadState) (c : HostCall) (identity : Identity) (beganAt : Nanos) :
    SpanStart where
  name := c.name
  kind := .cpu
  track := .thread t.thread
  time := beganAt
  identity := identity
  thread := t.thread

def exitUntracked (e : Engine) (t : ThreadState) (c : HostCall) (now : Nanos) :
    Outcome × ThreadState × Engine :=
  match t.popUntracked? with
  | none => (.ignored, t, e)
  | some (beganAt, t) =>
    let endsAt := if c.name = shutdownCall then beganAt else now
    if endsAt < beganAt then
      (.clockAnomaly, t,
        { e with calls := { e.calls with clockAnomalies := e.calls.clockAnomalies + 1 } })
    else
      let (identity, ids) := t.nextIdentity e.ids
      let e := { e with
        ids
        calls := { e.calls with untrackedSpans := e.calls.untrackedSpans + 1 }
        sinks := (e.sinks.beginSpan (untrackedStart t c identity beganAt)).endSpan
          (.thread t.thread) endsAt }
      (.untracked identity, t,
        if e.sinks.durations.isSome then e.spawn (.sample c.name (endsAt - beganAt)) else e)

def onCall (e : Engine) (t : ThreadState) (c : HostCall) (now : Nanos) :
    Outcome × ThreadState × Engine :=
  if !e.callFilter.accepts c.name then
    (.filtered, t, { e with calls := { e.calls with filtered := e.calls.filtered + 1 } })
  else
    match c.domain, c.phase with
    | .correlated, .enter => e.enterCall t c now
    | .correlated, .exit => e.exitCall t c now
    | .untracked, .enter => (.ignored, t.pushUntracked now, e)
    | .untracked, .exit => e.exitUntracked t c now

end Engine

end SpanWeave
