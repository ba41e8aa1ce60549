import SpanWeave.Host.Call
import SpanWeave.Device.Completion

set_option autoImplicit false

/-!
# Recorded events

Events of a run that were written down: calls on the host, and batches of completions with or
without calls behind them. In JSON the kind of an event stands beside its fields, anywhere among the
members of an object or first in an array.
-/
namespace SpanWeave

inductive RecordedEvent where
  | call (thread : ThreadId) (time : UInt64) (call : HostCall)
  | batch (thread : ThreadId) (batch : List Completion)
  | untracked (thread : ThreadId) (batch : List Completion)
  deriving DecidableEq, Repr, Inhabited

namespace RecordedEvent

def thread : RecordedEvent → ThreadId
  | call t _ _ | batch t _ | untracked t _ => t

def batchMembers (t : ThreadId) (cs : List Completion) : List (String × Json.Value) :=
  [("thread", Json.ofWord64 t), ("records", .array (cs.map Completion.toJson))]

def toJson : RecordedEvent → Json.Value
  | call t time c => .object [("type", .text "cpu"), ("thread", Json.ofWord64 t),
      ("ts", Json.ofWord64 time), ("event", c.toJson)]
  | batch t cs => .object (("type", .text "device") :: batchMembers t cs)
  | untracked t cs => .object (("type", .text "untracked") :: batchMembers t cs)

def splitKind : Json.Value → Option (String × Json.Value)
  | .object members =>
    match members.filter (·.1 == "type") with
    | [(_, .text kind)] => some (kind, .object (members.filter (·.1 != "type")))
    | _ => none
  | .array (.text kind :: items) => some (kind, .array items)
  | _ => none

def batchOfJson (v : Json.Value) : Option (ThreadId × List Completion) := do
  let [t, cs] ← Json.slots ["thread", "records"] v | none
  some (← Json.required Json.word64 t, ← Json.required (Json.listOf (Completion.ofJson true)) cs)

def depthBound : Nat := 127

/-- An event is read as a whole before its kind is known, so nothing in it may be garbled. -/
def ofJson (v : Json.Value) : Option RecordedEvent := do
  if !v.isSound || depthBound < v.depth then none
  else
    let (kind, v) ← splitKind v
    match kind with
    | "cpu" =>
      let [t, time, c] ← Json.slots ["thread", "ts", "event"] v | none
      some (call (← Json.required Json.word64 t) (← Json.required Json.word64 time)
        (← Json.required (HostCall.ofJson true) c))
    | "device" => (batchOfJson v).map fun (t, cs) => batch t cs
    | "untracked" => (batchOfJson v).map fun (t, cs) => untracked t cs
    | _ => none

end RecordedEvent

end SpanWeave
