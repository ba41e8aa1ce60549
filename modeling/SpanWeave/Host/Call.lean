import SpanWeave.Identity

set_option autoImplicit false

/-!
# Calls on the host

What the runtime reports when an intercepted call is entered or left.
-/
namespace SpanWeave

inductive CallPhase where
  | enter
  | exit
  deriving DecidableEq, Repr, Inhabited

inductive CallDomain where
  | correlated
  | untracked
  deriving DecidableEq, Repr, Inhabited

structure HostCall where
  operation : UInt32 := 0
  name : String
  phase : CallPhase
  correlation : CorrelationId := 0
  kernel : Option String := none
  queue : Option QueueId := none
  domain : CallDomain := .correlated
  deriving DecidableEq, Repr, Inhabited

namespace HostCall

def enter (name : String) (correlation : CorrelationId) : HostCall :=
  { name, phase := .enter, correlation }

def exit (name : String) (correlation : CorrelationId) : HostCall :=
  { name, phase := .exit, correlation }

def displayName (c : HostCall) : String := c.kernel.getD c.name

def argumentsToJson (c : HostCall) : Json.Value :=
  .object (Json.member? "kernel_name" .text c.kernel ++ Json.member? "queue" Json.ofWord64 c.queue)

def toJson (c : HostCall) : Json.Value :=
  .object [("operation_id", Json.ofWord32 c.operation), ("name", .text c.name),
    ("phase", .text (match c.phase with | .enter => "enter" | .exit => "exit")),
    ("correlation_id", Json.ofWord64 c.correlation), ("args", c.argumentsToJson),
    ("domain", .text (match c.domain with
      | .correlated => "correlated"
      | .untracked => "untracked"))]

def argumentsOfJson (v : Json.Value) : Option (Option String × Option QueueId) := do
  let [kernel, queue] ← Json.slots ["kernel_name", "queue"] v | none
  some (← Json.optional Json.text kernel, ← Json.optional Json.word64 queue)

def ofJson (buffered : Bool) (v : Json.Value) : Option HostCall := do
  let [operation, name, phase, correlation, arguments, domain] ←
    Json.slots ["operation_id", "name", "phase", "correlation_id", "args", "domain"] v | none
  let operation ← Json.withDefault 0 Json.word32 operation
  let name ← Json.required Json.text name
  let phase ← Json.required (Json.oneOf buffered [("enter", .enter), ("exit", .exit)]) phase
  let correlation ← Json.withDefault 0 Json.word64 correlation
  let (kernel, queue) ← Json.withDefault (none, none) argumentsOfJson arguments
  let domain ← Json.withDefault .correlated
    (Json.oneOf buffered [("correlated", .correlated), ("untracked", .untracked)]) domain
  some { operation, name, phase, correlation, kernel, queue, domain }

end HostCall

end SpanWeave
