import SpanWeave.Identity

set_option autoImplicit false

/-!
# Completed device operations

What the runtime reports when an operation on a device has finished, with times on the device's own
clock. Dispatches, copies and barriers are supported; all else is passed over.
-/
namespace SpanWeave

inductive DeviceOp where
  | dispatch
  | copy
  | barrier
  deriving DecidableEq, Repr, Inhabited

namespace DeviceOp

def ofCode? (code : UInt32) : Option DeviceOp :=
  if code = 0 then some .dispatch else if code = 1 then some .copy
  else if code = 2 then some .barrier else none

def code : DeviceOp → UInt32
  | .dispatch => 0
  | .copy => 1
  | .barrier => 2

@[simp] theorem ofCode?_code (op : DeviceOp) : ofCode? op.code = some op := by cases op <;> rfl

def name : DeviceOp → String
  | .dispatch => "DISPATCH"
  | .copy => "COPY"
  | .barrier => "BARRIER"

def untrackedName : DeviceOp → String
  | .dispatch => "hsa_dispatch"
  | .copy => "hsa_async_copy"
  | .barrier => "hsa_barrier"

end DeviceOp

inductive ActivityDomain where
  | deviceOps
  | other
  deriving DecidableEq, Repr, Inhabited

structure Completion where
  correlation : CorrelationId
  domain : ActivityDomain := .deviceOps
  code : UInt32
  opName : Option String := none
  beginsAt : UInt64
  endsAt : UInt64
  device : DeviceId := 0
  queue : QueueId := 0
  deriving DecidableEq, Repr, Inhabited

namespace Completion

def ofOp (correlation : CorrelationId) (op : DeviceOp) (beginsAt endsAt : UInt64) : Completion :=
  { correlation, code := op.code, beginsAt, endsAt }

def op? (c : Completion) : Option DeviceOp :=
  match c.domain with
  | .deviceOps => DeviceOp.ofCode? c.code
  | .other => none

def toJson (c : Completion) : Json.Value :=
  .object ([("correlation_id", Json.ofWord64 c.correlation),
    ("domain", .text (match c.domain with | .deviceOps => "device_ops" | .other => "other")),
    ("op", Json.ofWord32 c.code)] ++ Json.member? "op_name" .text c.opName ++
    [("begin_ns", Json.ofWord64 c.beginsAt), ("end_ns", Json.ofWord64 c.endsAt),
     ("device_id", Json.ofWord32 c.device), ("queue_id", Json.ofWord64 c.queue)])

def ofJson (buffered : Bool) (v : Json.Value) : Option Completion := do
  let [correlation, domain, code, opName, beginsAt, endsAt, device, queue] ←
    Json.slots ["correlation_id", "domain", "op", "op_name", "begin_ns", "end_ns", "device_id",
      "queue_id"] v | none
  let correlation ← Json.required Json.word64 correlation
  let domain ← Json.withDefault .deviceOps
    (Json.oneOf buffered [("device_ops", .deviceOps), ("other", .other)]) domain
  let code ← Json.required Json.word32 code
  let opName ← Json.optional Json.text opName
  let beginsAt ← Json.required Json.word64 beginsAt
  let endsAt ← Json.required Json.word64 endsAt
  let device ← Json.withDefault 0 Json.word32 device
  let queue ← Json.withDefault 0 Json.word64 queue
  some { correlation, domain, code, opName, beginsAt, endsAt, device, queue }

end Completion

/-- A place in a batch of completions. Looking does not move it, and each step moves it by one,
also past the end. -/
structure Cursor where
  batch : List Completion
  position : Nat := 0
  steps : Nat := 0
  deriving Repr, Inhabited

namespace Cursor

def current? (c : Cursor) : Option Completion := c.batch[c.position]?

def isDone (c : Cursor) : Bool := c.batch.length ≤ c.position

def step (c : Cursor) : Cursor := { c with position := c.position + 1, steps := c.steps + 1 }

end Cursor

end SpanWeave
