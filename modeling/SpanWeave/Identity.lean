import SpanWeave.Json.Fields

set_option autoImplicit false

/-!
# Identities

Who a traced call is: its own span id, the span of the call around it, and how deep it is nested.
Span id 0 belongs to no call; it marks the degraded identity that stands in for an unknown one.
-/
namespace SpanWeave

/-- The id that the runtime gives to one call on the host. -/
abbrev CorrelationId := UInt64
abbrev ThreadId := UInt64
abbrev DeviceId := UInt32
abbrev QueueId := UInt64
abbrev SpanId := Nat
abbrev Nanos := Nat

def depthLimit : Nat := 65535

def deeper (depth : Nat) : Nat := min (depth + 1) depthLimit

structure Identity where
  span : SpanId
  parent : Option SpanId
  depth : Nat
  deriving DecidableEq, Repr, Inhabited

namespace Identity

def root (span : SpanId) : Identity := ⟨span, none, 0⟩

def child (span : SpanId) (parent : Identity) : Identity :=
  ⟨span, some parent.span, deeper parent.depth⟩

def degraded : Identity := root 0

def isDegraded (i : Identity) : Bool := i.span == 0

def toJson (i : Identity) : Json.Value :=
  .object ([("span_id", .ofNat i.span)] ++ Json.member? "parent_span_id" .ofNat i.parent ++
    [("depth", .ofNat i.depth)])

def ofJson (v : Json.Value) : Option Identity := do
  let [span, parent, depth] ← Json.slots ["span_id", "parent_span_id", "depth"] v | none
  some ⟨← Json.required (Json.natBelow UInt64.size) span,
    ← Json.optional (Json.natBelow UInt64.size) parent,
    ← Json.required (Json.natBelow UInt16.size) depth⟩

end Identity

/-- Span ids are handed out in increasing order, starting with 1. -/
structure SpanIds where
  allocated : Nat := 0
  deriving DecidableEq, Repr, Inhabited

def SpanIds.next (ids : SpanIds) : SpanId × SpanIds := (ids.allocated + 1, ⟨ids.allocated + 1⟩)

end SpanWeave
