import SpanWeave.Forest.Mark

set_option autoImplicit false

/-!
# Span forests

The spans of a trace linked to their parents. Roots and the children of a node are ordered by begin
time, then priority. What is wrong with the marks that a forest was built from is listed beside it.
-/
namespace SpanWeave

inductive Defect where
  | unmatchedBegin (span : SpanId)
  | unmatchedEnd (span : SpanId)
  /-- No host span has the id of the parent. -/
  | missingParent (span parent : SpanId)
  | depthMismatch (span : SpanId) (expected actual : Nat)
  deriving DecidableEq, Repr, Inhabited

structure Node where
  name : String
  kind : SpanKind
  span : SpanId
  parentSpan : Option SpanId
  depth : Nat
  thread : ThreadId
  correlation : Option CorrelationId
  beginsAt : Nanos
  endsAt : Nanos
  priority : Nat
  parent : Option Nat
  children : List Nat
  deriving DecidableEq, Repr, Inhabited

namespace Node

def duration (n : Node) : Nanos := n.endsAt - n.beginsAt

def comesBefore (a b : Node) : Bool :=
  a.beginsAt < b.beginsAt || (a.beginsAt == b.beginsAt && a.priority ≤ b.priority)

end Node

structure Forest where
  nodes : Array Node := #[]
  roots : List Nat := []
  defects : List Defect := []
  deriving DecidableEq, Repr, Inhabited

namespace Forest

def node? (f : Forest) (i : Nat) : Option Node := f.nodes[i]?

def childrenOf (f : Forest) (i : Nat) : List Nat := ((f.node? i).map (·.children)).getD []

def findHost? (f : Forest) (span : SpanId) : Option Nat :=
  f.nodes.toList.findIdx? fun n => n.kind == .cpu && n.span == span

/-- There are no defects and every linked device node hangs under a host node. -/
def isConsistent (f : Forest) : Bool :=
  f.defects.isEmpty && f.nodes.toList.all fun n =>
    n.kind == .cpu || n.parent.all fun p => (f.node? p).any (·.kind == .cpu)

end Forest

end SpanWeave
