import SpanWeave.Forest

set_option autoImplicit false

/-!
# Assembly

How a forest is built from marks. Begin and end marks are paired in order, each interval of a
device becomes a node after all host nodes, and every node is linked to the host node that was built
last among those with the id of its parent.
-/
namespace SpanWeave

structure Pairing where
  hosts : Array Node := #[]
  opened : Std.ExtTreeMap SpanId Mark := ∅
  devices : Array Mark := #[]
  strays : Array SpanId := #[]

def Mark.toNode (names : HashNames) (kind : SpanKind) (m : Mark) : Node where
  name := names.resolve m.nameHash
  kind := kind
  span := m.span
  parentSpan := m.parent
  depth := m.depth
  thread := m.thread
  correlation := m.correlation
  beginsAt := m.beginsAt
  endsAt := m.endsAt
  priority := m.priority
  parent := none
  children := []

namespace Pairing

/-- A later begin of a span takes the place of one that is still open. -/
def add (names : HashNames) (p : Pairing) (m : Mark) : Pairing :=
  match m.side, m.phase with
  | .device, _ => { p with devices := p.devices.push m }
  | .host, .whole => { p with hosts := p.hosts.push (m.toNode names .cpu) }
  | .host, .begins => { p with opened := p.opened.insert m.span m }
  | .host, .ends =>
    match p.opened[m.span]? with
    | some start =>
      { p with
        hosts := p.hosts.push { start.toNode names .cpu with endsAt := m.endsAt }
        opened := p.opened.erase m.span }
    | none => { p with strays := p.strays.push m.span }

def ofMarks (names : HashNames) (marks : List Mark) : Pairing := marks.foldl (add names) {}

/-- Host nodes first, then one node for each interval of a device. -/
def nodes (names : HashNames) (p : Pairing) : Array Node :=
  p.hosts ++ p.devices.map (Mark.toNode names .device)

def defects (p : Pairing) : List Defect :=
  p.strays.toList.map .unmatchedEnd ++ p.opened.keys.map .unmatchedBegin

end Pairing

namespace Forest

/-- The last index of a host node of each span. -/
def hostIndex (nodes : Array Node) : Std.ExtTreeMap SpanId Nat :=
  nodes.toList.zipIdx.foldl (fun index (n, i) =>
    if n.kind = .cpu then index.insert n.span i else index) ∅

/-- The node that a node is linked to: the host node of its parent span, if that is another one. -/
def link? (index : Std.ExtTreeMap SpanId Nat) (i : Nat) (n : Node) : Option Nat :=
  (n.parentSpan.bind (index[·]?)).filter (· != i)

def linkDefect? (nodes : Array Node) (index : Std.ExtTreeMap SpanId Nat) (i : Nat) (n : Node) :
    Option Defect :=
  match n.parentSpan, (link? index i n).bind (nodes[·]?) with
  | none, _ => none
  | some parent, none => some (.missingParent n.span parent)
  | some _, some p =>
    if n.depth = deeper p.depth then none
    else some (.depthMismatch n.span (deeper p.depth) n.depth)

def sortIndices (nodes : Array Node) (indices : List Nat) : List Nat :=
  indices.mergeSort fun i j =>
    match nodes[i]?, nodes[j]? with
    | some a, some b => a.comesBefore b
    | _, _ => true

def ofNodes (nodes : Array Node) (defects : List Defect) : Forest :=
  let index := hostIndex nodes
  let links := nodes.mapIdx (link? index)
  let under (parent : Option Nat) : List Nat :=
    sortIndices nodes ((List.range nodes.size).filter fun i => links[i]? == some parent)
  { nodes := nodes.mapIdx fun i n =>
      { n with parent := link? index i n, children := under (some i) }
    roots := under none
    defects := defects ++
      nodes.toList.zipIdx.filterMap fun (n, i) => linkDefect? nodes index i n }

def ofMarks (names : HashNames) (marks : List Mark) : Forest :=
  let p := Pairing.ofMarks names marks
  ofNodes (p.nodes names) p.defects

end Forest

def MarkLog.forest (l : MarkLog) : Forest := Forest.ofMarks l.names l.marks.toList

end SpanWeave
