import SpanWeave.Forest
import SpanWeave.Rounding

set_option autoImplicit false

/-!
# Critical paths

The chain from a root down a forest along which the durations of the spans add up to the most. The
forest may be malformed: indices can be out of range, repeated or cyclic.
-/
namespace SpanWeave

inductive PathFault where
  | outOfRange (node : Nat)
  | cycle (node : Nat)
  | noPath
  /-- A node that is its own parent has no first ancestor. -/
  | endless
  deriving DecidableEq, Repr, Inhabited

def PathFault.message : PathFault → String
  | .outOfRange i => "Node " ++ toString i ++ " out of range"
  | .cycle i => "Forest contains a cycle at node " ++ toString i
  | .noPath => "No paths found in forest"
  | .endless => "Path has no beginning"

structure CriticalPath where
  /-- Indices of the nodes from the root down. -/
  nodes : List Nat := []
  total : Nanos := 0
  names : List String := []
  durations : List Nanos := []
  deriving DecidableEq, Repr, Inhabited

namespace CriticalPath

def percentage (p : CriticalPath) (total : Nanos) : Rounded := Rounded.percentage p.total total

def nodeDurations (p : CriticalPath) : List (Nat × Nanos) :=
  (p.nodes.zip p.durations).mergeSort fun a b => a.1 ≤ b.1

/-- The node with the greatest duration; the smallest index of several. -/
def longest? (p : CriticalPath) : Option (Nat × Nanos) :=
  p.nodeDurations.foldl (fun best d =>
    match best with
    | some b => if b.2 < d.2 then some d else some b
    | none => some d) none

def contains (p : CriticalPath) (i : Nat) : Bool := p.nodes.contains i

end CriticalPath

namespace Forest

/-- Visits the nodes on the stack and all below them, first child first. Every visit but the last
one finds a node that was not seen before, so fuel for one more than all nodes is enough. -/
def visit (f : Forest) : Nat → Array Bool → List Nat → List Nat → Except PathFault (List Nat)
  | _, _, order, [] => .ok order.reverse
  | 0, _, _, _ :: _ => .error .endless
  | fuel + 1, seen, order, i :: stack =>
    match seen[i]? with
    | none => .error (.outOfRange i)
    | some true => .error (.cycle i)
    | some false => f.visit fuel (seen.setIfInBounds i true) (i :: order) (f.childrenOf i ++ stack)

def preorder (f : Forest) : Except PathFault (List Nat) :=
  f.visit (f.nodes.size + 1) (Array.replicate f.nodes.size false) [] f.roots

/-- For each node met so far: the greatest sum of durations that ends there, and the node above
it. -/
abbrev Sums := Std.ExtTreeMap Nat (Nanos × Option Nat)

/-- Adds a node under its parent, if that was met already or is the node itself. -/
def addSum (f : Forest) (sums : Sums) (i : Nat) : Sums :=
  match f.node? i with
  | none => sums
  | some n =>
    let above := n.parent.filter fun p => p == i || sums.contains p
    let inherited := ((n.parent.bind (sums[·]?)).map (·.1)).getD 0
    sums.insert i (inherited + n.duration, above)

/-- The first node with the greatest sum. -/
def heaviest? (sums : Sums) (order : List Nat) : Option (Nat × Nanos) :=
  order.foldl (fun best i =>
    match best, sums[i]? with
    | some b, some (sum, _) => if sum ≤ b.2 then some b else some (i, sum)
    | none, some (sum, _) => some (i, sum)
    | best, none => best) none

/-- The nodes from `i` upwards, if there are no more than the fuel allows. -/
def ancestry (sums : Sums) : Nat → Nat → Option (List Nat)
  | 0, _ => none
  | fuel + 1, i =>
    match (sums[i]?).bind (·.2) with
    | none => some [i]
    | some above => (ancestry sums fuel above).map (i :: ·)

/-- The path whose durations add up to the most; the first one in preorder of several. -/
def criticalPath (f : Forest) : Except PathFault CriticalPath :=
  if f.nodes.isEmpty then .ok {}
  else do
    let order ← f.preorder
    let sums := order.foldl f.addSum ∅
    match heaviest? sums order with
    | none => .error .noPath
    | some (last, total) =>
      match ancestry sums (f.nodes.size + 1) last with
      | none => .error .endless
      | some up =>
        let path := up.reverse
        let nodes := path.filterMap f.node?
        .ok
          { nodes := path
            total := total
            names := nodes.map (·.name)
            durations := nodes.map (·.duration) }

end Forest

end SpanWeave
