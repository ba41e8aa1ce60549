import SpanWeave.Proofs.Forest.Ascent
import SpanWeave.Proofs.Forest.Heaviest

set_option autoImplicit false

/-!
# The search

All that a search for the critical path can come to, on any forest. It ends unless the way up from
the heaviest node meets a node that is its own parent; a path that it finds goes up along parents,
meets no node twice and takes as long as its nodes together.
-/
namespace SpanWeave

namespace Forest

def pathAlong (f : Forest) (nodes : List Nat) : CriticalPath where
  nodes := nodes
  total := f.weight nodes
  names := (nodes.filterMap f.node?).map (·.name)
  durations := (nodes.filterMap f.node?).map (·.duration)

inductive Search (f : Forest) : Except PathFault CriticalPath → Prop
  | refused {fault : PathFault} (walked : f.preorder = .error fault) : f.Search (.error fault)
  | rootless (walked : f.preorder = .ok []) : f.Search (.error .noPath)
  | found {order up : List Nat} {last : Nat} (walked : f.preorder = .ok order)
      (heaviest : heaviest? (order.foldl f.addSum ∅) order = some (last, f.weight up))
      (member : last ∈ order) (climb : f.Climb order last up) :
      f.Search (.ok (f.pathAlong up.reverse))
  | endless {order : List Nat} {last : Nat} {total : Nanos} (walked : f.preorder = .ok order)
      (heaviest : heaviest? (order.foldl f.addSum ∅) order = some (last, total))
      (member : last ∈ order) (leads : f.LeadsToOwnParent order last) : f.Search (.error .endless)

/-- The sums after a walk that succeeded. -/
theorem inherits_of_preorder {f : Forest} {order : List Nat} (walked : f.preorder = .ok order) :
    f.Inherits order (order.foldl f.addSum ∅) := by
  obtain ⟨_, distinct, present⟩ := outline_of_preorder walked
  exact inherits distinct present

theorem Inherits.known {f : Forest} {order : List Nat} {sums : Sums} (h : f.Inherits order sums) :
    ∀ i ∈ order, ∃ x, sums[i]? = some x := by
  intro i member
  have found := (h.met i).mpr member
  rwa [Std.ExtTreeMap.contains_eq_isSome_getElem?, Option.isSome_iff_exists] at found

theorem search {f : Forest} (nonempty : f.nodes ≠ #[]) : f.Search f.criticalPath := by
  unfold Forest.criticalPath
  rw [if_neg fun empty => nonempty (Array.isEmpty_iff.mp empty)]
  cases walked : f.preorder with
  | error fault => exact .refused walked
  | ok order =>
    dsimp only [bind, Except.bind]
    have inherits := inherits_of_preorder walked
    obtain ⟨none, inOrder⟩ := heaviest?_mem inherits.known
    cases heaviest : heaviest? (order.foldl f.addSum ∅) order with
    | none =>
      cases none heaviest
      exact .rootless walked
    | some best =>
      obtain ⟨last, total⟩ := best
      have member := inOrder _ heaviest
      dsimp only
      rcases climb_or_leads last with ⟨up, climb⟩ | leads
      · obtain ⟨above, own⟩ := (heaviest?_greatest inherits.known heaviest).1
        obtain ⟨above', weighs⟩ := climb.sum inherits member
        cases own.symm.trans weighs
        -- the way up is no longer than what was met, of which no node is met twice
        have short : up.length ≤ f.nodes.size + 1 := by
          obtain ⟨_, distinct, present⟩ := outline_of_preorder walked
          have inside : up ⊆ List.range f.nodes.size := by
            intro i above
            obtain ⟨n, at_i⟩ := present i (climb.mem member i above)
            exact List.mem_range.mpr (Array.getElem?_eq_some_iff.mp at_i).1
          have fits := (climb.nodup.subperm inside).length_le
          rw [List.length_range] at fits
          exact Nat.le_succ_of_le fits
        rw [climb.ancestry inherits member short, ← weight_reverse]
        refine .found walked ?_ member climb
        rw [heaviest]
      · rw [leads.ancestry inherits member]
        exact .endless walked heaviest member leads

structure Traces (f : Forest) (path : CriticalPath) : Prop where
  nonempty : path.nodes ≠ []
  distinct : path.nodes.Nodup
  parents : path.nodes.IsChain fun i j => f.ParentOf j i
  total : f.weight path.nodes = path.total
  names : path.names.map some = path.nodes.map fun i => (f.node? i).map (·.name)
  durations : path.durations.map some = path.nodes.map fun i => (f.node? i).map (·.duration)

theorem map_filterMap_node? {f : Forest} {nodes : List Nat} {α : Type} (g : Node → α)
    (present : ∀ i ∈ nodes, ∃ n, f.node? i = some n) :
    ((nodes.filterMap f.node?).map g).map some = nodes.map fun i => (f.node? i).map g := by
  induction nodes with
  | nil => rfl
  | cons i nodes ih =>
    obtain ⟨n, at_i⟩ := present i List.mem_cons_self
    rw [List.filterMap_cons_some at_i, List.map_cons, List.map_cons, List.map_cons, at_i,
      ih fun j member => present j (List.mem_cons_of_mem _ member)]
    rfl

theorem Climb.traces {f : Forest} {order up : List Nat} {i : Nat} (h : f.Climb order i up)
    (walked : f.preorder = .ok order) (member : i ∈ order) :
    f.Traces (f.pathAlong up.reverse) := by
  obtain ⟨_, _, present⟩ := outline_of_preorder walked
  have inside : ∀ j ∈ up.reverse, ∃ n, f.node? j = some n := fun j above =>
    present j (h.mem member j (List.mem_reverse.mp above))
  refine ⟨fun empty => ?_, List.nodup_reverse.mpr h.nodup, List.isChain_reverse.mpr h.parents, rfl,
    map_filterMap_node? _ inside, map_filterMap_node? _ inside⟩
  obtain ⟨rest, rfl⟩ := h.head
  exact List.cons_ne_nil _ _ (List.reverse_eq_nil_iff.mp empty)

/-- The way up from the end of the path is not at its end after any number of nodes. -/
def NeverEnds (f : Forest) : Prop :=
  ∃ order last total, f.preorder = .ok order ∧
    heaviest? (order.foldl f.addSum ∅) order = some (last, total) ∧
    ∀ fuel, ancestry (order.foldl f.addSum ∅) fuel last = none

theorem neverEnds_iff {f : Forest} : f.NeverEnds ↔ ∃ order last total, f.preorder = .ok order ∧
    heaviest? (order.foldl f.addSum ∅) order = some (last, total) ∧
    f.LeadsToOwnParent order last := by
  refine exists_congr fun order => exists_congr fun last => exists_congr fun total =>
    and_congr_right fun walked => and_congr_right fun heaviest => ?_
  have inherits := inherits_of_preorder walked
  have member := (heaviest?_mem inherits.known).2 _ heaviest
  refine ⟨fun never => (climb_or_leads last).resolve_left fun ⟨up, climb⟩ => ?_,
    fun leads => leads.ancestry inherits member⟩
  have ends := climb.ancestry inherits member (Nat.le_refl _)
  exact Option.some_ne_none _ (ends.symm.trans (never _))

theorem criticalPath_endless_iff {f : Forest} :
    f.criticalPath = .error .endless ↔ f.NeverEnds := by
  constructor
  · intro endless
    have nonempty : f.nodes ≠ #[] := by
      intro empty
      rw [Forest.criticalPath, empty] at endless
      cases endless
    have h := search nonempty
    rw [endless] at h
    cases h with
    | refused walked => exact absurd walked f.preorder_ne_endless
    | endless walked heaviest _ leads => exact neverEnds_iff.mpr ⟨_, _, _, walked, heaviest, leads⟩
  · rintro ⟨order, last, total, walked, heaviest, never⟩
    have inherits := inherits_of_preorder walked
    have member := (heaviest?_mem inherits.known).2 _ heaviest
    have nonempty : f.nodes ≠ #[] := by
      intro empty
      obtain ⟨n, at_last⟩ := (outline_of_preorder walked).2.2 last member
      rw [node?, empty] at at_last
      cases at_last
    have h := search nonempty
    -- of all that a search can come to, only this fits a way up without an end
    generalize f.criticalPath = result at h ⊢
    cases h with
    | refused walked' => cases walked.symm.trans walked'
    | rootless walked' =>
      cases walked.symm.trans walked'
      cases member
    | found walked' heaviest' _ climb =>
      cases walked.symm.trans walked'
      cases heaviest.symm.trans heaviest'
      have ends := climb.ancestry inherits member (Nat.le_refl _)
      exact absurd (ends.symm.trans (never _)) (Option.some_ne_none _)
    | endless => rfl

/-- The search ends on every forest where no way up leads to a node that is its own parent, and what
it finds is a path of the forest. -/
theorem search_ends (f : Forest) :
    (f.criticalPath = .error .endless ↔ f.NeverEnds) ∧
    (f.NeverEnds → ∃ i, f.ParentOf i i) ∧
    ∀ path, f.nodes ≠ #[] → f.criticalPath = .ok path → f.Traces path := by
  refine ⟨criticalPath_endless_iff, fun never => ?_, fun path nonempty found => ?_⟩
  · obtain ⟨_, _, _, _, _, j, _, own⟩ := neverEnds_iff.mp never
    exact ⟨j, own⟩
  · have h := search nonempty
    rw [found] at h
    cases h with
    | found walked _ member climb => exact climb.traces walked member

def plainNode (parent : Option Nat) (children : List Nat) (duration : Nanos) : Node where
  name := ""
  kind := .cpu
  span := 0
  parentSpan := none
  depth := 0
  thread := 0
  correlation := none
  beginsAt := 0
  endsAt := duration
  priority := 0
  parent := parent
  children := children

/-- The parents say other things than the lists of children, and one is out of range. -/
theorem search_ends_of_wrong_parents : ∃ f : Forest, f.nodes ≠ #[] ∧
    f.nodes = #[plainNode (some 1) [2, 1] 5, plainNode (some 0) [] 4, plainNode (some 7) [] 8] ∧
    ∃ path, f.criticalPath = .ok path ∧ path.nodes = [0, 1] ∧ f.Traces path :=
  let f : Forest := {
    nodes := #[plainNode (some 1) [2, 1] 5, plainNode (some 0) [] 4, plainNode (some 7) [] 8]
    roots := [0] }
  ⟨f, by decide, rfl, _, rfl, rfl, (search_ends f).2.2 _ (by decide) rfl⟩

/-- The search on one node that is its own parent does not end, though the durations are small. -/
theorem own_parent_never_ends : ∃ f : Forest, f.nodes = #[plainNode (some 0) [] 1] ∧
    f.roots = [0] ∧ f.weight (List.range f.nodes.size) < UInt64.size ∧ f.NeverEnds := by
  let f : Forest := { nodes := #[plainNode (some 0) [] 1], roots := [0] }
  have own : f.ParentOf 0 0 := ⟨_, rfl, rfl⟩
  refine ⟨f, rfl, rfl, by decide, neverEnds_iff.mpr ⟨[0], 0, 1, rfl, ?_, 0, .refl, own⟩⟩
  decide

end Forest

end SpanWeave
