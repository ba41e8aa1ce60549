import Mathlib.Logic.Relation
import SpanWeave.Proofs.Forest.Matching
import SpanWeave.Proofs.Forest.Optimal

set_option autoImplicit false

/-!
# Levels

Where every linked node is one deeper than its parent, depths fall on every way up. A forest without
wrong depths, built from marks above the depth limit, therefore has no cycle of links, whatever the
ids of the marks: each node hangs under one root, and the walk down meets them all.
-/
namespace SpanWeave

namespace Forest

/-- Every way up ends at a root, there is one for each node, and the walk down meets all nodes. -/
structure Grounded (f : Forest) : Prop where
  up : ∀ i < f.nodes.size, ∃ r ∈ f.roots, Relation.ReflTransGen f.ParentOf i r
  down : ∀ i < f.nodes.size, ∃! r, r ∈ f.roots ∧
    Relation.ReflTransGen (fun p c => c ∈ f.childrenOf p) r i
  walk : ∃ order, f.preorder = .ok order ∧ order.Perm (List.range f.nodes.size) ∧
    ∀ i p, f.ParentOf i p → order.idxOf p < order.idxOf i
  path : ∃ path, f.criticalPath = .ok path

theorem Reaches.up {f : Forest} (linked : f.Linked) {i : Nat} (h : f.Reaches i) :
    ∃ r ∈ f.roots, Relation.ReflTransGen f.ParentOf i r := by
  induction h with
  | root member => exact ⟨_, member, .refl⟩
  | child _ member ih =>
    obtain ⟨r, root, above⟩ := ih
    exact ⟨r, root, .head ((linked.children _ _).mp member) above⟩

/-- Children are found where parents lead. -/
theorem Linked.down_iff {f : Forest} (linked : f.Linked) {i r : Nat} :
    Relation.ReflTransGen (fun p c => c ∈ f.childrenOf p) r i ↔
      Relation.ReflTransGen f.ParentOf i r := by
  have same : (Function.swap fun p c => c ∈ f.childrenOf p) = f.ParentOf := by
    funext c p
    exact propext (linked.children p c)
  rw [← Relation.reflTransGen_swap, same]

theorem Linked.root_unique {f : Forest} (linked : f.Linked) {i r r' : Nat} (root : r ∈ f.roots)
    (root' : r' ∈ f.roots) (above : Relation.ReflTransGen f.ParentOf i r)
    (above' : Relation.ReflTransGen f.ParentOf i r') : r = r' := by
  have top : ∀ t ∈ f.roots, ∀ j, Relation.ReflTransGen f.ParentOf t j → t = j := by
    intro t root j above
    obtain rfl | ⟨p, parent, _⟩ := above.cases_head
    · rfl
    · obtain ⟨n, at_t, none⟩ := (linked.roots t).mp root
      cases none.symm.trans ((parentOf_iff at_t).mp parent)
  have unique : Relator.RightUnique f.ParentOf := fun _ _ _ => ParentOf.unique
  rcases above.total_of_right_unique unique above' with h | h
  · exact top r root r' h
  · exact (top r' root' r h).symm

theorem Ranked.grounded {f : Forest} {rank : Nat → Nat} (ranked : f.Ranked rank)
    (linked : f.Linked) : f.Grounded := by
  have up : ∀ i < f.nodes.size, ∃ r ∈ f.roots, Relation.ReflTransGen f.ParentOf i r :=
    fun i inside => (ranked.reaches linked inside).up linked
  obtain ⟨order, walked, descends⟩ := linked.preorder
  have met : ∀ i, i ∈ order ↔ i < f.nodes.size := by
    intro i
    constructor
    · exact fun member => (descends.first.mem member).lt
    · exact fun inside => (descends.reached i).mpr (ranked.reaches linked inside)
  constructor
  case up => exact up
  case down =>
    intro i inside
    obtain ⟨r, root, above⟩ := up i inside
    refine ⟨r, ⟨root, linked.down_iff.mpr above⟩, fun r' ⟨root', below⟩ => ?_⟩
    exact linked.root_unique root' root (linked.down_iff.mp below) above
  case walk =>
    refine ⟨order, walked, ?_, fun i p parent => ?_⟩
    · refine (List.perm_ext_iff_of_nodup descends.distinct List.nodup_range).mpr fun i => ?_
      rw [met, List.mem_range]
    · have inside : i < f.nodes.size := by
        obtain ⟨n, at_i, _⟩ := parent
        exact (Array.getElem?_eq_some_iff.mp at_i).1
      exact (descends.above ((met i).mpr inside) parent).earlier
  case path => exact linked.criticalPath (ranked.rooted linked)

/-- Without a report of a wrong depth a linked node is one deeper than its parent. -/
theorem depth_of_parent {nodes : Array Node} {before : List Defect}
    (fits : ∀ span expected actual,
      .depthMismatch span expected actual ∉ (ofNodes nodes before).defects)
    {i p : Nat} (parent : (ofNodes nodes before).ParentOf i p) :
    ∃ n m, (ofNodes nodes before).node? i = some n ∧ (ofNodes nodes before).node? p = some m ∧
      n.depth = min (m.depth + 1) 65535 := by
  have arranged := arranged_ofNodes nodes before
  obtain ⟨_, _, _, _, ⟨m, at_p, _⟩, _⟩ := arranged.carries p i ((arranged.children p i).mpr parent)
  obtain ⟨n, at_i, up⟩ := parent
  refine ⟨n, m, at_i, at_p, ?_⟩
  by_contra wrong
  have reported := (arranged.mismatch i n.span (min (m.depth + 1) 65535) n.depth).mpr
    ⟨n, at_i, rfl, rfl, wrong, p, up, m, at_p, rfl⟩
  refine fits n.span (min (m.depth + 1) 65535) n.depth ?_
  rw [defects_ofNodes]
  exact List.mem_append_right _ (List.mem_map_of_mem reported)

/-- Where no mark is at the depth limit and no wrong depth is reported, depths fall upwards. -/
theorem ranked_ofMarks {names : HashNames} {marks : List Mark}
    (above : ∀ m ∈ marks, m.depth ≠ depthLimit)
    (fits : ∀ span expected actual,
      .depthMismatch span expected actual ∉ (ofMarks names marks).defects) :
    (ofMarks names marks).Ranked fun i =>
      (((ofMarks names marks).node? i).map (·.depth)).getD 0 := by
  intro i p parent
  obtain ⟨n, m, at_i, at_p, depth⟩ := depth_of_parent fits parent
  obtain ⟨mark, member, kind, time, same⟩ := bare_eq_toNode at_i
  have short : n.depth ≠ 65535 := (congrArg Node.depth same).symm ▸ above mark member
  simp only [ofMarks, at_i, at_p, Option.map_some, Option.getD_some]
  omega

/-- Where no mark is at the depth limit and no wrong depth is reported, the forest has no cycles. -/
theorem ofMarks_grounded (names : HashNames) (marks : List Mark)
    (above : ∀ m ∈ marks, m.depth ≠ depthLimit)
    (fits : ∀ span expected actual,
      .depthMismatch span expected actual ∉ (ofMarks names marks).defects) :
    (ofMarks names marks).Grounded :=
  (ranked_ofMarks above fits).grounded (linked_ofNodes _ _)

def launchAndOrphan : List Mark :=
  [.hostBegin "outer" 7 ⟨5, none, 0⟩ none 0 none, .hostBegin "launch" 7 ⟨3, some 5, 1⟩ none 10 none,
    .onDevice "kernel" 7 ⟨3, some 5, 1⟩ 2 15 40 0 0, .hostEnd "launch" 7 ⟨3, some 5, 1⟩ 20,
    .hostBegin "orphan" 8 ⟨8, some 9, 4⟩ none 25 none, .hostEnd "orphan" 8 ⟨8, some 9, 4⟩ 26,
    .hostEnd "outer" 7 ⟨5, none, 0⟩ 30]

theorem ofMarks_grounded_of_orphan : (∀ m ∈ launchAndOrphan, m.depth ≠ depthLimit) ∧
    (∀ span expected actual,
      .depthMismatch span expected actual ∉ (ofMarks ∅ launchAndOrphan).defects) ∧
    (ofMarks ∅ launchAndOrphan).nodes.size = 4 ∧ (ofMarks ∅ launchAndOrphan).Grounded := by
  have above : ∀ m ∈ launchAndOrphan, m.depth ≠ depthLimit := by decide
  have defects : (ofMarks ∅ launchAndOrphan).defects = [.missingParent 8 9] := by decide +kernel
  have fits : ∀ span expected actual,
      .depthMismatch span expected actual ∉ (ofMarks ∅ launchAndOrphan).defects := by
    simp [defects]
  exact ⟨above, fits, by decide +kernel, ofMarks_grounded ∅ launchAndOrphan above fits⟩

/-- At the depth limit each of two calls can be under the other, and nothing is reported. -/
example : (fun f : Forest => (f.nodes.toList.map (·.parent), f.roots, f.defects))
    (ofMarks ∅ [{ Mark.hostBegin "a" 7 ⟨1, some 2, depthLimit⟩ none 0 none with phase := .whole },
      { Mark.hostBegin "b" 7 ⟨2, some 1, depthLimit⟩ none 0 none with phase := .whole }]) =
    ([some 1, some 0], [], []) := by
  decide +kernel

end Forest

end SpanWeave
