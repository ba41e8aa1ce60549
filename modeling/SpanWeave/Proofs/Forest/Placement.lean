import Mathlib.Data.List.Range
import SpanWeave.Proofs.Forest.Descent
import SpanWeave.Proofs.Forest.Pairing
import SpanWeave.Proofs.Lists

set_option autoImplicit false

/-!
# Placement

Where each node of an assembled forest stands: under the last host node of its parent's span, among
its siblings by begin time and priority, and once in the whole forest. What is reported about a link
is said for each node, so that the list of defects can be read off the forest.
-/
namespace SpanWeave

namespace Forest

/-! ## Every node once -/

theorem childrenOf_eq_nil {f : Forest} {p : Nat} (outside : f.nodes.size ≤ p) :
    f.childrenOf p = [] := by
  simp [childrenOf, node?, outside]

/-- Each node is listed once, among the roots or under one other node. -/
theorem Linked.once {f : Forest} (linked : f.Linked) :
    (f.roots ++ (List.range f.nodes.size).flatMap f.childrenOf).Perm (List.range f.nodes.size) := by
  have below : ∀ i, i ∈ (List.range f.nodes.size).flatMap f.childrenOf ↔ ∃ p, f.ParentOf i p := by
    intro i
    rw [List.mem_flatMap]
    constructor
    · rintro ⟨p, _, child⟩
      exact ⟨p, (linked.children p i).mp child⟩
    · rintro ⟨p, parent⟩
      have child := (linked.children p i).mpr parent
      refine ⟨p, List.mem_range.mpr ?_, child⟩
      by_contra outside
      rw [childrenOf_eq_nil (Nat.le_of_not_lt outside)] at child
      simp at child
  have distinct : ((List.range f.nodes.size).flatMap f.childrenOf).Nodup := by
    refine List.nodup_flatMap.mpr ⟨fun p _ => linked.nodup_children p, ?_⟩
    refine List.nodup_range.imp fun other i child child' => other ?_
    obtain ⟨n, at_i, parent⟩ := (linked.children _ i).mp child
    obtain ⟨n', at_i', parent'⟩ := (linked.children _ i).mp child'
    cases at_i.symm.trans at_i'
    exact Option.some.inj (parent.symm.trans parent')
  have apart : f.roots.Disjoint ((List.range f.nodes.size).flatMap f.childrenOf) := by
    intro i root child
    obtain ⟨n, at_i, top⟩ := (linked.roots i).mp root
    obtain ⟨p, n', at_i', parent⟩ := (below i).mp child
    cases at_i.symm.trans at_i'
    cases top.symm.trans parent
  refine (List.perm_ext_iff_of_nodup (List.nodup_append'.mpr ⟨linked.nodup_roots, distinct, apart⟩)
    List.nodup_range).mpr fun i => ?_
  rw [List.mem_append, below, linked.roots, List.mem_range]
  constructor
  · rintro (⟨n, at_i, _⟩ | ⟨p, n, at_i, _⟩) <;> exact (Array.getElem?_eq_some_iff.mp at_i).1
  · intro inside
    have at_i : f.node? i = some f.nodes[i] := Array.getElem?_eq_getElem inside
    cases top : f.nodes[i].parent with
    | none => exact .inl ⟨_, at_i, top⟩
    | some p => exact .inr ⟨p, _, at_i, top⟩

/-! ## The order of siblings -/

def Precedes (nodes : Array Node) (i j : Nat) : Prop :=
  ∃ a b, nodes[i]? = some a ∧ nodes[j]? = some b ∧
    (a.beginsAt < b.beginsAt ∨ a.beginsAt = b.beginsAt ∧
      (a.priority < b.priority ∨ a.priority = b.priority ∧ i < j))

theorem comesBefore_iff {a b : Node} : a.comesBefore b = true ↔
    a.beginsAt < b.beginsAt ∨ a.beginsAt = b.beginsAt ∧ a.priority ≤ b.priority := by
  simp [Node.comesBefore]

theorem comesBefore_trans (a b c : Node) (ab : a.comesBefore b = true)
    (bc : b.comesBefore c = true) : a.comesBefore c = true := by
  simp only [comesBefore_iff, Nanos] at *
  omega

theorem comesBefore_total (a b : Node) : (a.comesBefore b || b.comesBefore a) = true := by
  simp only [Bool.or_eq_true, comesBefore_iff, Nanos]
  omega

theorem mergeSort_congr {l : List Nat} {le le' : Nat → Nat → Bool}
    (same : ∀ i ∈ l, ∀ j ∈ l, le i j = le' i j) : l.mergeSort le = l.mergeSort le' := by
  have mapped := List.map_mergeSort (f := id) (r := le) (s := le') same
  rwa [List.map_id, List.map_id] at mapped

/-- Indices of nodes are sorted by a total order, that of the nodes at these indices. -/
theorem sortIndices_eq {nodes : Array Node} {indices : List Nat}
    (inside : ∀ i ∈ indices, i < nodes.size) : sortIndices nodes indices =
      indices.mergeSort fun i j =>
        (nodes[i]?.getD default).comesBefore (nodes[j]?.getD default) :=
  mergeSort_congr fun i at_i j at_j => by simp [inside i at_i, inside j at_j]

theorem sorted_sortIndices {nodes : Array Node} {indices : List Nat}
    (inside : ∀ i ∈ indices, i < nodes.size) (ascending : indices.Pairwise (· < ·)) :
    (sortIndices nodes indices).Pairwise (Precedes nodes) := by
  rw [sortIndices_eq inside]
  have distinct : indices.Nodup := ascending.imp fun less => Nat.ne_of_lt less
  have sorted := pairwise_mergeSort_ties
    (fun i j => (nodes[i]?.getD default).comesBefore (nodes[j]?.getD default))
    (fun i j k => comesBefore_trans _ _ _) (fun i j => comesBefore_total _ _) distinct ascending
  refine sorted.imp_of_mem fun {i j} at_i at_j order => ?_
  have here := inside i (List.mem_mergeSort.mp at_i)
  have there := inside j (List.mem_mergeSort.mp at_j)
  refine ⟨_, _, Array.getElem?_eq_getElem here, Array.getElem?_eq_getElem there, ?_⟩
  simp only [comesBefore_iff, here, there, getElem?_pos, Option.getD_some, Nanos] at order ⊢
  omega

theorem sorted_under (nodes : Array Node) (parent : Option Nat) :
    (under nodes parent).Pairwise (Precedes nodes) :=
  sorted_sortIndices (fun _ member => List.mem_range.mp (List.mem_of_mem_filter member))
    (List.pairwise_lt_range.filter _)

/-! ## What is reported about links -/

/-- A node is reported if it has a parent and is not linked, or is linked and has a wrong depth. -/
theorem linkDefect?_eq_some_iff {nodes : Array Node} {i : Nat} {n : Node} {d : Defect} :
    linkDefect? nodes (hostIndex nodes) i n = some d ↔
      (∃ parent, n.parentSpan = some parent ∧ link? (hostIndex nodes) i n = none ∧
        .missingParent n.span parent = d) ∨
      ∃ p m, link? (hostIndex nodes) i n = some p ∧ nodes[p]? = some m ∧
        n.depth ≠ deeper m.depth ∧ .depthMismatch n.span (deeper m.depth) n.depth = d := by
  unfold linkDefect?
  cases linked : link? (hostIndex nodes) i n with
  | none => cases below : n.parentSpan <;> simp
  | some p =>
    obtain ⟨_, m, at_p, _, below⟩ := link?_eq_some linked
    simp [below, at_p]

def linkReports (nodes : Array Node) : List (Nat × Defect) :=
  nodes.toList.zipIdx.filterMap fun (n, i) =>
    (linkDefect? nodes (hostIndex nodes) i n).map fun d => (i, d)

theorem mem_linkReports {nodes : Array Node} {i : Nat} {d : Defect} : (i, d) ∈ linkReports nodes ↔
    ∃ n, nodes[i]? = some n ∧ linkDefect? nodes (hostIndex nodes) i n = some d := by
  simp only [linkReports, List.mem_filterMap, Prod.exists, List.mem_zipIdx_iff_getElem?,
    Array.getElem?_toList, Option.map_eq_some_iff, Prod.mk.injEq]
  constructor
  · rintro ⟨n, j, at_j, d', found, rfl, rfl⟩
    exact ⟨n, at_j, found⟩
  · rintro ⟨n, at_i, found⟩
    exact ⟨n, i, at_i, d, found, rfl, rfl⟩

theorem ascending_linkReports (nodes : Array Node) :
    (linkReports nodes).Pairwise fun a b => a.1 < b.1 := by
  have places : nodes.toList.zipIdx.Pairwise fun a b => a.2 < b.2 := by
    rw [← List.pairwise_map, List.zipIdx_map_snd]
    exact List.pairwise_lt_range'
  refine List.Pairwise.filterMap _ (fun a b less x found y found' => ?_) places
  obtain ⟨_, _, rfl⟩ := Option.map_eq_some_iff.mp found
  obtain ⟨_, _, rfl⟩ := Option.map_eq_some_iff.mp found'
  exact less

/-- No report is about a begin or an end alone. -/
theorem linkReports_cases {nodes : Array Node} {i : Nat} {d : Defect}
    (member : (i, d) ∈ linkReports nodes) : (∃ span parent, d = .missingParent span parent) ∨
      ∃ span expected actual, d = .depthMismatch span expected actual := by
  obtain ⟨n, _, found⟩ := mem_linkReports.mp member
  rcases linkDefect?_eq_some_iff.mp found with ⟨parent, _, _, rfl⟩ | ⟨p, m, _, _, _, rfl⟩
  · exact .inl ⟨_, _, rfl⟩
  · exact .inr ⟨_, _, _, rfl⟩

theorem defects_ofNodes (nodes : Array Node) (before : List Defect) :
    (ofNodes nodes before).defects = before ++ (linkReports nodes).map Prod.snd := by
  simp only [ofNodes, linkReports, List.map_filterMap, Option.map_map, Function.comp_def,
    Option.map_id']

theorem mem_missing {nodes : Array Node} {i : Nat} {span parent : SpanId} :
    (i, .missingParent span parent) ∈ linkReports nodes ↔ ∃ n, nodes[i]? = some n ∧
      n.span = span ∧ n.parentSpan = some parent ∧ link? (hostIndex nodes) i n = none := by
  simp only [mem_linkReports, linkDefect?_eq_some_iff]
  refine exists_congr fun n => and_congr_right fun _ => ?_
  constructor
  · rintro (⟨_, below, unlinked, same⟩ | ⟨_, _, _, _, _, same⟩)
    · cases same
      exact ⟨rfl, below, unlinked⟩
    · cases same
  · rintro ⟨rfl, below, unlinked⟩
    exact .inl ⟨parent, below, unlinked, rfl⟩

theorem mem_mismatch {nodes : Array Node} {i : Nat} {span : SpanId} {expected actual : Nat} :
    (i, .depthMismatch span expected actual) ∈ linkReports nodes ↔ ∃ n, nodes[i]? = some n ∧
      n.span = span ∧ n.depth = actual ∧ actual ≠ expected ∧
      ∃ p, link? (hostIndex nodes) i n = some p ∧
        ∃ m, nodes[p]? = some m ∧ min (m.depth + 1) 65535 = expected := by
  simp only [mem_linkReports, linkDefect?_eq_some_iff]
  refine exists_congr fun n => and_congr_right fun _ => ?_
  constructor
  · rintro (⟨_, _, _, same⟩ | ⟨p, m, linked, at_p, wrong, same⟩)
    · cases same
    · cases same
      exact ⟨rfl, rfl, wrong, p, linked, m, at_p, rfl⟩
  · rintro ⟨rfl, rfl, wrong, p, linked, m, at_p, rfl⟩
    exact .inr ⟨p, m, linked, at_p, wrong, rfl⟩

/-! ## The assembled forest -/

/-- Building the links changes neither the kind nor the span of a node. -/
theorem hostAt_ofNodes {nodes : Array Node} {defects : List Defect} {span : SpanId} {i : Nat} :
    HostAt (ofNodes nodes defects).nodes span i ↔ HostAt nodes span i := by
  simp [HostAt, ofNodes, Array.getElem?_mapIdx]

theorem lastHost_ofNodes {nodes : Array Node} {defects : List Defect} {span : SpanId} {i : Nat} :
    LastHost (ofNodes nodes defects).nodes span i ↔ LastHost nodes span i := by
  simp only [LastHost, hostAt_ofNodes]

theorem precedes_ofNodes {nodes : Array Node} {defects : List Defect} {i j : Nat} :
    Precedes (ofNodes nodes defects).nodes i j ↔ Precedes nodes i j := by
  simp [Precedes, ofNodes, Array.getElem?_mapIdx]

/-- What the links of a forest say, and which reports belong to them. -/
structure Arranged (f : Forest) (reports : List (Nat × Defect)) : Prop where
  once : (f.roots ++ (List.range f.nodes.size).flatMap f.childrenOf).Perm
    (List.range f.nodes.size)
  roots : ∀ i, i ∈ f.roots ↔ ∃ n, f.node? i = some n ∧ n.parent = none
  children : ∀ p i, i ∈ f.childrenOf p ↔ ∃ n, f.node? i = some n ∧ n.parent = some p
  carries : ∀ p i, i ∈ f.childrenOf p →
    ∃ n span, f.node? i = some n ∧ n.parentSpan = some span ∧ LastHost f.nodes span p
  top : ∀ i n, f.node? i = some n → (i ∈ f.roots ↔
    n.parentSpan = none ∨ ∃ parent, (i, .missingParent n.span parent) ∈ reports)
  missing : ∀ i span parent, (i, .missingParent span parent) ∈ reports ↔
    ∃ n, f.node? i = some n ∧ n.span = span ∧ n.parentSpan = some parent ∧
      ((∀ j, ¬ HostAt f.nodes parent j) ∨ LastHost f.nodes parent i)
  mismatch : ∀ i span expected actual, (i, .depthMismatch span expected actual) ∈ reports ↔
    ∃ n, f.node? i = some n ∧ n.span = span ∧ n.depth = actual ∧ actual ≠ expected ∧
      ∃ p, n.parent = some p ∧ ∃ m, f.node? p = some m ∧ min (m.depth + 1) 65535 = expected
  linksOnly : ∀ i d, (i, d) ∈ reports → (∃ span parent, d = .missingParent span parent) ∨
    ∃ span expected actual, d = .depthMismatch span expected actual
  inOrder : reports.Pairwise fun a b => a.1 < b.1
  sortedRoots : f.roots.Pairwise (Precedes f.nodes)
  sortedChildren : ∀ p, (f.childrenOf p).Pairwise (Precedes f.nodes)

theorem arranged_ofNodes (nodes : Array Node) (before : List Defect) :
    (ofNodes nodes before).Arranged (linkReports nodes) := by
  have linked := linked_ofNodes nodes before
  constructor
  case once => exact linked.once
  case roots => exact linked.roots
  case children => exact linked.children
  case carries =>
    intro p i child
    obtain ⟨n, at_i, up⟩ := parent_ofNodes.mp ((linked.children p i).mp child)
    obtain ⟨parent, below, last, _⟩ := link?_eq_some_iff.mp up
    obtain ⟨n', at_i', below'⟩ :=
      exists_node_ofNodes (p := fun n => n.parentSpan = some parent).mpr ⟨n, at_i, below⟩
    exact ⟨n', parent, at_i', below', lastHost_ofNodes.mpr last⟩
  case top =>
    intro i n' at_i'
    rw [node?_ofNodes] at at_i'
    obtain ⟨n, at_i, rfl⟩ := Option.map_eq_some_iff.mp at_i'
    rw [linked.roots, parent_ofNodes, at_i]
    simp only [Option.some.injEq, exists_eq_left', mem_missing, at_i]
    cases below : n.parentSpan with
    | none => simp [link?, below]
    | some parent => simp
  case missing =>
    intro i span parent
    rw [mem_missing, exists_node_ofNodes]
    refine exists_congr fun n => and_congr_right fun at_i => and_congr_right fun _ =>
      and_congr_right fun below => ?_
    simp [link?_eq_none_iff, below, hostAt_ofNodes, lastHost_ofNodes]
  case mismatch =>
    intro i span expected actual
    simp only [mem_mismatch, exists_node_ofNodes]
  case linksOnly => exact fun i d => linkReports_cases
  case inOrder => exact ascending_linkReports nodes
  case sortedRoots => exact (sorted_under nodes none).imp precedes_ofNodes.mpr
  case sortedChildren =>
    intro p
    rw [childrenOf_ofNodes]
    split
    · exact (sorted_under nodes (some p)).imp precedes_ofNodes.mpr
    · exact .nil

/-- The paired nodes are arranged. Of the defects those after the pairing are about their links. -/
theorem ofMarks_arranged (names : HashNames) (marks : List Mark) :
    (ofMarks names marks).nodes.toList.map Node.bare =
      ((Pairing.ofMarks names marks).nodes names).toList.map Node.bare ∧
    ∃ before reports, (ofMarks names marks).defects = before ++ reports.map Prod.snd ∧
      (∀ d ∈ before, ∃ span, d = .unmatchedEnd span ∨ d = .unmatchedBegin span) ∧
      (ofMarks names marks).Arranged reports := by
  refine ⟨bare_ofNodes _ _, _, _, defects_ofNodes _ _, fun d member => ?_, arranged_ofNodes _ _⟩
  rcases List.mem_append.mp member with stray | opened
  · obtain ⟨span, _, rfl⟩ := List.mem_map.mp stray
    exact ⟨span, .inl rfl⟩
  · obtain ⟨span, _, rfl⟩ := List.mem_map.mp opened
    exact ⟨span, .inr rfl⟩

end Forest

end SpanWeave
