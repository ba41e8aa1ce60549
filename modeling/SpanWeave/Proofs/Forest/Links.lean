import Mathlib.Data.List.Induction
import Mathlib.Data.List.Nodup
import SpanWeave.Forest.Assembly

set_option autoImplicit false

/-!
# Links

How the nodes of an assembled forest hang together. A node is linked to a host node that has the id
of its parent, and roots and children are the other side of these links: each index is listed once,
among the roots or under one other node.
-/
namespace SpanWeave

namespace Forest

/-- The lists of roots and children say what the parents say, and say it once. -/
structure Linked (f : Forest) : Prop where
  roots : ∀ i, i ∈ f.roots ↔ ∃ n, f.node? i = some n ∧ n.parent = none
  children : ∀ i j, j ∈ f.childrenOf i ↔ ∃ n, f.node? j = some n ∧ n.parent = some i
  nodup_roots : f.roots.Nodup
  nodup_children : ∀ i, (f.childrenOf i).Nodup

def HostAt (nodes : Array Node) (span : SpanId) (i : Nat) : Prop :=
  ∃ n, nodes[i]? = some n ∧ n.kind = .cpu ∧ n.span = span

def LastHost (nodes : Array Node) (span : SpanId) (i : Nat) : Prop :=
  HostAt nodes span i ∧ ∀ j, i < j → ¬ HostAt nodes span j

theorem HostAt.lt {nodes : Array Node} {span : SpanId} {i : Nat} (h : HostAt nodes span i) :
    i < nodes.size := by
  obtain ⟨n, at_i, _⟩ := h
  exact (Array.getElem?_eq_some_iff.mp at_i).1

theorem hostAt_push {nodes : Array Node} {n : Node} {span : SpanId} {i : Nat} :
    HostAt (nodes.push n) span i ↔
      (i = nodes.size ∧ n.kind = .cpu ∧ n.span = span) ∨ HostAt nodes span i := by
  by_cases last : i = nodes.size
  · subst last
    have new : ¬ HostAt nodes span nodes.size := fun old => Nat.lt_irrefl _ old.lt
    simp only [new, or_false, true_and]
    simp [HostAt]
  · simp [HostAt, Array.getElem?_push, last]

theorem exists_lastHost {nodes : Array Node} {span : SpanId} {i : Nat} (h : HostAt nodes span i) :
    ∃ j, LastHost nodes span j := by
  induction left : nodes.size - i using Nat.strongRecOn generalizing i with
  | ind k ih =>
    subst left
    by_cases later : ∃ j, i < j ∧ HostAt nodes span j
    · obtain ⟨j, less, found⟩ := later
      have inside := found.lt
      exact ih _ (by omega) found rfl
    · exact ⟨i, h, fun j less found => later ⟨j, less, found⟩⟩

theorem lastHost_push_self {nodes : Array Node} {n : Node} (host : n.kind = .cpu) {i : Nat} :
    LastHost (nodes.push n) n.span i ↔ i = nodes.size := by
  simp only [LastHost, hostAt_push, host, and_true]
  constructor
  · rintro ⟨rfl | old, none⟩
    · rfl
    · exact absurd (.inl rfl) (none nodes.size old.lt)
  · rintro rfl
    refine ⟨.inl rfl, fun j late => ?_⟩
    rintro (rfl | old)
    · exact Nat.lt_irrefl _ late
    · exact Nat.lt_asymm late old.lt

theorem lastHost_push_of_ne {nodes : Array Node} {n : Node} {span : SpanId}
    (other : n.kind = .cpu → n.span ≠ span) {i : Nat} :
    LastHost (nodes.push n) span i ↔ LastHost nodes span i := by
  have same : ∀ j, HostAt (nodes.push n) span j ↔ HostAt nodes span j := fun j =>
    hostAt_push.trans (or_iff_right fun new => other new.2.1 new.2.2)
  simp only [LastHost, same]

theorem hostIndex_push (nodes : Array Node) (n : Node) : hostIndex (nodes.push n) =
    if n.kind = .cpu then (hostIndex nodes).insert n.span nodes.size else hostIndex nodes := by
  simp [hostIndex, List.zipIdx_append]

/-- A span is looked up as its last host node. -/
theorem hostIndex_eq_some_iff {nodes : Array Node} {span : SpanId} {i : Nat} :
    (hostIndex nodes)[span]? = some i ↔ LastHost nodes span i := by
  obtain ⟨nodes, rfl⟩ : ∃ l : List Node, l.toArray = nodes := ⟨_, nodes.toArray_toList⟩
  induction nodes using List.reverseRecOn with
  | nil => simp [hostIndex, LastHost, HostAt]
  | append_singleton nodes n ih =>
    rw [← List.push_toArray, hostIndex_push]
    split
    next host =>
      rw [Std.ExtTreeMap.getElem?_insert]
      split
      next same =>
        cases Std.LawfulEqCmp.eq_of_compare same
        rw [lastHost_push_self host, Option.some_inj, eq_comm]
      next differs =>
        rw [ih, lastHost_push_of_ne]
        rintro _ rfl
        exact differs Std.ReflCmp.compare_self
    next device => rw [ih, lastHost_push_of_ne fun host => absurd host device]

theorem LastHost.unique {nodes : Array Node} {span : SpanId} {i j : Nat}
    (h : LastHost nodes span i) (h' : LastHost nodes span j) : i = j := by
  by_contra other
  rcases Nat.lt_or_gt_of_ne other with less | less
  · exact h.2 j less h'.1
  · exact h'.2 i less h.1

theorem link?_eq_some_iff {nodes : Array Node} {i j : Nat} {n : Node} :
    link? (hostIndex nodes) i n = some j ↔
      ∃ parent, n.parentSpan = some parent ∧ LastHost nodes parent j ∧ j ≠ i := by
  simp [link?, Option.filter_eq_some_iff, Option.bind_eq_some_iff, hostIndex_eq_some_iff,
    ← exists_and_right, and_assoc]

/-- A node is not linked if no other host node has the id of its parent. -/
theorem link?_eq_none_iff {nodes : Array Node} {i : Nat} {n : Node} :
    link? (hostIndex nodes) i n = none ↔ ∀ parent, n.parentSpan = some parent →
      (∀ j, ¬ HostAt nodes parent j) ∨ LastHost nodes parent i := by
  constructor
  · intro unlinked parent below
    by_contra neither
    obtain ⟨some, other⟩ := not_or.mp neither
    obtain ⟨j, found⟩ := not_forall_not.mp some
    obtain ⟨k, last⟩ := exists_lastHost found
    have apart : k ≠ i := by
      rintro rfl
      exact other last
    cases unlinked.symm.trans (link?_eq_some_iff.mpr ⟨parent, below, last, apart⟩)
  · intro alone
    refine Option.eq_none_iff_forall_ne_some.mpr fun j linked => ?_
    obtain ⟨parent, below, found, other⟩ := link?_eq_some_iff.mp linked
    rcases alone parent below with none | last
    · exact none j found.1
    · exact other (found.unique last)

theorem link?_eq_some {nodes : Array Node} {i j : Nat} {n : Node}
    (linked : link? (hostIndex nodes) i n = some j) :
    j ≠ i ∧ ∃ m, nodes[j]? = some m ∧ m.kind = .cpu ∧ n.parentSpan = some m.span := by
  obtain ⟨_, below, ⟨⟨m, at_j, host, rfl⟩, _⟩, other⟩ := link?_eq_some_iff.mp linked
  exact ⟨other, m, at_j, host, below⟩

def under (nodes : Array Node) (parent : Option Nat) : List Nat :=
  sortIndices nodes ((List.range nodes.size).filter fun i =>
    (nodes.mapIdx (link? (hostIndex nodes)))[i]? == some parent)

theorem nodup_under (nodes : Array Node) (parent : Option Nat) : (under nodes parent).Nodup :=
  (List.mergeSort_perm _ _).nodup_iff.mpr (List.nodup_range.filter _)

theorem mem_under {nodes : Array Node} {parent : Option Nat} {i : Nat} :
    i ∈ under nodes parent ↔
      ∃ n, nodes[i]? = some n ∧ link? (hostIndex nodes) i n = parent := by
  rw [under, sortIndices, List.mem_mergeSort, List.mem_filter, List.mem_range, beq_iff_eq,
    Array.getElem?_mapIdx]
  constructor
  · rintro ⟨_, linked⟩
    exact Option.map_eq_some_iff.mp linked
  · rintro ⟨n, at_i, linked⟩
    exact ⟨(Array.getElem?_eq_some_iff.mp at_i).1, by rw [at_i, Option.map_some, linked]⟩

theorem node?_ofNodes (nodes : Array Node) (defects : List Defect) (i : Nat) :
    (ofNodes nodes defects).node? i = nodes[i]?.map fun n =>
      { n with parent := link? (hostIndex nodes) i n, children := under nodes (some i) } :=
  Array.getElem?_mapIdx

/-- A node in the forest is one of the nodes, with its links. -/
theorem exists_node_ofNodes {nodes : Array Node} {defects : List Defect} {i : Nat}
    {p : Node → Prop} : (∃ n, (ofNodes nodes defects).node? i = some n ∧ p n) ↔
      ∃ n, nodes[i]? = some n ∧
        p { n with parent := link? (hostIndex nodes) i n, children := under nodes (some i) } := by
  simp [node?_ofNodes]

theorem parent_ofNodes {nodes : Array Node} {defects : List Defect} {i : Nat}
    {parent : Option Nat} :
    (∃ n, (ofNodes nodes defects).node? i = some n ∧ n.parent = parent) ↔
      ∃ n, nodes[i]? = some n ∧ link? (hostIndex nodes) i n = parent :=
  exists_node_ofNodes

theorem childrenOf_ofNodes (nodes : Array Node) (defects : List Defect) (i : Nat) :
    (ofNodes nodes defects).childrenOf i =
      if i < nodes.size then under nodes (some i) else [] := by
  rw [childrenOf, node?_ofNodes]
  by_cases inside : i < nodes.size
  · rw [if_pos inside, Array.getElem?_eq_getElem inside]
    rfl
  · rw [if_neg inside, Array.getElem?_eq_none (Nat.le_of_not_lt inside)]
    rfl

theorem linked_ofNodes (nodes : Array Node) (defects : List Defect) :
    (ofNodes nodes defects).Linked := by
  refine ⟨fun i => ?_, fun i j => ?_, nodup_under nodes none, fun i => ?_⟩
  · rw [parent_ofNodes]
    exact mem_under
  · rw [parent_ofNodes, childrenOf_ofNodes]
    split
    · exact mem_under
    · rename_i outside
      refine ⟨fun none => absurd none List.not_mem_nil, fun ⟨n, _, linked⟩ => ?_⟩
      obtain ⟨_, m, at_i, _⟩ := link?_eq_some linked
      exact absurd (Array.getElem?_eq_some_iff.mp at_i).1 outside
  · rw [childrenOf_ofNodes]
    split
    · exact nodup_under nodes (some i)
    · exact List.nodup_nil

end Forest

end SpanWeave
