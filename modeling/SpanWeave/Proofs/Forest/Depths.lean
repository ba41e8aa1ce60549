import SpanWeave.Proofs.Forest.Descent

set_option autoImplicit false

/-!
# Depths

Nodes that are one deeper than the host node they belong under, and that come after it in some
order of ranks, make a forest without wrong depths and without cycles. Nothing can be missing there
but parents.
-/
namespace SpanWeave

/-- A node on a device comes after the host node of its own span, before that of the next one. -/
def Node.rank (n : Node) : Nat :=
  match n.kind with
  | .cpu => 2 * n.span
  | .device => 2 * n.span + 1

def Node.identity (n : Node) : Identity := ⟨n.span, n.parentSpan, n.depth⟩

/-- What is wrong with a node of the identity where these spans have host nodes. -/
def Identity.missing? (spans : List SpanId) (i : Identity) : Option Defect :=
  i.parent.bind fun parent =>
    if parent ∈ spans then none else some (.missingParent i.span parent)

namespace Forest

def hostSpans (nodes : Array Node) : List SpanId :=
  (nodes.toList.filter (·.kind == .cpu)).map (·.span)

theorem mem_hostSpans {nodes : Array Node} {span : SpanId} :
    span ∈ hostSpans nodes ↔ ∃ m ∈ nodes, m.kind = .cpu ∧ m.span = span := by
  simp only [hostSpans, List.mem_map, List.mem_filter, Array.mem_toList_iff, beq_iff_eq, and_assoc]

/-- Every node is one deeper than any host node of its parent's span, and comes after it. -/
def Stepped (nodes : Array Node) : Prop :=
  ∀ n ∈ nodes, ∀ m ∈ nodes, m.kind = .cpu → n.parentSpan = some m.span →
    n.depth = deeper m.depth ∧ m.rank < n.rank

namespace Stepped
variable {nodes : Array Node}

/-- A node is linked to a host node of its parent's span whenever there is one. -/
theorem link? (h : Stepped nodes) {i : Nat} {n : Node} (at_i : nodes[i]? = some n)
    {parent : SpanId} (below : n.parentSpan = some parent) (present : parent ∈ hostSpans nodes) :
    ∃ j m, Forest.link? (hostIndex nodes) i n = some j ∧ nodes[j]? = some m ∧
      n.depth = deeper m.depth := by
  obtain ⟨m, member, host, rfl⟩ := mem_hostSpans.mp present
  obtain ⟨_, at_m⟩ := Array.getElem?_of_mem member
  obtain ⟨j, last⟩ := exists_lastHost ⟨m, at_m, host, rfl⟩
  obtain ⟨m', at_j, host', same⟩ := last.1
  have step := h n (Array.mem_of_getElem? at_i) m' (Array.mem_of_getElem? at_j) host'
    (below.trans (congrArg some same.symm))
  have other : j ≠ i := by
    rintro rfl
    cases at_i.symm.trans at_j
    exact Nat.lt_irrefl _ step.2
  exact ⟨j, m', link?_eq_some_iff.mpr ⟨_, below, last, other⟩, at_j, step.1⟩

theorem linkDefect? (h : Stepped nodes) {i : Nat} {n : Node} (at_i : nodes[i]? = some n) :
    Forest.linkDefect? nodes (hostIndex nodes) i n = n.identity.missing? (hostSpans nodes) := by
  unfold Forest.linkDefect? Identity.missing? Node.identity
  dsimp only
  cases below : n.parentSpan with
  | none => rfl
  | some parent =>
    rw [Option.bind_some]
    by_cases present : parent ∈ hostSpans nodes
    · obtain ⟨j, m, linked, at_j, depth⟩ := h.link? at_i below present
      rw [if_pos present, linked, Option.bind_some, at_j]
      exact if_pos depth
    · rw [if_neg present]
      have unlinked : Forest.link? (hostIndex nodes) i n = none := by
        refine link?_eq_none_iff.mpr fun parent' below' => .inl fun j found => present ?_
        obtain ⟨m, at_j, host, same⟩ := found
        cases below.symm.trans below'
        exact mem_hostSpans.mpr ⟨m, Array.mem_of_getElem? at_j, host, same⟩
      rw [unlinked]
      rfl

theorem defects (h : Stepped nodes) (before : List Defect) :
    (ofNodes nodes before).defects =
      before ++ (nodes.toList.map Node.identity).filterMap (·.missing? (hostSpans nodes)) := by
  have each : nodes.toList.zipIdx.filterMap
      (fun x => Forest.linkDefect? nodes (hostIndex nodes) x.2 x.1) =
      nodes.toList.zipIdx.filterMap (fun x => x.1.identity.missing? (hostSpans nodes)) := by
    refine List.filterMap_congr fun x member => h.linkDefect? ?_
    rw [← Array.getElem?_toList]
    exact List.mem_zipIdx_iff_getElem?.mp member
  rw [List.filterMap_map]
  refine congrArg (before ++ ·) (each.trans ?_)
  have plain := List.filterMap_map (f := Prod.fst)
    (g := fun n : Node => n.identity.missing? (hostSpans nodes)) (l := nodes.toList.zipIdx)
  rw [List.zipIdx_map_fst] at plain
  exact plain.symm

theorem ranked (h : Stepped nodes) (before : List Defect) :
    (ofNodes nodes before).Ranked fun i => (nodes[i]?.map Node.rank).getD 0 := by
  intro i p up
  obtain ⟨n, at_i, linked⟩ := parent_ofNodes.mp up
  obtain ⟨_, m, at_p, host, below⟩ := link?_eq_some linked
  dsimp only
  rw [at_i, at_p]
  exact (h n (Array.mem_of_getElem? at_i) m (Array.mem_of_getElem? at_p) host below).2

end Stepped

end Forest

end SpanWeave
