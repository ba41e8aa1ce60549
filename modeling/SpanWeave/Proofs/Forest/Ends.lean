import SpanWeave.Proofs.Forest.Optimal

set_option autoImplicit false

/-!
# Ends

Where the critical path of an assembled forest ends. Of the nodes with the greatest sum it ends at
the first one, and a node comes before what is below it: the path is a chain from a root down to a
leaf, without the nodes at its end that take no time.
-/
namespace SpanWeave

namespace Forest

structure Full (f : Forest) (nodes : List Nat) : Prop extends f.Branch nodes where
  leaf : ∃ i, nodes.getLast? = some i ∧ f.childrenOf i = []

/-- The path is a full branch that takes longest, without its end that takes no time. -/
structure Trimmed (f : Forest) (path : CriticalPath) : Prop where
  branch : f.Branch path.nodes
  total : f.weight path.nodes = path.total
  full : ∃ rest, f.Full (path.nodes ++ rest)
  greatest : ∀ nodes, f.Full nodes → f.weight nodes ≤ path.total
  idle : ∀ rest, f.Branch (path.nodes ++ rest) → ∀ i ∈ rest, f.durationOf i = 0
  busy : ∀ above last, path.nodes = above ++ [last] → above ≠ [] → f.durationOf last ≠ 0
  leaf : f.Full path.nodes ↔ ∀ last, path.nodes.getLast? = some last →
    ∀ i ∈ f.childrenOf last, f.durationOf i ≠ 0

theorem weight_eq_zero_iff {f : Forest} {nodes : List Nat} :
    f.weight nodes = 0 ↔ ∀ i ∈ nodes, f.durationOf i = 0 := by
  induction nodes with
  | nil => simp [weight]
  | cons i nodes ih => simp [weight, ih]

theorem Branch.append {f : Forest} {nodes rest : List Nat} {i : Nat} (h : f.Branch nodes)
    (last : nodes.getLast? = some i) (down : (i :: rest).IsChain fun i j => j ∈ f.childrenOf i) :
    f.Branch (nodes ++ rest) := by
  constructor
  case root =>
    obtain ⟨r, root, first⟩ := h.root
    exact ⟨r, root, by simp [first]⟩
  case down =>
    cases down with
    | singleton => simpa using h.down
    | cons_cons child down =>
      refine List.isChain_append.mpr ⟨h.down, down, ?_⟩
      simpa [last] using child

/-- From every node that was met there is a way down to a leaf. -/
theorem Descends.exists_leaf {f : Forest} {order : List Nat} (h : f.Descends order)
    (linked : f.Linked) {i : Nat} (met : i ∈ order) :
    ∃ rest, ((i :: rest).IsChain fun i j => j ∈ f.childrenOf i) ∧
      ∃ leaf, (i :: rest).getLast? = some leaf ∧ f.childrenOf leaf = [] := by
  -- what is below a node comes later in the order
  induction left : order.length - order.idxOf i using Nat.strongRecOn generalizing i with
  | ind k ih =>
    subst left
    cases below : f.childrenOf i with
    | nil => exact ⟨[], .singleton i, i, rfl, below⟩
    | cons j others =>
      have child : j ∈ f.childrenOf i := by simp [below]
      have met' : j ∈ order := (h.reached j).mpr (.child ((h.reached i).mp met) child)
      have earlier := (h.above met' ((linked.children i j).mp child)).earlier
      have inside := List.idxOf_lt_length_iff.mpr met'
      obtain ⟨rest, down, leaf, last, none⟩ := ih _ (by omega) met' rfl
      exact ⟨j :: rest, .cons_cons child down, leaf, by simpa using last, none⟩

theorem Linked.trimmed {f : Forest} (linked : f.Linked) (rooted : f.roots ≠ []) :
    ∃ path, f.criticalPath = .ok path ∧ f.Trimmed path := by
  obtain ⟨order, path, outline, met, found, optimal⟩ := linked.optimal rooted
  obtain ⟨order', walked, descends⟩ := linked.preorder
  obtain rfl : order' = order := (outline_of_preorder walked).1.unique outline
  have branch := optimal.branch
  have total := optimal.traces.total
  obtain ⟨before, last, after, split, ends, first⟩ := optimal.first
  have idle : ∀ rest, f.Branch (path.nodes ++ rest) → ∀ i ∈ rest, f.durationOf i = 0 := by
    intro rest longer
    have most := optimal.greatest _ longer
    rw [weight_append, total] at most
    exact weight_eq_zero_iff.mp (by simp only [Nanos] at most ⊢; omega)
  refine ⟨path, found, ?_⟩
  constructor
  case branch => exact branch
  case total => exact total
  case full =>
    have reached := (branch.chain linked ends).1
    obtain ⟨rest, down, leaf, last', none⟩ := descends.exists_leaf linked ((met last).mpr reached)
    obtain ⟨above, nodes⟩ := List.getLast?_eq_some_iff.mp ends
    refine ⟨rest, branch.append ends down, leaf, ?_, none⟩
    rw [nodes, List.append_assoc, List.singleton_append, List.getLast?_append, last',
      Option.some_or]
  case greatest => exact fun nodes full => optimal.greatest nodes full.toBranch
  case idle => exact idle
  case busy =>
    -- otherwise the node above has the same sum, and it comes earlier
    intro above last' nodes nonempty none
    obtain rfl : last' = last := by simpa [nodes] using ends
    have upper := (nodes ▸ branch).of_append nonempty
    obtain ⟨p, above_p⟩ : ∃ p, above.getLast? = some p :=
      ⟨_, List.getLast?_eq_some_getLast nonempty⟩
    have child := (List.isChain_append.mp (nodes ▸ branch.down)).2.2 p above_p last' rfl
    have weighs : f.weight above = path.total := by
      rw [← total, nodes, weight_append]
      simp [weight, none]
    obtain ⟨n, at_last, seen⟩ := descends.first before last' after split
    have parent := (parentOf_iff at_last).mp ((linked.children p last').mp child)
    exact first above p upper above_p weighs (seen p parent)
  case leaf =>
    constructor
    · rintro ⟨_, leaf, ends', none⟩ last' ends'' i child
      cases ends'.symm.trans ends''
      simp [none] at child
    · intro takes
      refine ⟨branch, last, ends, List.eq_nil_iff_forall_not_mem.mpr fun i child => ?_⟩
      have longer := branch.append ends (.cons_cons child (.singleton i))
      exact takes last ends i child (idle [i] longer i (by simp))

/-- The critical path goes down to a leaf, but for what takes no time. -/
theorem ofMarks_trimmed (names : HashNames) (marks : List Mark)
    (rooted : (ofMarks names marks).roots ≠ []) :
    ∃ path, (ofMarks names marks).criticalPath = .ok path ∧ (ofMarks names marks).Trimmed path :=
  (linked_ofNodes _ _).trimmed rooted

def emptyCall : List Mark :=
  [.hostBegin "outer" 7 ⟨1, none, 0⟩ none 0 none, .hostBegin "inner" 7 ⟨2, some 1, 1⟩ none 3 none,
    .hostEnd "inner" 7 ⟨2, some 1, 1⟩ 3, .hostEnd "outer" 7 ⟨1, none, 0⟩ 5]

theorem ofMarks_trimmed_of_emptyCall : (ofMarks ∅ emptyCall).roots ≠ [] ∧
    ∃ path, (ofMarks ∅ emptyCall).criticalPath = .ok path ∧ (ofMarks ∅ emptyCall).Trimmed path := by
  have rooted : (ofMarks ∅ emptyCall).roots ≠ [] := by decide +kernel
  exact ⟨rooted, ofMarks_trimmed ∅ emptyCall rooted⟩

/-- The path ends at the outer call, which is no leaf. -/
theorem emptyCall_left_out : (ofMarks ∅ emptyCall).roots = [1] ∧
    (ofMarks ∅ emptyCall).weight [1, 0] < UInt64.size ∧
    ∃ path, (ofMarks ∅ emptyCall).criticalPath = .ok path ∧
      ∃ last, path.nodes.getLast? = some last ∧ (ofMarks ∅ emptyCall).childrenOf last = [0] := by
  have found : (ofMarks ∅ emptyCall).criticalPath.toOption.map (·.nodes) = some [1] := by
    decide +kernel
  have below : (ofMarks ∅ emptyCall).childrenOf 1 = [0] := by decide +kernel
  refine ⟨by decide +kernel, by decide +kernel, ?_⟩
  cases result : (ofMarks ∅ emptyCall).criticalPath with
  | error fault => simp [result, Except.toOption] at found
  | ok path =>
    have nodes : path.nodes = [1] := by simpa [result, Except.toOption] using found
    exact ⟨path, rfl, 1, by simp [nodes], below⟩

end Forest

end SpanWeave
