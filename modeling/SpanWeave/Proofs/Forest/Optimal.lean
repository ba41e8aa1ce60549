import SpanWeave.Proofs.Forest.Search

set_option autoImplicit false

/-!
# Optimal paths

The critical path of an assembled forest is a heaviest branch. Of the nodes where heaviest branches
end it takes the one that is written first in the outline of the forest, and its longest node is the
one of the smallest index among those that take longest.
-/
namespace SpanWeave

namespace CriticalPath

/-- Of pairs in the order of their first parts, the first one with the greatest second part. -/
theorem longest_of_sorted {l : List (Nat × Nanos)} (sorted : l.Pairwise fun a b => a.1 ≤ b.1)
    (nonempty : l ≠ []) :
    ∃ b, l.foldl (fun best d =>
      match best with
      | some b => if b.2 < d.2 then some d else some b
      | none => some d) none = some b ∧ b ∈ l ∧
      ∀ d ∈ l, d.2 < b.2 ∨ (d.2 = b.2 ∧ b.1 ≤ d.1) := by
  induction l using List.reverseRecOn with
  | nil => exact absurd rfl nonempty
  | append_singleton l x ih =>
    obtain ⟨before, _, order⟩ := List.pairwise_append.mp sorted
    have last := List.mem_append_right l (List.mem_singleton_self x)
    rw [List.foldl_append, List.foldl_cons, List.foldl_nil]
    by_cases empty : l = []
    · subst empty
      exact ⟨x, rfl, last, List.forall_mem_singleton.mpr (.inr ⟨rfl, Nat.le_refl _⟩)⟩
    · obtain ⟨b, best, member, greatest⟩ := ih before empty
      rw [best]
      dsimp only
      by_cases longer : b.2 < x.2
      · rw [if_pos longer]
        refine ⟨x, rfl, last, List.forall_mem_append.mpr ⟨fun d member => .inl ?_,
          List.forall_mem_singleton.mpr (.inr ⟨rfl, Nat.le_refl _⟩)⟩⟩
        rcases greatest d member with shorter | ⟨same, _⟩
        · exact Nat.lt_trans shorter longer
        · exact same ▸ longer
      · rw [if_neg longer]
        refine ⟨b, rfl, List.mem_append_left _ member, List.forall_mem_append.mpr ⟨greatest,
          List.forall_mem_singleton.mpr ?_⟩⟩
        have earlier := order b member x (List.mem_singleton_self x)
        exact (Nat.lt_or_eq_of_le (Nat.le_of_not_lt longer)).imp_right fun same => ⟨same, earlier⟩

end CriticalPath

namespace Forest

/-- A chain of nodes from a root down, each a child of the one before it. -/
structure Branch (f : Forest) (nodes : List Nat) : Prop where
  root : ∃ r ∈ f.roots, nodes.head? = some r
  down : nodes.IsChain fun i j => j ∈ f.childrenOf i

/-- What is above a node of a branch is a branch. -/
theorem Branch.of_append {f : Forest} {above rest : List Nat} (h : f.Branch (above ++ rest))
    (nonempty : above ≠ []) : f.Branch above := by
  constructor
  case root =>
    obtain ⟨r, root, first⟩ := h.root
    exact ⟨r, root, by rwa [List.head?_append_of_ne_nil _ nonempty] at first⟩
  case down => exact (List.isChain_append.mp h.down).1

/-- The chain from a root to a node weighs as much as the branch that ends there. -/
theorem Branch.chain {f : Forest} (linked : f.Linked) {nodes : List Nat} (h : f.Branch nodes)
    {i : Nat} (last : nodes.getLast? = some i) : f.Reaches i ∧ f.Chain i (f.weight nodes) := by
  induction nodes using List.reverseRecOn generalizing i with
  | nil => cases last
  | append_singleton nodes j ih =>
    obtain rfl : j = i := Option.some.inj (List.getLast?_concat.symm.trans last)
    obtain ⟨_, _, link⟩ := List.isChain_append.mp h.down
    rw [weight_append, weight, weight, Nat.add_zero]
    cases end_eq : nodes.getLast? with
    | none =>
      rw [List.getLast?_eq_none_iff] at end_eq
      subst end_eq
      obtain ⟨r, member, first⟩ := h.root
      cases first
      obtain ⟨n, at_j, top⟩ := (linked.roots j).mp member
      rw [weight, Nat.zero_add, durationOf_eq at_j]
      exact ⟨.root member, .root at_j top⟩
    | some p =>
      have child := link p end_eq j rfl
      have nonempty : nodes ≠ [] := by
        rintro rfl
        cases end_eq
      obtain ⟨reached, above⟩ := ih (h.of_append nonempty) end_eq
      obtain ⟨n, at_j, below⟩ := (linked.children p j).mp child
      rw [durationOf_eq at_j]
      exact ⟨.child reached child, .step at_j below above⟩

theorem Descends.above {f : Forest} {order : List Nat} (h : f.Descends order) {i p : Nat}
    (member : i ∈ order) (parent : f.ParentOf i p) : f.Above order i p := by
  refine ⟨parent, ?_⟩
  obtain ⟨before, after, rfl⟩ := List.append_of_mem member
  obtain ⟨n, at_i, seen⟩ := h.first before i after rfl
  have early := seen p ((parentOf_iff at_i).mp parent)
  have late : i ∉ before := fun again =>
    (List.nodup_append'.mp h.distinct).2.2 again List.mem_cons_self
  rw [List.idxOf_append, if_pos early, List.idxOf_append, if_neg late, List.idxOf_cons_self]
  exact Nat.lt_of_lt_of_le (List.idxOf_lt_length_iff.mpr early) (Nat.le_add_left _ _)

/-- The way up from a node that was met is a branch, read from its end. -/
theorem Climb.branch {f : Forest} (linked : f.Linked) {order up : List Nat} {i : Nat}
    (h : f.Climb order i up) (descends : f.Descends order) (member : i ∈ order) :
    f.Branch up.reverse := by
  obtain ⟨t, last, top⟩ := h.last
  refine ⟨⟨t, ?_, List.head?_reverse.trans last⟩, List.isChain_reverse.mpr ?_⟩
  · have met := h.mem member t (List.mem_of_getLast? last)
    obtain ⟨n, at_t, _⟩ := descends.first.mem met
    refine (linked.roots t).mpr ⟨n, at_t, Option.eq_none_iff_forall_ne_some.mpr fun p up => ?_⟩
    have parent := (parentOf_iff at_t).mpr up
    exact (top p parent).2 (descends.above met parent)
  · exact h.parents.imp fun i p parent => (linked.children p i).mpr parent

/-- No node before the heaviest one has as great a sum. -/
theorem heaviest?_first {sums : Sums} {order : List Nat}
    (known : ∀ i ∈ order, ∃ x, sums[i]? = some x) {last : Nat} {total : Nanos}
    (found : heaviest? sums order = some (last, total)) :
    ∃ before after, order = before ++ last :: after ∧
      ∀ i ∈ before, ∀ sum above, sums[i]? = some (sum, above) → sum < total := by
  induction order using List.reverseRecOn generalizing last total with
  | nil => cases found
  | append_singleton order i ih =>
    have before : ∀ j ∈ order, ∃ x, sums[j]? = some x :=
      fun j member => known j (List.mem_append_left _ member)
    obtain ⟨⟨sum, up⟩, at_i⟩ := known i (List.mem_append_right _ (List.mem_singleton_self i))
    have empty := (heaviest?_mem before).1
    have greatest := @heaviest?_greatest sums order before
    have ih := @ih before
    unfold heaviest? at ih empty greatest found
    rw [List.foldl_append, List.foldl_cons, List.foldl_nil, at_i] at found
    generalize order.foldl _ none = held at ih empty greatest found
    cases held with
    | none =>
      cases found
      rw [empty rfl]
      exact ⟨[], [], rfl, List.forall_mem_nil _⟩
    | some b =>
      dsimp only at found
      split at found
      · cases found
        obtain ⟨first, rest, rfl, less⟩ := ih rfl
        exact ⟨first, rest ++ [i], by rw [List.append_assoc, List.cons_append], less⟩
      · rename_i heavier
        cases found
        refine ⟨order, [], rfl, fun j member sum' above same => ?_⟩
        exact Nat.lt_of_le_of_lt ((greatest rfl).2 j member sum' above same)
          (Nat.lt_of_not_le heavier)

theorem Traces.durations_eq {f : Forest} {path : CriticalPath} (h : f.Traces path) :
    path.durations = path.nodes.map f.durationOf := by
  have same := congrArg (List.map (Option.getD · 0)) h.durations
  rw [List.map_map, List.map_map] at same
  exact (List.map_id'' (fun _ => rfl) _).symm.trans same

theorem Traces.longest {f : Forest} {path : CriticalPath} (h : f.Traces path) :
    ∃ i, path.longest? = some (i, f.durationOf i) ∧ i ∈ path.nodes ∧
      ∀ j ∈ path.nodes, f.durationOf j < f.durationOf i ∨
        (f.durationOf j = f.durationOf i ∧ i ≤ j) := by
  have perm := List.mergeSort_perm (path.nodes.zip path.durations) fun a b => a.1 ≤ b.1
  have zipped : path.nodes.zip path.durations = path.nodes.map fun i => (i, f.durationOf i) := by
    rw [h.durations_eq, List.map_prod_left_eq_zip]
  rw [zipped] at perm
  have sorted : path.nodeDurations.Pairwise fun a b => a.1 ≤ b.1 := by
    refine (List.pairwise_mergeSort (fun a b c => ?_) (fun a b => ?_) _).imp of_decide_eq_true
    · simpa only [decide_eq_true_eq] using Nat.le_trans
    · simpa only [Bool.or_eq_true, decide_eq_true_eq] using Nat.le_total a.1 b.1
  have mem_iff : ∀ d, d ∈ path.nodeDurations ↔ ∃ i ∈ path.nodes, (i, f.durationOf i) = d := by
    intro d
    rw [CriticalPath.nodeDurations, zipped, perm.mem_iff, List.mem_map]
  have some : path.nodeDurations ≠ [] := by
    obtain ⟨i, rest, nodes⟩ := List.exists_cons_of_ne_nil h.nonempty
    exact List.ne_nil_of_mem ((mem_iff _).mpr ⟨i, nodes ▸ List.mem_cons_self, rfl⟩)
  obtain ⟨b, best, member, greatest⟩ := CriticalPath.longest_of_sorted sorted some
  obtain ⟨i, onPath, rfl⟩ := (mem_iff b).mp member
  exact ⟨i, best, onPath, fun j onPath => greatest (j, f.durationOf j)
    ((mem_iff _).mpr ⟨j, onPath, rfl⟩)⟩

/-- The path is a heaviest branch, and of those the one whose end is written first. -/
structure Optimal (f : Forest) (order : List Nat) (path : CriticalPath) : Prop where
  traces : f.Traces path
  branch : f.Branch path.nodes
  greatest : ∀ nodes, f.Branch nodes → f.weight nodes ≤ path.total
  first : ∃ before last after, order = before ++ last :: after ∧ path.nodes.getLast? = some last ∧
    ∀ nodes i, f.Branch nodes → nodes.getLast? = some i → f.weight nodes = path.total → i ∉ before
  longest : ∃ i, path.longest? = some (i, f.durationOf i) ∧ i ∈ path.nodes ∧
    ∀ j ∈ path.nodes, f.durationOf j < f.durationOf i ∨
      (f.durationOf j = f.durationOf i ∧ i ≤ j)

theorem Linked.optimal {f : Forest} (linked : f.Linked) (rooted : f.roots ≠ []) :
    ∃ order path, f.Outline f.roots order ∧ (∀ i, i ∈ order ↔ f.Reaches i) ∧
      f.criticalPath = .ok path ∧ f.Optimal order path := by
  have nonempty : f.nodes ≠ #[] := by
    intro empty
    obtain ⟨r, rest, roots⟩ := List.exists_cons_of_ne_nil rooted
    obtain ⟨n, at_r, _⟩ := (linked.roots r).mp (roots ▸ List.mem_cons_self)
    rw [node?, empty] at at_r
    cases at_r
  obtain ⟨path, result⟩ := linked.criticalPath fun _ => rooted
  have greatest := (linked.greatest nonempty result).2
  have h := search nonempty
  rw [result] at h
  cases h with
  | @found order up last walked heaviest member climb =>
    obtain ⟨order', walked', descends⟩ := linked.preorder
    cases walked.symm.trans walked'
    have outline := (outline_of_preorder walked).1
    have traces := climb.traces walked member
    have summed := descends.first.summed
    obtain ⟨before, after, split, less⟩ :=
      heaviest?_first (inherits_of_preorder walked).known heaviest
    have ends : up.reverse.getLast? = some last := by
      obtain ⟨rest, rfl⟩ := climb.head
      rw [List.getLast?_reverse]
      rfl
    refine ⟨order, _, outline, descends.reached, result, traces,
      climb.branch linked descends member, fun nodes branch => ?_,
      ⟨before, last, after, split, ends, fun nodes i branch ends' weighs early => ?_⟩,
      traces.longest⟩
    · have some : nodes ≠ [] := by
        rintro rfl
        obtain ⟨_, _, first⟩ := branch.root
        cases first
      exact greatest ⟨_, branch.chain linked (List.getLast?_eq_some_getLast some)⟩
    · -- a node before the end has a smaller sum, which is the weight of its branch
      obtain ⟨sum, n, _, at_i⟩ := summed.met i (split ▸ List.mem_append_left _ early)
      have lighter := less i early sum _ at_i
      rw [(summed.sound i sum _ at_i).2.unique (branch.chain linked ends').2, weighs] at lighter
      exact Nat.lt_irrefl _ (weight_reverse f up ▸ lighter)

/-- Every forest that is assembled from marks and has a root has an optimal path. -/
theorem ofMarks_optimal (names : HashNames) (marks : List Mark)
    (rooted : (ofMarks names marks).roots ≠ []) :
    ∃ order path, (ofMarks names marks).Outline (ofMarks names marks).roots order ∧
      (∀ i, i ∈ order ↔ (ofMarks names marks).Reaches i) ∧
      (ofMarks names marks).criticalPath = .ok path ∧
      (ofMarks names marks).Optimal order path :=
  (linked_ofNodes _ _).optimal rooted

def twins : List Mark :=
  [.hostBegin "root" 7 ⟨1, none, 0⟩ none 0 none, .hostBegin "left" 7 ⟨2, some 1, 1⟩ none 10 none,
    .hostEnd "left" 7 ⟨2, some 1, 1⟩ 510, .hostBegin "right" 7 ⟨3, some 1, 1⟩ none 600 none,
    .hostEnd "right" 7 ⟨3, some 1, 1⟩ 1100, .hostEnd "root" 7 ⟨1, none, 0⟩ 1000]

theorem ofMarks_optimal_of_twins : (ofMarks ∅ twins).roots ≠ [] ∧
    ∃ order path, (ofMarks ∅ twins).Outline (ofMarks ∅ twins).roots order ∧
      (ofMarks ∅ twins).criticalPath = .ok path ∧ (ofMarks ∅ twins).Optimal order path ∧
      1500 ≤ path.total := by
  have roots : (ofMarks ∅ twins).roots = [2] := by decide +kernel
  have rooted : (ofMarks ∅ twins).roots ≠ [] := by
    rw [roots]
    exact List.cons_ne_nil _ _
  obtain ⟨order, path, outline, _, found, optimal⟩ := ofMarks_optimal ∅ twins rooted
  refine ⟨rooted, order, path, outline, found, optimal, ?_⟩
  have child : 0 ∈ (ofMarks ∅ twins).childrenOf 2 := by
    refine ((linked_ofNodes _ _).children 2 0).mpr (Option.map_eq_some_iff.mp ?_)
    decide +kernel
  have heavy : (ofMarks ∅ twins).weight [2, 0] = 1500 := by decide +kernel
  exact heavy ▸ optimal.greatest [2, 0]
    ⟨⟨2, roots ▸ List.mem_singleton_self 2, rfl⟩, .cons_cons child (.singleton 0)⟩

end Forest

end SpanWeave
