import Mathlib.Data.List.Perm.Subperm
import Mathlib.Data.List.Range
import Mathlib.Logic.Relation
import SpanWeave.Forest.Path
import SpanWeave.Proofs.Forest.Links

set_option autoImplicit false

/-!
# Descent

The walk down a forest from its roots. Where roots, children and parents say the same, the walk
meets every node that can be reached once and after its parent, so that it never fails, and each sum
of durations that is taken on the way is that of a chain from a root.
-/
namespace SpanWeave.Forest

inductive Reaches (f : Forest) : Nat → Prop
  | root {i : Nat} (member : i ∈ f.roots) : f.Reaches i
  | child {i j : Nat} (above : f.Reaches i) (member : j ∈ f.childrenOf i) : f.Reaches j

def ParentOf (f : Forest) (i j : Nat) : Prop := ∃ n, f.node? i = some n ∧ n.parent = some j

/-- The nodes from a root down to a node take so long together. -/
inductive Chain (f : Forest) : Nat → Nanos → Prop
  | root {i : Nat} {n : Node} (at_i : f.node? i = some n) (top : n.parent = none) :
      f.Chain i n.duration
  | step {i p : Nat} {n : Node} {sum : Nanos} (at_i : f.node? i = some n)
      (below : n.parent = some p) (above : f.Chain p sum) : f.Chain i (sum + n.duration)

def ParentSeen (f : Forest) (before : List Nat) (i : Nat) : Prop :=
  ∃ n, f.node? i = some n ∧ ∀ p, n.parent = some p → p ∈ before

def ParentsFirst (f : Forest) (order : List Nat) : Prop :=
  ∀ before i after, order = before ++ i :: after → f.ParentSeen before i

theorem ParentSeen.mono {f : Forest} {before before' : List Nat} {i : Nat}
    (h : f.ParentSeen before i) (more : before ⊆ before') : f.ParentSeen before' i := by
  obtain ⟨n, at_i, parent⟩ := h
  exact ⟨n, at_i, fun p eq => more (parent p eq)⟩

theorem ParentSeen.lt {f : Forest} {before : List Nat} {i : Nat} (h : f.ParentSeen before i) :
    i < f.nodes.size := by
  obtain ⟨n, at_i, _⟩ := h
  exact (Array.getElem?_eq_some_iff.mp at_i).1

theorem ParentsFirst.mem {f : Forest} {order : List Nat} (h : f.ParentsFirst order) {i : Nat}
    (member : i ∈ order) : f.ParentSeen order i := by
  obtain ⟨before, after, rfl⟩ := List.append_of_mem member
  exact (h before i after rfl).mono (List.subset_append_left _ _)

theorem ParentsFirst.concat {f : Forest} {order : List Nat} {i : Nat} (h : f.ParentsFirst order)
    (last : f.ParentSeen order i) : f.ParentsFirst (order ++ [i]) := by
  intro before j after eq
  rcases List.eq_nil_or_concat after with rfl | ⟨rest, last', rfl⟩
  · obtain ⟨rfl, same⟩ := List.append_inj' eq rfl
    cases same
    exact last
  · rw [List.concat_eq_append, ← List.cons_append, ← List.append_assoc] at eq
    obtain ⟨rfl, _⟩ := List.append_inj' eq rfl
    exact h before j rest rfl

/-- Where the walk stands: the nodes in `order` were met, the last one first, and those on the
stack come next. -/
structure Walk (f : Forest) (seen : Array Bool) (order stack : List Nat) : Prop where
  seen : ∀ i < f.nodes.size, seen[i]? = some (decide (i ∈ order))
  fresh : ∀ i ∈ stack, i ∉ order
  distinct : order.Nodup
  once : stack.Nodup
  next : ∀ i ∈ stack, f.ParentSeen order i
  first : f.ParentsFirst order.reverse
  reached : ∀ i ∈ order ++ stack, f.Reaches i
  roots : ∀ i ∈ f.roots, i ∈ order ++ stack
  children : ∀ i ∈ order, ∀ j ∈ f.childrenOf i, j ∈ order ++ stack

namespace Walk
variable {f : Forest} {seen : Array Bool} {order stack : List Nat}

theorem start (linked : f.Linked) :
    f.Walk (Array.replicate f.nodes.size false) [] f.roots where
  seen i inside := by
    rw [Array.getElem?_replicate, if_pos inside]
    rfl
  fresh _ _ := List.not_mem_nil
  distinct := List.nodup_nil
  once := linked.nodup_roots
  next i member := by
    obtain ⟨n, at_i, top⟩ := (linked.roots i).mp member
    exact ⟨n, at_i, fun p eq => by rw [top] at eq; cases eq⟩
  first before i after eq := by simp at eq
  reached i member := .root member
  roots i member := member
  children i member := absurd member List.not_mem_nil

/-- A node that was met, or comes next, is below none that was not met. -/
theorem parentSeen (h : f.Walk seen order stack) {i : Nat} (member : i ∈ order ++ stack) :
    f.ParentSeen order i := by
  rcases List.mem_append.mp member with met | next
  · exact (h.first.mem (List.mem_reverse.mpr met)).mono (List.reverse_subset.mpr
      (List.Subset.refl _))
  · exact h.next i next

theorem not_child (h : f.Walk seen order stack) (linked : f.Linked) {i j : Nat} (unmet : i ∉ order)
    (child : j ∈ f.childrenOf i) : j ∉ order ++ stack := by
  intro member
  obtain ⟨n, at_j, parent⟩ := h.parentSeen member
  obtain ⟨n', at_j', below⟩ := (linked.children i j).mp child
  cases at_j.symm.trans at_j'
  exact unmet (parent i below)

theorem length_lt (h : f.Walk seen order stack) {i : Nat} (member : i ∈ stack) :
    order.length < f.nodes.size := by
  have distinct : (i :: order).Nodup := List.nodup_cons.mpr ⟨h.fresh i member, h.distinct⟩
  have inside : (i :: order) ⊆ List.range f.nodes.size := by
    intro j met
    refine List.mem_range.mpr (h.parentSeen (i := j) ?_).lt
    rcases List.mem_cons.mp met with rfl | met
    · exact List.mem_append_right _ member
    · exact List.mem_append_left _ met
  have fits := (distinct.subperm inside).length_le
  rwa [List.length_range] at fits

theorem step (linked : f.Linked) {i : Nat} (h : f.Walk seen order (i :: stack)) :
    f.Walk (seen.setIfInBounds i true) (i :: order) (f.childrenOf i ++ stack) := by
  have here : i ∈ i :: stack := List.mem_cons_self
  have unmet := h.fresh i here
  have below : ∀ j ∈ f.childrenOf i, j ∉ order ++ (i :: stack) := fun j => h.not_child linked unmet
  have others : ∀ j ∈ order ++ (i :: stack), j ∈ (i :: order) ++ (f.childrenOf i ++ stack) := by
    intro j member
    simp only [List.mem_append, List.mem_cons] at member ⊢
    tauto
  have known : ∀ j ∈ i :: order, j ∈ order ++ (i :: stack) := by
    intro j met
    rcases List.mem_cons.mp met with rfl | met
    · exact List.mem_append_right _ here
    · exact List.mem_append_left _ met
  have children : ∀ j ∈ f.childrenOf i, f.ParentSeen (i :: order) j := by
    intro j child
    obtain ⟨n, at_j, parent⟩ := (linked.children i j).mp child
    refine ⟨n, at_j, fun p eq => ?_⟩
    rw [parent] at eq
    exact Option.some.inj eq ▸ List.mem_cons_self
  have apart : (f.childrenOf i).Disjoint stack := fun j child next =>
    below j child (List.mem_append_right _ (List.mem_cons_of_mem _ next))
  refine ⟨fun j inside => ?_, fun j next met => ?_, List.nodup_cons.mpr ⟨unmet, h.distinct⟩,
    List.nodup_append'.mpr ⟨linked.nodup_children i, (List.nodup_cons.mp h.once).2, apart⟩,
    fun j next => ?_, ?_, fun j member => ?_, fun j root => others j (h.roots j root),
    fun j met k child => ?_⟩
  · by_cases same : i = j
    · subst same
      have inBounds := (Array.getElem?_eq_some_iff.mp (h.seen i inside)).1
      rw [Array.getElem?_setIfInBounds_self_of_lt inBounds, decide_eq_true List.mem_cons_self]
    · rw [Array.getElem?_setIfInBounds_ne same, h.seen j inside]
      simp only [List.mem_cons, Ne.symm same, false_or]
  · rcases List.mem_append.mp next with child | later
    · exact below j child (known j met)
    · rcases List.mem_cons.mp met with rfl | met
      · exact (List.nodup_cons.mp h.once).1 later
      · exact h.fresh j (List.mem_cons_of_mem _ later) met
  · rcases List.mem_append.mp next with child | later
    · exact children j child
    · exact (h.next j (List.mem_cons_of_mem _ later)).mono (List.subset_cons_self _ _)
  · rw [List.reverse_cons]
    exact h.first.concat ((h.next i here).mono fun _ => List.mem_reverse.mpr)
  · rcases List.mem_append.mp member with met | next
    · exact h.reached j (known j met)
    · rcases List.mem_append.mp next with child | later
      · exact .child (h.reached i (List.mem_append_right _ here)) child
      · exact h.reached j (List.mem_append_right _ (List.mem_cons_of_mem _ later))
  · rcases List.mem_cons.mp met with rfl | met
    · exact List.mem_append_right _ (List.mem_append_left _ child)
    · exact others k (h.children j met k child)

/-- The walk comes to an end: each step meets one more node. -/
theorem visit (linked : f.Linked) (fuel : Nat) (h : f.Walk seen order stack)
    (enough : f.nodes.size < fuel + order.length) :
    ∃ seen' order', f.visit fuel seen order stack = .ok order'.reverse ∧
      f.Walk seen' order' [] := by
  induction fuel generalizing seen order stack with
  | zero =>
    cases stack with
    | nil => exact ⟨seen, order, rfl, h⟩
    | cons i stack =>
      have fewer := h.length_lt (i := i) List.mem_cons_self
      omega
  | succ fuel ih =>
    cases stack with
    | nil => exact ⟨seen, order, rfl, h⟩
    | cons i stack =>
      have here : i ∈ i :: stack := List.mem_cons_self
      have unseen : seen[i]? = some false := by
        rw [h.seen i (h.next i here).lt, decide_eq_false (h.fresh i here)]
      rw [Forest.visit, unseen]
      refine ih (h.step linked) ?_
      rw [List.length_cons]
      omega

end Walk

structure Descends (f : Forest) (order : List Nat) : Prop where
  distinct : order.Nodup
  reached : ∀ i, i ∈ order ↔ f.Reaches i
  first : f.ParentsFirst order

theorem Linked.preorder {f : Forest} (linked : f.Linked) :
    ∃ order, f.preorder = .ok order ∧ f.Descends order := by
  obtain ⟨seen, order, walked, h⟩ := (Walk.start linked).visit linked (f.nodes.size + 1)
    (Nat.lt_succ_self _)
  refine ⟨order.reverse, walked, List.nodup_reverse.mpr h.distinct, fun i => ?_, h.first⟩
  rw [List.mem_reverse]
  constructor
  · exact fun met => h.reached i (List.mem_append_left _ met)
  · intro reached
    induction reached with
    | root member => exact List.append_nil order ▸ h.roots _ member
    | child _ member ih => exact List.append_nil order ▸ h.children _ ih _ member

/-! ## Sums of durations -/

structure Summed (f : Forest) (before : List Nat) (sums : Sums) : Prop where
  met : ∀ i ∈ before, ∃ sum n, f.node? i = some n ∧ sums[i]? = some (sum, n.parent)
  sound : ∀ i sum above, sums[i]? = some (sum, above) → i ∈ before ∧ f.Chain i sum

theorem Summed.add {f : Forest} {before : List Nat} {sums : Sums} (h : f.Summed before sums)
    {i : Nat} (seen : f.ParentSeen before i) : f.Summed (before ++ [i]) (f.addSum sums i) := by
  obtain ⟨n, at_i, parent⟩ := seen
  -- the sum of the parent is there already, so the node is put under it
  have added : ∃ sum, f.addSum sums i = sums.insert i (sum, n.parent) ∧ f.Chain i sum := by
    unfold addSum
    rw [at_i]
    dsimp only
    cases top : n.parent with
    | none => exact ⟨_, rfl, by simpa using Chain.root at_i top⟩
    | some p =>
      obtain ⟨sum, m, _, known⟩ := h.met p (parent p top)
      have present : sums.contains p = true := by
        rw [Std.ExtTreeMap.contains_eq_isSome_getElem?, known]
        rfl
      refine ⟨sum + n.duration, ?_, .step at_i top (h.sound p sum _ known).2⟩
      simp only [Option.filter_some, present, Bool.or_true, ↓reduceIte, Option.bind_some, known,
        Option.map_some, Option.getD_some]
  obtain ⟨sum, eq, chain⟩ := added
  rw [eq]
  refine ⟨fun j member => ?_, fun j total above known => ?_⟩
  · rw [Std.ExtTreeMap.getElem?_insert]
    split
    · rename_i same
      obtain rfl := Std.LawfulEqCmp.eq_of_compare same
      exact ⟨sum, n, at_i, rfl⟩
    · rename_i other
      rcases List.mem_append.mp member with old | new
      · exact h.met j old
      · rw [List.mem_singleton.mp new] at other
        exact absurd Std.ReflCmp.compare_self other
  · rw [Std.ExtTreeMap.getElem?_insert] at known
    split at known
    · rename_i same
      obtain rfl := Std.LawfulEqCmp.eq_of_compare same
      cases known
      exact ⟨List.mem_append_right _ (List.mem_singleton_self _), chain⟩
    · exact ⟨List.mem_append_left _ (h.sound j total above known).1,
        (h.sound j total above known).2⟩

theorem ParentsFirst.of_append {f : Forest} {order later : List Nat}
    (h : f.ParentsFirst (order ++ later)) : f.ParentsFirst order := by
  rintro before i after rfl
  exact h before i (after ++ later) (by rw [List.append_assoc, List.cons_append])

/-- Every sum that is taken on the way down is that of a chain. -/
theorem ParentsFirst.summed {f : Forest} {order : List Nat} (h : f.ParentsFirst order) :
    f.Summed order (order.foldl f.addSum ∅) := by
  induction order using List.reverseRecOn with
  | nil =>
    refine ⟨fun i none => absurd none List.not_mem_nil, fun i sum above known => ?_⟩
    rw [List.foldl_nil, Std.ExtTreeMap.getElem?_empty] at known
    cases known
  | append_singleton order i ih =>
    rw [List.foldl_append]
    exact (ih h.of_append).add (h order i [] rfl)

theorem heaviest?_mem {sums : Sums} {order : List Nat}
    (known : ∀ i ∈ order, ∃ x, sums[i]? = some x) :
    (heaviest? sums order = none → order = []) ∧
      ∀ best, heaviest? sums order = some best → best.1 ∈ order := by
  induction order using List.reverseRecOn with
  | nil => exact ⟨fun _ => rfl, fun _ none => by cases none⟩
  | append_singleton order i ih =>
    have last : i ∈ order ++ [i] := List.mem_append_right _ (List.mem_singleton_self i)
    obtain ⟨⟨sum, above⟩, at_i⟩ := known i last
    obtain ⟨-, member⟩ := ih fun j before => known j (List.mem_append_left _ before)
    unfold heaviest? at member ⊢
    rw [List.foldl_append, List.foldl_cons, List.foldl_nil, at_i]
    generalize order.foldl _ none = best at member ⊢
    cases best with
    | none => exact ⟨nofun, fun best eq => by cases eq; exact last⟩
    | some best =>
      dsimp only
      have old := List.mem_append_left [i] (member best rfl)
      split
      · exact ⟨nofun, fun _ eq => by cases eq; exact old⟩
      · exact ⟨nofun, fun _ eq => by cases eq; exact last⟩

/-- The way up from a node is no longer than what was met before it. -/
theorem ancestry_of_summed {f : Forest} {order : List Nat} (h : f.ParentsFirst order)
    {sums : Sums} (summed : f.Summed order sums) (fuel : Nat) {before after : List Nat} {i : Nat}
    (eq : order = before ++ i :: after) (enough : before.length < fuel) :
    ∃ up, ancestry sums fuel i = some up := by
  induction fuel generalizing before after i with
  | zero => exact absurd enough (Nat.not_lt_zero _)
  | succ fuel ih =>
    obtain ⟨n, at_i, parent⟩ := h before i after eq
    have member : i ∈ order := by
      rw [eq]
      exact List.mem_append_right _ List.mem_cons_self
    obtain ⟨sum, m, at_i', known⟩ := summed.met i member
    cases at_i.symm.trans at_i'
    rw [ancestry, known, Option.bind_some]
    dsimp only
    cases top : n.parent with
    | none => exact ⟨[i], rfl⟩
    | some p =>
      obtain ⟨before', after', rfl⟩ := List.append_of_mem (parent p top)
      have shorter : before'.length < fuel := by
        rw [List.length_append, List.length_cons] at enough
        omega
      obtain ⟨up, found⟩ := ih (by rw [eq, List.append_assoc, List.cons_append]) shorter
      exact ⟨i :: up, by dsimp only; rw [found]; rfl⟩

theorem Linked.criticalPath {f : Forest} (linked : f.Linked)
    (rooted : f.nodes ≠ #[] → f.roots ≠ []) : ∃ path, f.criticalPath = .ok path := by
  unfold Forest.criticalPath
  split
  · exact ⟨_, rfl⟩
  · rename_i nonempty
    obtain ⟨order, walked, descends⟩ := linked.preorder
    have summed := descends.first.summed
    have met : order ≠ [] := by
      obtain ⟨root, rest, roots⟩ := List.exists_cons_of_ne_nil (rooted fun empty => nonempty
        (Array.isEmpty_iff.mpr empty))
      exact List.ne_nil_of_mem ((descends.reached root).mpr (.root (roots ▸ List.mem_cons_self)))
    obtain ⟨some, inOrder⟩ := heaviest?_mem fun i member => by
      obtain ⟨sum, n, _, known⟩ := summed.met i member
      exact ⟨_, known⟩
    obtain ⟨⟨last, total⟩, heaviest⟩ := Option.ne_none_iff_exists'.mp (mt some met)
    obtain ⟨before, after, eq⟩ := List.append_of_mem (inOrder _ heaviest)
    have short : before.length < f.nodes.size + 1 := by
      have inside : order ⊆ List.range f.nodes.size := fun i member =>
        List.mem_range.mpr (descends.first.mem member).lt
      have fits := (descends.distinct.subperm inside).length_le
      rw [List.length_range, eq, List.length_append] at fits
      omega
    obtain ⟨up, ancestors⟩ := ancestry_of_summed descends.first summed _ eq short
    rw [walked]
    dsimp only [bind, Except.bind]
    rw [heaviest]
    dsimp only
    rw [ancestors]
    exact ⟨_, rfl⟩

/-! ## Ranked links -/

def Ranked (f : Forest) (rank : Nat → Nat) : Prop :=
  ∀ i p, f.ParentOf i p → rank p < rank i

theorem Ranked.acyclic {f : Forest} {rank : Nat → Nat} (h : f.Ranked rank) (i : Nat) :
    ¬ Relation.TransGen f.ParentOf i i := by
  have less : ∀ j, Relation.TransGen f.ParentOf i j → rank j < rank i := by
    intro j above
    induction above with
    | single up => exact h _ _ up
    | tail _ up ih => exact Nat.lt_trans (h _ _ up) ih
  exact fun cycle => absurd (less i cycle) (Nat.lt_irrefl _)

theorem Ranked.reaches {f : Forest} {rank : Nat → Nat} (h : f.Ranked rank) (linked : f.Linked)
    {i : Nat} (inside : i < f.nodes.size) : f.Reaches i := by
  obtain ⟨n, at_i⟩ : ∃ n, f.node? i = some n := ⟨_, Array.getElem?_eq_getElem inside⟩
  induction rank_eq : rank i using Nat.strongRecOn generalizing i n with
  | ind r ih =>
    cases top : n.parent with
    | none => exact .root ((linked.roots i).mpr ⟨n, at_i, top⟩)
    | some p =>
      have child := (linked.children p i).mpr ⟨n, at_i, top⟩
      have present : ∃ m, f.node? p = some m := by
        cases at_p : f.node? p with
        | none =>
          rw [childrenOf, at_p] at child
          exact absurd child List.not_mem_nil
        | some m => exact ⟨m, rfl⟩
      obtain ⟨m, at_p⟩ := present
      have less := h i p ⟨n, at_i, top⟩
      rw [rank_eq] at less
      exact .child (ih _ less (Array.getElem?_eq_some_iff.mp at_p).1 m at_p rfl) child

theorem Reaches.rooted {f : Forest} {i : Nat} (h : f.Reaches i) : f.roots ≠ [] := by
  induction h with
  | root member => exact List.ne_nil_of_mem member
  | child _ _ ih => exact ih

theorem Ranked.rooted {f : Forest} {rank : Nat → Nat} (h : f.Ranked rank) (linked : f.Linked)
    (nonempty : f.nodes ≠ #[]) : f.roots ≠ [] :=
  (h.reaches linked (Nat.pos_of_ne_zero fun zero =>
    nonempty (Array.eq_empty_of_size_eq_zero zero))).rooted

end SpanWeave.Forest
