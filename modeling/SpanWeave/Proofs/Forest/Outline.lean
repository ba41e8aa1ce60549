import Mathlib.Data.List.Nodup
import Mathlib.Data.List.Perm.Subperm
import Mathlib.Data.List.Range
import SpanWeave.Forest.Path

set_option autoImplicit false

/-!
# Outlines

The order in which a forest is written down from its roots, a node before what is below it and that
before the next sibling. On any forest, also a malformed one, the walk with a stack comes to an end;
where it succeeds it has written that order, and has met each node once.
-/
namespace SpanWeave.Forest

/-- Siblings with all that is below them, in depth-first order. -/
inductive Outline (f : Forest) : List Nat → List Nat → Prop
  | nil : f.Outline [] []
  | cons {i : Nat} {siblings below later : List Nat} (down : f.Outline (f.childrenOf i) below)
      (across : f.Outline siblings later) : f.Outline (i :: siblings) (i :: (below ++ later))

namespace Outline
variable {f : Forest} {siblings order : List Nat}

theorem unique (h : f.Outline siblings order) {order' : List Nat}
    (h' : f.Outline siblings order') : order = order' := by
  induction h generalizing order' with
  | nil =>
    cases h'
    rfl
  | cons _ _ down across =>
    cases h' with
    | cons down' across' => rw [down down', across across']

theorem of_append {first second : List Nat} (h : f.Outline (first ++ second) order) :
    ∃ left right, order = left ++ right ∧ f.Outline first left ∧ f.Outline second right := by
  induction first generalizing order with
  | nil => exact ⟨[], order, rfl, .nil, h⟩
  | cons i first ih =>
    cases h with
    | @cons _ _ below _ down across =>
      obtain ⟨left, right, rfl, h₁, h₂⟩ := ih across
      exact ⟨i :: (below ++ left), right, by rw [List.cons_append, List.append_assoc],
        .cons down h₁, h₂⟩

end Outline

structure Met (f : Forest) (seen : Array Bool) (order : List Nat) : Prop where
  size : seen.size = f.nodes.size
  seen : ∀ i < f.nodes.size, seen[i]? = some (decide (i ∈ order))
  inside : ∀ i ∈ order, i < f.nodes.size
  distinct : order.Nodup

namespace Met
variable {f : Forest} {seen : Array Bool} {order : List Nat}

theorem start (f : Forest) : f.Met (Array.replicate f.nodes.size false) [] where
  size := Array.size_replicate
  seen i inside := by
    rw [Array.getElem?_replicate, if_pos inside]
    rfl
  inside _ absent := absurd absent List.not_mem_nil
  distinct := List.nodup_nil

theorem unseen (h : f.Met seen order) {i : Nat} (fresh : seen[i]? = some false) :
    i < f.nodes.size ∧ i ∉ order := by
  have inside : i < f.nodes.size := h.size ▸ (Array.getElem?_eq_some_iff.mp fresh).1
  refine ⟨inside, fun met => ?_⟩
  rw [h.seen i inside, decide_eq_true met] at fresh
  cases fresh

theorem step (h : f.Met seen order) {i : Nat} (fresh : seen[i]? = some false) :
    f.Met (seen.setIfInBounds i true) (i :: order) := by
  obtain ⟨inside, unmet⟩ := h.unseen fresh
  refine ⟨(Array.size_setIfInBounds ..).trans h.size, fun j bound => ?_,
    List.forall_mem_cons.mpr ⟨inside, h.inside⟩, List.nodup_cons.mpr ⟨unmet, h.distinct⟩⟩
  by_cases same : i = j
  · subst same
    rw [Array.getElem?_setIfInBounds_self_of_lt (h.size ▸ inside),
      decide_eq_true List.mem_cons_self]
  · rw [Array.getElem?_setIfInBounds_ne same, h.seen j bound]
    simp only [List.mem_cons, Ne.symm same, false_or]

theorem length_le (h : f.Met seen order) : order.length ≤ f.nodes.size := by
  have fits := (h.distinct.subperm fun i met => List.mem_range.mpr (h.inside i met)).length_le
  rwa [List.length_range] at fits

/-- Each step meets one more node, so the fuel lasts. -/
theorem visit_ne_endless (h : f.Met seen order) {fuel : Nat} {stack : List Nat}
    (enough : f.nodes.size < fuel + order.length) :
    f.visit fuel seen order stack ≠ .error .endless := by
  induction fuel generalizing seen order stack with
  | zero =>
    have most := h.length_le
    omega
  | succ fuel ih =>
    cases stack with
    | nil => exact nofun
    | cons i stack =>
      rw [visit]
      split
      · exact nofun
      · exact nofun
      · rename_i fresh
        refine ih (h.step fresh) ?_
        rw [List.length_cons]
        omega

theorem outline_of_visit (h : f.Met seen order) {fuel : Nat} {stack result : List Nat}
    (walked : f.visit fuel seen order stack = .ok result) :
    (∃ rest, f.Outline stack rest ∧ result = order.reverse ++ rest) ∧
      ∃ seen', f.Met seen' result.reverse := by
  fun_induction f.visit fuel seen order stack with
  | case1 fuel seen order =>
    cases walked
    exact ⟨⟨[], .nil, (List.append_nil _).symm⟩, seen, by rwa [List.reverse_reverse]⟩
  | case2 => cases walked
  | case3 => cases walked
  | case4 => cases walked
  | case5 seen order fuel i stack fresh ih =>
    obtain ⟨⟨rest, outline, eq⟩, met⟩ := ih (h.step fresh) walked
    obtain ⟨below, later, rfl, down, across⟩ := outline.of_append
    refine ⟨⟨i :: (below ++ later), .cons down across, ?_⟩, met⟩
    rw [eq, List.reverse_cons, List.append_assoc, List.singleton_append]

end Met

theorem preorder_ne_endless (f : Forest) : f.preorder ≠ .error .endless :=
  (Met.start f).visit_ne_endless (Nat.lt_succ_self _)

/-- Where the walk succeeds it has written the outline from the roots, every node once. -/
theorem outline_of_preorder {f : Forest} {order : List Nat} (walked : f.preorder = .ok order) :
    f.Outline f.roots order ∧ order.Nodup ∧ ∀ i ∈ order, ∃ n, f.node? i = some n := by
  obtain ⟨⟨rest, outline, eq⟩, seen, met⟩ := (Met.start f).outline_of_visit walked
  rw [List.reverse_nil, List.nil_append] at eq
  subst eq
  refine ⟨outline, List.nodup_reverse.mp met.distinct, fun i member => ?_⟩
  exact ⟨_, Array.getElem?_eq_getElem (met.inside i (List.mem_reverse.mpr member))⟩

end SpanWeave.Forest
