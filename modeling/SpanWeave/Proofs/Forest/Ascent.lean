import Mathlib.Data.List.Nodup
import Mathlib.Logic.Relation
import SpanWeave.Proofs.Forest.Descent
import SpanWeave.Proofs.Forest.Outline

set_option autoImplicit false

/-!
# Ascent

How the path is read off upwards, on any forest. A node goes to its parent where the parent was met
before it, so the way up ends. The only other parent that a node goes to is itself: a node that is
its own parent is gone up from for ever, and this is the only way in which the search does not end.
-/
namespace SpanWeave

namespace Forest

def durationOf (f : Forest) (i : Nat) : Nanos := ((f.node? i).map Node.duration).getD 0

def weight (f : Forest) : List Nat → Nanos
  | [] => 0
  | i :: is => f.durationOf i + f.weight is

theorem weight_append (f : Forest) (is js : List Nat) :
    f.weight (is ++ js) = f.weight is + f.weight js := by
  induction is with
  | nil => exact (Nat.zero_add _).symm
  | cons i is ih => rw [List.cons_append, weight, weight, ih, Nat.add_assoc]

theorem weight_reverse (f : Forest) (is : List Nat) : f.weight is.reverse = f.weight is := by
  induction is with
  | nil => rfl
  | cons i is ih =>
    rw [List.reverse_cons, weight_append, ih, weight, weight, weight, Nat.add_zero, Nat.add_comm]

theorem durationOf_eq {f : Forest} {i : Nat} {n : Node} (at_i : f.node? i = some n) :
    f.durationOf i = n.duration := by
  rw [durationOf, at_i]
  rfl

theorem ParentOf.unique {f : Forest} {i p q : Nat} (h : f.ParentOf i p) (h' : f.ParentOf i q) :
    p = q := by
  obtain ⟨n, at_i, up⟩ := h
  obtain ⟨n', at_i', up'⟩ := h'
  cases at_i.symm.trans at_i'
  exact Option.some.inj (up.symm.trans up')

theorem parentOf_iff {f : Forest} {i p : Nat} {n : Node} (at_i : f.node? i = some n) :
    f.ParentOf i p ↔ n.parent = some p := by
  constructor
  · rintro ⟨n', at_i', up⟩
    cases at_i.symm.trans at_i'
    exact up
  · exact fun up => ⟨n, at_i, up⟩

/-- The parent of a node, met before the node. -/
structure Above (f : Forest) (order : List Nat) (i p : Nat) : Prop where
  parent : f.ParentOf i p
  earlier : order.idxOf p < order.idxOf i

namespace Above
variable {f : Forest} {order : List Nat} {i p : Nat}

theorem mem (h : f.Above order i p) : p ∈ order :=
  List.idxOf_lt_length_iff.mp (Nat.lt_of_lt_of_le h.earlier List.idxOf_le_length)

theorem concat_of_mem {j : Nat} (member : i ∈ order) :
    f.Above (order ++ [j]) i p ↔ f.Above order i p := by
  have same : ∀ k ∈ order, (order ++ [j]).idxOf k = order.idxOf k := fun k member => by
    rw [List.idxOf_append, if_pos member]
  constructor
  · intro h
    have early : p ∈ order := by
      have less := h.earlier
      rw [same i member] at less
      by_contra late
      rw [List.idxOf_append, if_neg late] at less
      have bound := List.idxOf_lt_length_iff.mpr member
      omega
    exact ⟨h.parent, by simpa only [same i member, same p early] using h.earlier⟩
  · exact fun h => ⟨h.parent, by simpa only [same i member, same p h.mem] using h.earlier⟩

theorem concat_self (fresh : i ∉ order) :
    f.Above (order ++ [i]) i p ↔ f.ParentOf i p ∧ p ∈ order := by
  have last : (order ++ [i]).idxOf i = order.length := by
    rw [List.idxOf_append, if_neg fresh, List.idxOf_cons_self]
    exact Nat.zero_add _
  constructor
  · intro h
    refine ⟨h.parent, ?_⟩
    have less := h.earlier
    rw [last] at less
    by_contra late
    rw [List.idxOf_append, if_neg late] at less
    omega
  · rintro ⟨parent, early⟩
    refine ⟨parent, ?_⟩
    rw [last, List.idxOf_append, if_pos early]
    exact List.idxOf_lt_length_iff.mpr early

end Above

/-! ## Sums on any forest -/

/-- What the sums say after the nodes in `order`. -/
structure Inherits (f : Forest) (order : List Nat) (sums : Sums) : Prop where
  met : ∀ i, sums.contains i = true ↔ i ∈ order
  under : ∀ i ∈ order, ∀ p, f.Above order i p → ∃ sum above,
    sums[p]? = some (sum, above) ∧ sums[i]? = some (f.durationOf i + sum, some p)
  own : ∀ i ∈ order, f.ParentOf i i → ∃ sum, sums[i]? = some (sum, some i)
  top : ∀ i ∈ order, (∀ p, f.ParentOf i p → p ≠ i ∧ ¬ f.Above order i p) →
    sums[i]? = some (f.durationOf i, none)

theorem addSum_eq {f : Forest} {sums : Sums} {i : Nat} {n : Node} (at_i : f.node? i = some n) :
    f.addSum sums i = sums.insert i
      (((n.parent.bind (sums[·]?)).map (·.1)).getD 0 + n.duration,
        n.parent.filter fun p => p == i || sums.contains p) := by
  rw [addSum, at_i]

theorem Inherits.add {f : Forest} {order : List Nat} {sums : Sums} (h : f.Inherits order sums)
    {i : Nat} {n : Node} (at_i : f.node? i = some n) (fresh : i ∉ order) :
    f.Inherits (order ++ [i]) (f.addSum sums i) := by
  rw [addSum_eq at_i]
  have old : ∀ j ∈ order, ∀ x : Nanos × Option Nat, (sums.insert i x)[j]? = sums[j]? := by
    intro j member x
    rw [Std.ExtTreeMap.getElem?_insert, if_neg]
    intro same
    exact fresh (Std.LawfulEqCmp.eq_of_compare same ▸ member)
  have absent : sums.contains i = false := Bool.eq_false_iff.mpr (mt (h.met i).mp fresh)
  have each : ∀ {P : Nat → Prop}, (∀ j ∈ order, P j) → P i → ∀ j ∈ order ++ [i], P j := by
    intro P before last j member
    rcases List.mem_append.mp member with member | new
    · exact before j member
    · exact List.mem_singleton.mp new ▸ last
  refine ⟨fun j => ?_, each (fun j member p above => ?_) fun p above => ?_,
    each (fun j member own => ?_) fun own => ?_, each (fun j member top => ?_) fun top => ?_⟩
  · rw [Std.ExtTreeMap.contains_insert, Bool.or_eq_true, h.met, List.mem_append,
      List.mem_singleton, beq_iff_eq, Std.LawfulEqCmp.compare_eq_iff_eq, or_comm, eq_comm]
  · obtain ⟨sum, up, at_p, at_j⟩ := h.under j member p ((Above.concat_of_mem member).mp above)
    exact ⟨sum, up, (old p ((Above.concat_of_mem member).mp above).mem _).trans at_p,
      (old j member _).trans at_j⟩
  · obtain ⟨parent, early⟩ := (Above.concat_self fresh).mp above
    have found := (h.met p).mpr early
    obtain ⟨⟨sum, up⟩, at_p⟩ : ∃ x, sums[p]? = some x := by
      rwa [Std.ExtTreeMap.contains_eq_isSome_getElem?, Option.isSome_iff_exists] at found
    refine ⟨sum, up, (old p early _).trans at_p, ?_⟩
    rw [Std.ExtTreeMap.getElem?_insert_self, (parentOf_iff at_i).mp parent, Option.bind_some, at_p,
      Option.filter_some, found, Bool.or_true, if_pos rfl, durationOf_eq at_i, Nat.add_comm]
    rfl
  · obtain ⟨sum, at_j⟩ := h.own j member own
    exact ⟨sum, (old j member _).trans at_j⟩
  · rw [Std.ExtTreeMap.getElem?_insert_self, (parentOf_iff at_i).mp own, Option.filter_some,
      beq_self_eq_true, Bool.true_or, if_pos rfl]
    exact ⟨_, rfl⟩
  · refine (old j member _).trans (h.top j member fun p parent => ?_)
    exact ⟨(top p parent).1, fun above => (top p parent).2 ((Above.concat_of_mem member).mpr above)⟩
  · rw [Std.ExtTreeMap.getElem?_insert_self, durationOf_eq at_i]
    cases parent : n.parent with
    | none => rw [Option.bind_none, Option.filter_none, Option.map_none, Option.getD_none,
        Nat.zero_add]
    | some p =>
      obtain ⟨other, late⟩ := top p ((parentOf_iff at_i).mpr parent)
      have unmet : p ∉ order := fun early =>
        late ((Above.concat_self fresh).mpr ⟨(parentOf_iff at_i).mpr parent, early⟩)
      have unknown : sums.contains p = false := Bool.eq_false_iff.mpr (mt (h.met p).mp unmet)
      rw [Option.bind_some, Std.ExtTreeMap.getElem?_eq_none_of_contains_eq_false unknown,
        Option.filter_some, unknown, beq_false_of_ne other, Bool.false_or,
        if_neg Bool.false_ne_true, Option.map_none, Option.getD_none, Nat.zero_add]

theorem inherits {f : Forest} {order : List Nat} (distinct : order.Nodup)
    (present : ∀ i ∈ order, ∃ n, f.node? i = some n) :
    f.Inherits order (order.foldl f.addSum ∅) := by
  induction order using List.reverseRecOn with
  | nil =>
    refine ⟨fun i => ?_, ?_, ?_, ?_⟩
    · rw [List.foldl_nil, Std.ExtTreeMap.contains_empty]
      exact ⟨nofun, fun absent => absurd absent List.not_mem_nil⟩
    all_goals exact List.forall_mem_nil _
  | append_singleton order i ih =>
    obtain ⟨before, _, apart⟩ := List.nodup_append'.mp distinct
    obtain ⟨n, at_i⟩ := present i (List.mem_append_right _ (List.mem_singleton_self i))
    rw [List.foldl_append]
    exact (ih before fun j member => present j (List.mem_append_left _ member)).add at_i
      fun member => apart member (List.mem_singleton_self i)

/-! ## The way up -/

/-- The nodes from a node upwards, each met before the last one, as far as this goes. -/
inductive Climb (f : Forest) (order : List Nat) : Nat → List Nat → Prop
  | top {i : Nat} (none : ∀ p, f.ParentOf i p → p ≠ i ∧ ¬ f.Above order i p) : f.Climb order i [i]
  | step {i p : Nat} {up : List Nat} (above : f.Above order i p) (rest : f.Climb order p up) :
      f.Climb order i (i :: up)

/-- A node that is its own parent is above the node, or is the node. -/
def LeadsToOwnParent (f : Forest) (order : List Nat) (i : Nat) : Prop :=
  ∃ j, Relation.ReflTransGen (f.Above order) i j ∧ f.ParentOf j j

theorem climb_or_leads {f : Forest} {order : List Nat} (i : Nat) :
    (∃ up, f.Climb order i up) ∨ f.LeadsToOwnParent order i := by
  induction place : order.idxOf i using Nat.strongRecOn generalizing i with
  | ind k ih =>
    subst place
    by_cases above : ∃ p, f.Above order i p
    · obtain ⟨p, above⟩ := above
      rcases ih _ above.earlier p rfl with ⟨up, climb⟩ | ⟨j, leads, own⟩
      · exact .inl ⟨i :: up, .step above climb⟩
      · exact .inr ⟨j, .head above leads, own⟩
    · by_cases own : f.ParentOf i i
      · exact .inr ⟨i, .refl, own⟩
      · refine .inl ⟨[i], .top fun p parent => ⟨?_, fun h => above ⟨p, h⟩⟩⟩
        rintro rfl
        exact own parent

namespace Climb
variable {f : Forest} {order up : List Nat} {i : Nat}

theorem head (h : f.Climb order i up) : ∃ rest, up = i :: rest := by
  cases h with
  | top => exact ⟨[], rfl⟩
  | step => exact ⟨_, rfl⟩

theorem idxOf_le (h : f.Climb order i up) : ∀ j ∈ up, order.idxOf j ≤ order.idxOf i := by
  induction h with
  | top => exact List.forall_mem_singleton.mpr (Nat.le_refl _)
  | step above _ ih =>
    refine List.forall_mem_cons.mpr ⟨Nat.le_refl _, fun j member => ?_⟩
    exact Nat.le_trans (ih j member) (Nat.le_of_lt above.earlier)

theorem nodup (h : f.Climb order i up) : up.Nodup := by
  induction h with
  | top => exact List.nodup_singleton _
  | step above rest ih =>
    refine List.nodup_cons.mpr ⟨fun member => ?_, ih⟩
    exact absurd (rest.idxOf_le _ member) (Nat.not_le_of_lt above.earlier)

theorem parents (h : f.Climb order i up) : up.IsChain f.ParentOf := by
  induction h with
  | top => exact .singleton _
  | step above rest ih =>
    obtain ⟨more, rfl⟩ := rest.head
    exact .cons_cons above.parent ih

theorem mem (h : f.Climb order i up) (member : i ∈ order) : ∀ j ∈ up, j ∈ order := by
  induction h with
  | top => exact List.forall_mem_singleton.mpr member
  | step above _ ih => exact List.forall_mem_cons.mpr ⟨member, ih above.mem⟩

theorem last (h : f.Climb order i up) : ∃ t, up.getLast? = some t ∧
    ∀ p, f.ParentOf t p → p ≠ t ∧ ¬ f.Above order t p := by
  induction h with
  | top none => exact ⟨_, rfl, none⟩
  | step _ rest ih =>
    obtain ⟨t, last, none⟩ := ih
    obtain ⟨more, rfl⟩ := rest.head
    exact ⟨t, by rw [List.getLast?_cons_cons, last], none⟩

variable {sums : Sums}

/-- The sum of a node is the weight of the way up from it. -/
theorem sum (h : f.Climb order i up) (inherits : f.Inherits order sums) (member : i ∈ order) :
    ∃ above, sums[i]? = some (f.weight up, above) := by
  induction h with
  | top none => exact ⟨_, inherits.top _ member none⟩
  | step above _ ih =>
    obtain ⟨sum, up, at_p, at_i⟩ := inherits.under _ member _ above
    obtain ⟨up', at_p'⟩ := ih above.mem
    cases at_p.symm.trans at_p'
    exact ⟨_, at_i⟩

theorem ancestry (h : f.Climb order i up) (inherits : f.Inherits order sums) (member : i ∈ order)
    {fuel : Nat} (enough : up.length ≤ fuel) : Forest.ancestry sums fuel i = some up := by
  induction h generalizing fuel with
  | top none =>
    obtain ⟨fuel, rfl⟩ := Nat.exists_eq_add_one_of_ne_zero (Nat.ne_of_gt enough)
    rw [Forest.ancestry, inherits.top _ member none]
    rfl
  | step above _ ih =>
    obtain ⟨fuel, rfl⟩ := Nat.exists_eq_add_one_of_ne_zero
      (Nat.ne_of_gt (Nat.lt_of_lt_of_le (Nat.succ_pos _) enough))
    obtain ⟨_, _, _, at_i⟩ := inherits.under _ member _ above
    rw [Forest.ancestry, at_i, Option.bind_some]
    dsimp only
    rw [ih above.mem (Nat.le_of_succ_le_succ enough)]
    rfl

end Climb

/-- However far the way is followed, it has not come to its end. -/
theorem LeadsToOwnParent.ancestry {f : Forest} {order : List Nat} {sums : Sums} {i : Nat}
    (h : f.LeadsToOwnParent order i) (inherits : f.Inherits order sums) (member : i ∈ order)
    (fuel : Nat) : Forest.ancestry sums fuel i = none := by
  obtain ⟨j, leads, own⟩ := h
  induction leads using Relation.ReflTransGen.head_induction_on generalizing fuel with
  | refl =>
    obtain ⟨sum, at_j⟩ := inherits.own j member own
    induction fuel with
    | zero => rfl
    | succ fuel ih =>
      rw [Forest.ancestry, at_j, Option.bind_some]
      dsimp only
      rw [ih, Option.map_none]
  | head above _ ih =>
    obtain ⟨_, _, _, at_i⟩ := inherits.under _ member _ above
    cases fuel with
    | zero => rfl
    | succ fuel =>
      rw [Forest.ancestry, at_i, Option.bind_some]
      dsimp only
      rw [ih above.mem, Option.map_none]

end Forest

end SpanWeave
