import Mathlib.Order.Bounds.Basic
import SpanWeave.Proofs.Forest.Descent

set_option autoImplicit false

/-!
# Heaviest chains

The total of the critical path is the greatest sum of a chain from a root. It depends on the links
and on the durations of the nodes, and not on the order of siblings, which tells only which one of
several heaviest chains is taken.
-/
namespace SpanWeave.Forest

def chainSums (f : Forest) : Set Nanos := {sum | ∃ i, f.Reaches i ∧ f.Chain i sum}

theorem Chain.unique {f : Forest} {i : Nat} {sum sum' : Nanos} (h : f.Chain i sum)
    (h' : f.Chain i sum') : sum = sum' := by
  induction h generalizing sum' with
  | root at_i top =>
    cases h' with
    | root at_i' =>
      cases at_i.symm.trans at_i'
      rfl
    | step at_i' below =>
      cases at_i.symm.trans at_i'
      rw [top] at below
      cases below
  | step at_i below above ih =>
    cases h' with
    | root at_i' top =>
      cases at_i.symm.trans at_i'
      rw [top] at below
      cases below
    | step at_i' below' above' =>
      cases at_i.symm.trans at_i'
      cases below.symm.trans below'
      rw [ih above']

theorem heaviest?_greatest {sums : Sums} {order : List Nat}
    (known : ∀ i ∈ order, ∃ x, sums[i]? = some x) {best : Nat × Nanos}
    (found : heaviest? sums order = some best) :
    (∃ above, sums[best.1]? = some (best.2, above)) ∧
      ∀ i ∈ order, ∀ sum above, sums[i]? = some (sum, above) → sum ≤ best.2 := by
  induction order using List.reverseRecOn generalizing best with
  | nil => cases found
  | append_singleton order i ih =>
    have before : ∀ j ∈ order, ∃ x, sums[j]? = some x :=
      fun j member => known j (List.mem_append_left _ member)
    obtain ⟨⟨sum, up⟩, at_i⟩ := known i (List.mem_append_right _ (List.mem_singleton_self i))
    have empty := (heaviest?_mem before).1
    have ih := @ih before
    rw [List.forall_mem_append, List.forall_mem_singleton, at_i]
    unfold heaviest? at ih empty found
    rw [List.foldl_append, List.foldl_cons, List.foldl_nil, at_i] at found
    generalize order.foldl _ none = held at ih empty found
    cases held with
    | none =>
      cases found
      rw [empty rfl]
      refine ⟨⟨up, at_i⟩, List.forall_mem_nil _, ?_⟩
      intro sum' above same
      cases same
      exact Nat.le_refl _
    | some b =>
      -- the last node takes the place of the best one only if its chain is heavier
      obtain ⟨own, greatest⟩ := ih rfl
      dsimp only at found
      split at found
      · rename_i lighter
        cases found
        refine ⟨own, greatest, ?_⟩
        intro sum' above same
        cases same
        exact lighter
      · rename_i heavier
        cases found
        refine ⟨⟨up, at_i⟩, ?_, ?_⟩
        · intro j member sum' above same
          exact Nat.le_trans (greatest j member sum' above same) (Nat.le_of_not_le heavier)
        · intro sum' above same
          cases same
          exact Nat.le_refl _

/-- The total of the critical path is the greatest sum of all chains. -/
theorem Linked.greatest {f : Forest} (linked : f.Linked) (nonempty : f.nodes ≠ #[])
    {path : CriticalPath} (found : f.criticalPath = .ok path) :
    IsGreatest f.chainSums path.total := by
  obtain ⟨order, walked, descends⟩ := linked.preorder
  have summed := descends.first.summed
  have known : ∀ i ∈ order, ∃ x, (order.foldl f.addSum ∅)[i]? = some x := by
    intro i member
    obtain ⟨sum, n, _, at_i⟩ := summed.met i member
    exact ⟨_, at_i⟩
  unfold Forest.criticalPath at found
  rw [if_neg fun empty => nonempty (Array.isEmpty_iff.mp empty), walked] at found
  dsimp only [bind, Except.bind] at found
  split at found
  · cases found
  · rename_i last total heaviest
    split at found
    · cases found
    · cases found
      obtain ⟨⟨above, own⟩, greatest⟩ := heaviest?_greatest known heaviest
      obtain ⟨member, chain⟩ := summed.sound _ _ _ own
      refine ⟨⟨last, (descends.reached last).mp member, chain⟩, ?_⟩
      rintro sum ⟨i, reached, chain'⟩
      have met := (descends.reached i).mpr reached
      obtain ⟨sum', n, _, at_i⟩ := summed.met i met
      rw [chain'.unique (summed.sound i sum' _ at_i).2]
      exact greatest i met sum' _ at_i

/-! ## Forests with the same links -/

def SameLinks (f f' : Forest) : Prop :=
  ∀ i, (f'.node? i).map (fun n => (n.parent, n.duration)) =
    (f.node? i).map fun n => (n.parent, n.duration)

namespace SameLinks
variable {f f' : Forest}

theorem symm (h : f.SameLinks f') : f'.SameLinks f := fun i => (h i).symm

theorem node? (h : f.SameLinks f') {i : Nat} {n : Node} (at_i : f.node? i = some n) :
    ∃ n', f'.node? i = some n' ∧ n'.parent = n.parent ∧ n'.duration = n.duration := by
  have same := h i
  rw [at_i, Option.map_some] at same
  obtain ⟨n', at_i', eq⟩ := Option.map_eq_some_iff.mp same
  exact ⟨n', at_i', congrArg Prod.fst eq, congrArg Prod.snd eq⟩

theorem parent (h : f.SameLinks f') {i : Nat} {parent : Option Nat}
    (linked : ∃ n, f.node? i = some n ∧ n.parent = parent) :
    ∃ n, f'.node? i = some n ∧ n.parent = parent := by
  obtain ⟨n, at_i, rfl⟩ := linked
  obtain ⟨n', at_i', same, _⟩ := h.node? at_i
  exact ⟨n', at_i', same⟩

theorem reaches (h : f.SameLinks f') (linked : f.Linked) (linked' : f'.Linked) {i : Nat}
    (reached : f.Reaches i) : f'.Reaches i := by
  induction reached with
  | root member => exact .root ((linked'.roots _).mpr (h.parent ((linked.roots _).mp member)))
  | child _ member ih =>
    exact .child ih ((linked'.children _ _).mpr (h.parent ((linked.children _ _).mp member)))

theorem chain (h : f.SameLinks f') {i : Nat} {sum : Nanos} (chain : f.Chain i sum) :
    f'.Chain i sum := by
  induction chain with
  | root at_i top =>
    obtain ⟨n', at_i', parent, duration⟩ := h.node? at_i
    rw [← duration]
    exact .root at_i' (parent.trans top)
  | step at_i below _ ih =>
    obtain ⟨n', at_i', parent, duration⟩ := h.node? at_i
    rw [← duration]
    exact .step at_i' (parent.trans below) ih

theorem chainSums (h : f.SameLinks f') (linked : f.Linked) (linked' : f'.Linked) :
    f.chainSums ⊆ f'.chainSums :=
  fun _ ⟨i, reached, chain⟩ => ⟨i, h.reaches linked linked' reached, h.chain chain⟩

theorem nodes_eq_empty (h : f.SameLinks f') (empty : f.nodes = #[]) : f'.nodes = #[] := by
  have none : ∀ i : Nat, f'.nodes[i]? = none := by
    intro i
    have same := h i
    rw [Forest.node?, Forest.node?, empty, Array.getElem?_empty] at same
    exact Option.map_eq_none_iff.mp same
  exact Array.eq_empty_of_size_eq_zero (Nat.le_zero.mp (Array.getElem?_eq_none_iff.mp (none 0)))

/-- Critical paths of forests with the same links take the same time. -/
theorem total (h : f.SameLinks f') (linked : f.Linked) (linked' : f'.Linked)
    {path path' : CriticalPath} (found : f.criticalPath = .ok path)
    (found' : f'.criticalPath = .ok path') : path'.total = path.total := by
  by_cases empty : f.nodes = #[]
  · unfold criticalPath at found found'
    rw [empty] at found
    rw [h.nodes_eq_empty empty] at found'
    cases found
    cases found'
    rfl
  · have nonempty' : f'.nodes ≠ #[] := fun empty' => empty (h.symm.nodes_eq_empty empty')
    have greatest := linked.greatest empty found
    rw [(h.chainSums linked linked').antisymm (h.symm.chainSums linked' linked)] at greatest
    exact (linked'.greatest nonempty' found').unique greatest

end SameLinks

end SpanWeave.Forest
