import Mathlib.Data.List.Nodup
import Mathlib.Data.List.Range
import SpanWeave.Proofs.Forest.Descent
import SpanWeave.Proofs.Forest.Outline

set_option autoImplicit false

/-!
# Ways down a forest

Every index that is found from the roots is found along a way: the position of a root, then the
position of a child, and so on. On any forest, also a malformed one, the walk succeeds just where
each way leads to a node of its own; otherwise its fault names an index for which that fails.
-/
namespace SpanWeave.Forest
open scoped List

/-- A way from the siblings down: the first position is among them, each later one among the
children of the index before it. -/
inductive Leads (f : Forest) : List Nat → List Nat → Nat → Prop
  | here {siblings : List Nat} {k i : Nat} (found : siblings[k]? = some i) : f.Leads siblings [k] i
  | down {siblings way : List Nat} {k i j : Nat} (found : siblings[k]? = some i)
      (below : f.Leads (f.childrenOf i) way j) : f.Leads siblings (k :: way) j

namespace Leads
variable {f : Forest} {siblings way : List Nat} {i j k : Nat}

theorem ne_nil (h : f.Leads siblings way i) : way ≠ [] := by
  cases h with
  | here => exact List.cons_ne_nil _ _
  | down => exact List.cons_ne_nil _ _

theorem not_nil : ¬ f.Leads [] way i := by
  intro h
  cases h with
  | here found => cases found
  | down found => cases found

theorem concat (h : f.Leads siblings way i) (found : (f.childrenOf i)[k]? = some j) :
    f.Leads siblings (way ++ [k]) j := by
  induction h with
  | here above => exact .down above (.here found)
  | down above _ ih => exact .down above (ih found)

theorem reaches (h : f.Leads siblings way i) (above : ∀ j ∈ siblings, f.Reaches j) :
    f.Reaches i := by
  induction h with
  | here found => exact above _ (List.mem_of_getElem? found)
  | down found _ ih => exact ih fun _ member => .child (above _ (List.mem_of_getElem? found)) member

/-- The ways from a list of siblings, as the outline takes them apart. -/
theorem cons_iff : f.Leads (i :: siblings) way j ↔
    (way = [0] ∧ j = i) ∨ (∃ rest, way = 0 :: rest ∧ f.Leads (f.childrenOf i) rest j) ∨
      ∃ k rest, way = (k + 1) :: rest ∧ f.Leads siblings (k :: rest) j := by
  constructor
  · intro h
    cases h with
    | @here _ k _ found =>
      cases k with
      | zero => exact .inl ⟨rfl, (Option.some.inj found).symm⟩
      | succ k => exact .inr (.inr ⟨k, [], rfl, .here found⟩)
    | @down _ rest k _ _ found below =>
      cases k with
      | zero =>
        cases found
        exact .inr (.inl ⟨rest, rfl, below⟩)
      | succ k => exact .inr (.inr ⟨k, rest, rfl, .down found below⟩)
  · rintro (⟨rfl, rfl⟩ | ⟨rest, rfl, below⟩ | ⟨k, rest, rfl, across⟩)
    · exact .here rfl
    · exact .down rfl below
    · cases across with
      | here found => exact .here found
      | down found below => exact .down found below

end Leads

theorem reaches_iff_leads {f : Forest} {i : Nat} : f.Reaches i ↔ ∃ way, f.Leads f.roots way i := by
  constructor
  · intro h
    induction h with
    | root member =>
      obtain ⟨k, found⟩ := List.mem_iff_getElem?.mp member
      exact ⟨[k], .here found⟩
    | child _ member ih =>
      obtain ⟨way, above⟩ := ih
      obtain ⟨k, found⟩ := List.mem_iff_getElem?.mp member
      exact ⟨way ++ [k], above.concat found⟩
  · rintro ⟨way, led⟩
    exact led.reaches fun _ => .root

namespace Outline
variable {f : Forest} {siblings order : List Nat}

theorem mem_iff_leads (h : f.Outline siblings order) (j : Nat) :
    j ∈ order ↔ ∃ way, f.Leads siblings way j := by
  induction h with
  | nil =>
    exact iff_of_false List.not_mem_nil fun ⟨_, led⟩ => Leads.not_nil led
  | @cons i siblings below later _ _ down across =>
    rw [List.mem_cons, List.mem_append, down, across]
    constructor
    · rintro (rfl | ⟨rest, led⟩ | ⟨way, led⟩)
      · exact ⟨[0], .here rfl⟩
      · exact ⟨0 :: rest, .down rfl led⟩
      · obtain ⟨k, rest, rfl⟩ := List.exists_cons_of_ne_nil led.ne_nil
        exact ⟨(k + 1) :: rest, Leads.cons_iff.mpr (.inr (.inr ⟨k, rest, rfl, led⟩))⟩
    · rintro ⟨way, led⟩
      rcases Leads.cons_iff.mp led with ⟨_, rfl⟩ | ⟨rest, _, led⟩ | ⟨k, rest, _, led⟩
      · exact .inl rfl
      · exact .inr (.inl ⟨rest, led⟩)
      · exact .inr (.inr ⟨k :: rest, led⟩)

/-- An outline without repetition has one way to each index. -/
theorem way_unique (h : f.Outline siblings order) (distinct : order.Nodup) {way way' : List Nat}
    {j : Nat} (led : f.Leads siblings way j) (led' : f.Leads siblings way' j) : way = way' := by
  induction h generalizing way way' j with
  | nil => exact absurd led Leads.not_nil
  | @cons i siblings below later outline outline' down across =>
    obtain ⟨apart, distinct⟩ := List.nodup_cons.mp distinct
    obtain ⟨distinctBelow, distinctLater, disjoint⟩ := List.nodup_append'.mp distinct
    have inBelow {rest j} (led : f.Leads (f.childrenOf i) rest j) : j ∈ below :=
      (outline.mem_iff_leads j).mpr ⟨rest, led⟩
    have inLater {way j} (led : f.Leads siblings way j) : j ∈ later :=
      (outline'.mem_iff_leads j).mpr ⟨way, led⟩
    -- the index is the first one, below it or later, and only one of the three
    rcases Leads.cons_iff.mp led with ⟨rfl, top⟩ | ⟨rest, rfl, under⟩ | ⟨k, rest, rfl, after⟩ <;>
      rcases Leads.cons_iff.mp led' with
        ⟨rfl, top'⟩ | ⟨rest', rfl, under'⟩ | ⟨k', rest', rfl, after'⟩
    · rfl
    · exact absurd (List.mem_append_left _ (inBelow (top ▸ under'))) apart
    · exact absurd (List.mem_append_right _ (inLater (top ▸ after'))) apart
    · exact absurd (List.mem_append_left _ (inBelow (top' ▸ under))) apart
    · rw [down distinctBelow under under']
    · exact absurd (inLater after') (disjoint (inBelow under))
    · exact absurd (List.mem_append_right _ (inLater (top' ▸ after))) apart
    · exact absurd (inLater after) (disjoint (inBelow under'))
    · obtain ⟨rfl, rfl⟩ := List.cons.inj (across distinctLater after after')
      rfl

end Outline

/-- Each way from the roots leads to a node of the forest, and no two lead to the same one. -/
structure MeetsOnce (f : Forest) : Prop where
  inside : ∀ {way : List Nat} {i : Nat}, f.Leads f.roots way i → i < f.nodes.size
  once : ∀ {way way' : List Nat} {i : Nat}, f.Leads f.roots way i → f.Leads f.roots way' i →
    way = way'

/-- What a fault says about the forest, so that its nodes are not each met once. -/
inductive Refutes (f : Forest) : PathFault → Prop
  | outOfRange {way : List Nat} {i : Nat} (led : f.Leads f.roots way i)
      (outside : f.nodes.size ≤ i) : f.Refutes (.outOfRange i)
  | cycle {way way' : List Nat} {i : Nat} (led : f.Leads f.roots way i)
      (again : f.Leads f.roots way' i) (apart : way ≠ way') : f.Refutes (.cycle i)

theorem Refutes.not_meetsOnce {f : Forest} {fault : PathFault} (h : f.Refutes fault) :
    ¬ f.MeetsOnce := by
  intro meets
  cases h with
  | outOfRange led outside => exact absurd (meets.inside led) (Nat.not_lt.mpr outside)
  | cycle led again apart => exact apart (meets.once led again)

def waysOn (way siblings : List Nat) : List (List Nat × Nat) :=
  siblings.zipIdx.map fun e => (way ++ [e.2], e.1)

theorem mem_waysOn {way siblings : List Nat} {e : List Nat × Nat} :
    e ∈ waysOn way siblings ↔ ∃ k, siblings[k]? = some e.2 ∧ e.1 = way ++ [k] := by
  rw [waysOn, List.mem_map]
  constructor
  · rintro ⟨⟨i, k⟩, member, rfl⟩
    exact ⟨k, List.mk_mem_zipIdx_iff_getElem?.mp member, rfl⟩
  · rintro ⟨k, found, eq⟩
    exact ⟨(e.2, k), List.mk_mem_zipIdx_iff_getElem?.mpr found, Prod.ext eq.symm rfl⟩

theorem map_snd_waysOn (way siblings : List Nat) :
    (waysOn way siblings).map Prod.snd = siblings := by
  rw [waysOn, List.map_map]
  exact List.zipIdx_map_fst 0 siblings

theorem nodup_waysOn (way siblings : List Nat) : ((waysOn way siblings).map Prod.fst).Nodup := by
  have positions : (waysOn way siblings).map Prod.fst =
      (List.range' 0 siblings.length).map fun k => way ++ [k] := by
    rw [← List.zipIdx_map_snd 0 siblings, waysOn, List.map_map, List.map_map]
    rfl
  rw [positions]
  refine List.Nodup.map (fun k k' same => ?_) List.nodup_range'
  exact List.singleton_inj.mp (List.append_cancel_left same)

/-- The ways to what a walk has met and to what is on its stack. They are different ways, for each
goes on from the way to something that was met. -/
structure Tracked (f : Forest) (met pending : List (List Nat × Nat)) : Prop where
  leads : ∀ e ∈ met ++ pending, f.Leads f.roots e.1 e.2
  distinct : ((met ++ pending).map Prod.fst).Nodup
  goesOn : ∀ e ∈ met ++ pending, ∃ way k, e.1 = way ++ [k] ∧ (way = [] ∨ way ∈ met.map Prod.fst)

namespace Tracked
variable {f : Forest} {met pending : List (List Nat × Nat)} {e : List Nat × Nat}

theorem start (f : Forest) : f.Tracked [] (waysOn [] f.roots) where
  leads e member := by
    obtain ⟨k, found, eq⟩ := mem_waysOn.mp member
    rw [eq]
    exact .here found
  distinct := nodup_waysOn [] f.roots
  goesOn e member := by
    obtain ⟨k, _, eq⟩ := mem_waysOn.mp member
    exact ⟨[], k, eq, .inl rfl⟩

theorem top (h : f.Tracked met (e :: pending)) : f.Leads f.roots e.1 e.2 :=
  h.leads e (List.mem_append_right _ List.mem_cons_self)

/-- What is on top of the stack was reached another way than what was met. -/
theorem apart (h : f.Tracked met (e :: pending)) {e' : List Nat × Nat} (member : e' ∈ met) :
    e.1 ≠ e'.1 := by
  have distinct := h.distinct
  rw [List.map_append, List.nodup_append'] at distinct
  intro same
  exact distinct.2.2 (List.mem_map_of_mem member) (same ▸ List.mem_cons_self)

theorem step (h : f.Tracked met (e :: pending)) :
    f.Tracked (e :: met) (waysOn e.1 (f.childrenOf e.2) ++ pending) := by
  have moved : (e :: met) ++ (waysOn e.1 (f.childrenOf e.2) ++ pending) ~
      (met ++ e :: pending) ++ waysOn e.1 (f.childrenOf e.2) := by
    refine .trans ?_ (List.perm_middle.symm.append_right _)
    rw [List.cons_append, List.cons_append, List.append_assoc]
    exact (List.perm_append_comm.append_left met).cons e
  refine ⟨fun e' member => ?_, ?_, fun e' member => ?_⟩
  · rcases List.mem_append.mp (moved.mem_iff.mp member) with old | new
    · exact h.leads e' old
    · obtain ⟨k, found, eq⟩ := mem_waysOn.mp new
      rw [eq]
      exact h.top.concat found
  · rw [(moved.map Prod.fst).nodup_iff, List.map_append, List.nodup_append']
    refine ⟨h.distinct, nodup_waysOn _ _, fun way old new => ?_⟩
    obtain ⟨e₁, before, rfl⟩ := List.mem_map.mp old
    obtain ⟨e₂, after, same⟩ := List.mem_map.mp new
    obtain ⟨k, _, eq₂⟩ := mem_waysOn.mp after
    obtain ⟨way, k', eq₁, above⟩ := h.goesOn e₁ before
    -- a way that goes on from the top of the stack is none of the old ones, as the top was not met
    obtain ⟨rfl, _⟩ := List.append_inj' (eq₁.symm.trans (same.symm.trans eq₂)) rfl
    rcases above with none | met
    · exact h.top.ne_nil none
    · obtain ⟨e', met, again⟩ := List.mem_map.mp met
      exact h.apart met again.symm
  · rcases List.mem_append.mp (moved.mem_iff.mp member) with old | new
    · obtain ⟨way, k, eq, above⟩ := h.goesOn e' old
      exact ⟨way, k, eq, above.imp_right fun above => List.mem_cons_of_mem _ above⟩
    · obtain ⟨k, _, eq⟩ := mem_waysOn.mp new
      exact ⟨e.1, k, eq, .inr List.mem_cons_self⟩

/-- A walk that fails has come two ways to a node, or one way to none. -/
theorem refutes (h : f.Tracked met pending) {seen : Array Bool}
    (marked : f.Met seen (met.map Prod.snd)) {fuel : Nat} {fault : PathFault}
    (failed : f.visit fuel seen (met.map Prod.snd) (pending.map Prod.snd) = .error fault)
    (ended : fault ≠ .endless) : f.Refutes fault := by
  induction fuel generalizing met pending seen with
  | zero =>
    cases pending with
    | nil => cases failed
    | cons => exact absurd (Except.error.inj failed).symm ended
  | succ fuel ih =>
    cases pending with
    | nil => cases failed
    | cons e pending =>
      rw [List.map_cons, visit] at failed
      split at failed
      · rename_i outside
        cases failed
        rw [Array.getElem?_eq_none_iff, marked.size] at outside
        exact .outOfRange h.top outside
      · rename_i old
        cases failed
        have inside : e.2 < f.nodes.size := marked.size ▸ (Array.getElem?_eq_some_iff.mp old).1
        rw [marked.seen _ inside, Option.some.injEq, decide_eq_true_iff] at old
        obtain ⟨e', member, same⟩ := List.mem_map.mp old
        refine .cycle h.top ?_ (h.apart member)
        exact same ▸ h.leads e' (List.mem_append_left _ member)
      · rename_i fresh
        refine ih h.step (marked.step fresh) ?_
        rwa [List.map_append, map_snd_waysOn]

end Tracked

/-- Fuel that was enough is enough with some left over. -/
theorem visit_succ {f : Forest} {fuel : Nat} {seen : Array Bool} {order stack : List Nat}
    (enough : f.visit fuel seen order stack ≠ .error .endless) :
    f.visit (fuel + 1) seen order stack = f.visit fuel seen order stack := by
  induction fuel generalizing seen order stack with
  | zero =>
    cases stack with
    | nil => rfl
    | cons => exact absurd rfl enough
  | succ fuel ih =>
    cases stack with
    | nil => rfl
    | cons i stack =>
      rw [visit] at enough ⊢
      rw [visit]
      split
      · rfl
      · rfl
      · rename_i fresh
        rw [fresh] at enough
        exact ih enough

theorem visit_start {f : Forest} {fuel : Nat} (enough : f.nodes.size < fuel) :
    f.visit fuel (Array.replicate f.nodes.size false) [] f.roots = f.preorder := by
  induction fuel, enough using Nat.le_induction with
  | base => rfl
  | succ fuel most ih => rw [visit_succ (ih ▸ f.preorder_ne_endless), ih]

theorem refutes_of_preorder {f : Forest} {fault : PathFault} (failed : f.preorder = .error fault) :
    f.Refutes fault := by
  have started : f.visit (f.nodes.size + 1) (Array.replicate f.nodes.size false) []
      ((waysOn [] f.roots).map Prod.snd) = .error fault := by rwa [map_snd_waysOn]
  exact (Tracked.start f).refutes (Met.start f) started fun endless =>
    f.preorder_ne_endless (endless ▸ failed)

theorem Outline.meetsOnce {f : Forest} {order : List Nat} (h : f.Outline f.roots order)
    (distinct : order.Nodup) (inside : ∀ i ∈ order, i < f.nodes.size) : f.MeetsOnce where
  inside led := inside _ ((h.mem_iff_leads _).mpr ⟨_, led⟩)
  once := h.way_unique distinct

/-- On every forest the walk from the roots comes to an end: fuel beyond one more than all nodes
changes nothing. It succeeds just where each way down leads to a node of its own, and then lists
the nodes that are reached, each once and in depth-first order. Otherwise its fault names an index
out of range, or one with two ways to it; it is never a lack of fuel. -/
theorem preorder_iff_meetsOnce (f : Forest) :
    (∀ fuel, f.nodes.size < fuel →
      f.visit fuel (Array.replicate f.nodes.size false) [] f.roots = f.preorder) ∧
    ((∃ order, f.preorder = .ok order) ↔ f.MeetsOnce) ∧
    (∀ order, f.preorder = .ok order →
      f.Outline f.roots order ∧ order.Nodup ∧ ∀ i, i ∈ order ↔ f.Reaches i) ∧
    ∀ fault, f.preorder = .error fault → f.Refutes fault := by
  refine ⟨fun fuel => visit_start, ⟨?_, fun meets => ?_⟩, fun order walked => ?_,
    fun fault => refutes_of_preorder⟩
  · rintro ⟨order, walked⟩
    obtain ⟨outline, distinct, present⟩ := outline_of_preorder walked
    refine outline.meetsOnce distinct fun i member => ?_
    obtain ⟨n, at_i⟩ := present i member
    exact (Array.getElem?_eq_some_iff.mp at_i).1
  · cases walked : f.preorder with
    | ok order => exact ⟨order, rfl⟩
    | error fault => exact absurd meets (refutes_of_preorder walked).not_meetsOnce
  · obtain ⟨outline, distinct, _⟩ := outline_of_preorder walked
    exact ⟨outline, distinct, fun i => (outline.mem_iff_leads i).trans reaches_iff_leads.symm⟩

/-- Of three nodes the first has the other two below it, the second of them first; with more fuel
than needed the walk is the same. Two nodes below each other are met again and again. -/
theorem preorder_of_branches_and_ring : ∃ branches ring : Forest,
    branches.roots = [0] ∧ branches.nodes.toList.map (·.children) = [[2, 1], [], []] ∧
    branches.visit 7 (Array.replicate 3 false) [] [0] = branches.preorder ∧
    branches.preorder = .ok [0, 2, 1] ∧ branches.Outline [0] [0, 2, 1] ∧ branches.MeetsOnce ∧
    ring.roots = [0] ∧ ring.nodes.toList.map (·.children) = [[1], [0]] ∧
    ring.preorder = .error (.cycle 0) ∧ ring.Refutes (.cycle 0) ∧ ¬ ring.MeetsOnce := by
  let node (children : List Nat) : Node := { (default : Node) with children := children }
  let branches : Forest := { nodes := #[node [2, 1], node [], node []], roots := [0] }
  let ring : Forest := { nodes := #[node [1], node [0]], roots := [0] }
  obtain ⟨fuel, meets, order, _⟩ := preorder_iff_meetsOnce branches
  have refuted : ring.Refutes (.cycle 0) := (preorder_iff_meetsOnce ring).2.2.2 _ rfl
  exact ⟨branches, ring, rfl, rfl, fuel 7 (by decide), rfl, (order _ rfl).1, meets.mp ⟨_, rfl⟩,
    rfl, rfl, rfl, refuted, refuted.not_meetsOnce⟩

end SpanWeave.Forest
