import Mathlib.Data.List.Basic
import Mathlib.Data.List.Induction
import Mathlib.Data.List.Nodup

set_option autoImplicit false

/-!
# Lists

What holds of lists of anything: requests answered one after the other, steps that may fail, the
element behind the others, and sorting, which is stable, so that elements that may stand in either
order stand in the order in which they came.
-/
namespace SpanWeave

/-! ## Dialogues -/

section Dialogue
variable {σ ι ω : Type} {step : σ → ι → ω × σ} {start : σ}

/-- The replies to requests that are made one after the other, and the state they lead to. -/
def dialogue (step : σ → ι → ω × σ) (start : σ) (requests : List ι) : List ω × σ :=
  requests.foldl (fun (replies, s) request => (replies ++ [(step s request).1], (step s request).2))
    ([], start)

theorem dialogue_concat (requests : List ι) (request : ι) :
    dialogue step start (requests ++ [request]) =
      ((dialogue step start requests).1 ++ [(step (dialogue step start requests).2 request).1],
        (step (dialogue step start requests).2 request).2) := by
  rw [dialogue, List.foldl_append]
  rfl

/-- What holds before the first request and is kept by every reply. -/
theorem dialogue_keeps {P : List ι → List ω → σ → Prop} (first : P [] [] start)
    (next : ∀ past replies s request, P past replies s →
      P (past ++ [request]) (replies ++ [(step s request).1]) (step s request).2)
    (requests : List ι) :
    P requests (dialogue step start requests).1 (dialogue step start requests).2 := by
  induction requests using List.reverseRecOn with
  | nil => exact first
  | append_singleton past request ih =>
    rw [dialogue_concat]
    exact next _ _ _ _ ih

end Dialogue

/-! ## Steps that may fail -/

section Faults
variable {α β γ ε : Type}

/-- What is written is read back, element by element. -/
theorem mapM_map_of_back {write : α → β} {read : β → Option γ} {value : α → γ} {xs : List α}
    (back : ∀ x ∈ xs, read (write x) = some (value x)) :
    (xs.map write).mapM read = some (xs.map value) := by
  induction xs with
  | nil => rfl
  | cons x xs ih =>
    obtain ⟨here, later⟩ := List.forall_mem_cons.mp back
    rw [List.map_cons, List.mapM_cons, here, ih later]
    rfl

theorem mapM_ok_iff {read : α → Except ε β} (xs : List α) :
    (∃ ys, xs.mapM read = .ok ys) ↔ ∀ x ∈ xs, ∃ y, read x = .ok y := by
  induction xs with
  | nil => exact ⟨fun _ => nofun, fun _ => ⟨[], rfl⟩⟩
  | cons x xs ih =>
    rw [List.mapM_cons, List.forall_mem_cons, ← ih]
    cases read x with
    | error e => exact ⟨nofun, nofun⟩
    | ok y =>
      cases xs.mapM read with
      | error e => exact ⟨nofun, nofun⟩
      | ok ys => exact ⟨fun _ => ⟨⟨y, rfl⟩, ys, rfl⟩, fun _ => ⟨y :: ys, rfl⟩⟩

theorem mem_of_mapM_ok {read : α → Except ε β} {xs : List α} {ys : List β}
    (all : xs.mapM read = .ok ys) (y : β) : y ∈ ys ↔ ∃ x ∈ xs, read x = .ok y := by
  induction xs generalizing ys with
  | nil =>
    cases all
    exact ⟨nofun, nofun⟩
  | cons x xs ih =>
    rw [List.mapM_cons] at all
    cases first : read x with
    | error e =>
      rw [first] at all
      cases all
    | ok z =>
      rw [first] at all
      cases rest : xs.mapM read with
      | error e =>
        rw [rest] at all
        cases all
      | ok zs =>
        rw [rest] at all
        cases all
        rw [List.mem_cons, ih rest, List.exists_mem_cons_iff, first, Except.ok.injEq, eq_comm]

/-- What each step keeps, all of them keep. -/
theorem foldlM_keeps {step : β → α → Except ε β} {P : β → Prop} {xs : List α}
    (one : ∀ x ∈ xs, ∀ b b', P b → step b x = .ok b' → P b') {b b' : β} (h : P b)
    (all : xs.foldlM step b = .ok b') : P b' := by
  induction xs generalizing b with
  | nil =>
    cases all
    exact h
  | cons x xs ih =>
    obtain ⟨here, later⟩ := List.forall_mem_cons.mp one
    rw [List.foldlM_cons] at all
    cases first : step b x with
    | error e =>
      rw [first] at all
      cases all
    | ok c =>
      rw [first] at all
      exact ih later (here b c h first) all

end Faults

/-! ## Elements and order -/

variable {α : Type} {l : List α}

theorem getElem?_concat_eq_some {a b : α} {i : Nat} :
    (l ++ [a])[i]? = some b ↔ l[i]? = some b ∨ i = l.length ∧ a = b := by
  rcases Nat.lt_trichotomy i l.length with earlier | rfl | past
  · rw [List.getElem?_append_left earlier]
    exact ⟨.inl, fun here => here.resolve_right fun last => Nat.ne_of_lt earlier last.1⟩
  · rw [List.getElem?_concat_length, List.getElem?_eq_none (Nat.le_refl _)]
    exact ⟨fun here => .inr ⟨rfl, Option.some.inj here⟩,
      fun here => here.elim nofun fun last => congrArg some last.2⟩
  · have none : (l ++ [a])[i]? = none := List.getElem?_eq_none (by
      rw [List.length_append, List.length_singleton]
      omega)
    rw [none, List.getElem?_eq_none (Nat.le_of_lt past)]
    exact ⟨nofun, fun here => here.elim nofun fun last => absurd last.1 (Nat.ne_of_gt past)⟩

theorem pair_sublist_or {a b : α} (first : a ∈ l) (second : b ∈ l) (other : a ≠ b) :
    [a, b].Sublist l ∨ [b, a].Sublist l := by
  obtain ⟨s, t, rfl⟩ := List.append_of_mem first
  have here : [a].Sublist (a :: t) := List.singleton_sublist.mpr List.mem_cons_self
  rcases List.mem_append.mp second with before | after
  · exact .inr ((List.singleton_sublist.mpr before).append here)
  · have behind : b ∈ t := (List.mem_cons.mp after).resolve_left (Ne.symm other)
    exact .inl (((List.singleton_sublist.mpr behind).cons_cons a).trans
      (List.sublist_append_right s _))

theorem mergeSort_pair (le : α → α → Bool) (a b : α) :
    [a, b].mergeSort le = if le a b then [a, b] else [b, a] := by
  simp [List.mergeSort, List.merge]

variable [DecidableEq α]

theorem pairwise_idxOf (distinct : l.Nodup) : l.Pairwise fun a b => l.idxOf a < l.idxOf b := by
  refine List.pairwise_iff_getElem.mpr fun i j hi hj less => ?_
  rwa [distinct.idxOf_getElem i hi, distinct.idxOf_getElem j hj]

/-- What stood in an order still does, after sorting, where the sorting makes no difference. -/
theorem pairwise_mergeSort_ties {R : α → α → Prop} (le : α → α → Bool)
    (trans : ∀ a b c, le a b = true → le b c = true → le a c = true)
    (total : ∀ a b, (le a b || le b a) = true) (distinct : l.Nodup) (ordered : l.Pairwise R) :
    (l.mergeSort le).Pairwise fun a b => le a b = true ∧ (le b a = true → R a b) := by
  have perm := List.mergeSort_perm l le
  have place : ∀ a b, [a, b].Sublist (l.mergeSort le) →
      (l.mergeSort le).idxOf a < (l.mergeSort le).idxOf b :=
    fun a b => List.pairwise_iff_forall_sublist.mp (pairwise_idxOf (perm.nodup_iff.mpr distinct))
  refine List.pairwise_iff_forall_sublist.mpr fun {a b} pair => ⟨?_, fun tie => ?_⟩
  · exact List.pairwise_iff_forall_sublist.mp (List.pairwise_mergeSort trans total l) pair
  · have forth := place a b pair
    have other : a ≠ b := by
      rintro rfl
      exact Nat.lt_irrefl _ forth
    have first : a ∈ l := perm.mem_iff.mp (pair.subset List.mem_cons_self)
    have second : b ∈ l := perm.mem_iff.mp (pair.subset (by simp))
    rcases pair_sublist_or first second other with kept | swapped
    · exact List.pairwise_iff_forall_sublist.mp ordered kept
    · -- sorting would not have moved the two
      have back := place b a (List.pair_sublist_mergeSort trans total tie swapped)
      omega

end SpanWeave
