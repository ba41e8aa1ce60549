import Mathlib.Algebra.GroupWithZero.Nat
import Mathlib.Data.List.Induction
import SpanWeave.Proofs.Engine.Telling
import SpanWeave.Proofs.Engine.Views
import SpanWeave.Proofs.Json.Tokens
import SpanWeave.Proofs.Lists

set_option autoImplicit false

/-!
# Tallies

What the samples of one scope add up to. Without a timeline every name has one tally, of all its
samples and in whatever order they came; with one every sample has a tally of its own, and the
number behind its name tells it from all others.
-/
namespace SpanWeave

/-! ## Sums -/

namespace Tally

structure Sums (t : Tally) (xs : List Nat) : Prop where
  count : t.count = xs.length
  total : t.total = min xs.sum totalLimit
  least : xs.min? = some t.least
  greatest : xs.max? = some t.greatest

theorem Sums.unique {t u : Tally} {xs : List Nat} (h : t.Sums xs) (h' : u.Sums xs) : t = u := by
  have count := h.count.trans h'.count.symm
  have total := h.total.trans h'.total.symm
  have least := Option.some.inj (h.least.symm.trans h'.least)
  have greatest := Option.some.inj (h.greatest.symm.trans h'.greatest)
  cases t
  cases u
  simp_all only

theorem Sums.ne_nil {t : Tally} {xs : List Nat} (h : t.Sums xs) : xs ≠ [] := by
  rintro rfl
  cases h.least

theorem sums_ofSample (x : Nat) : (ofSample x).Sums [x] := ⟨rfl, rfl, rfl, rfl⟩

/-- The total stops at the limit, so it makes no difference where on the way it did. -/
theorem Sums.add {t : Tally} {xs : List Nat} (h : t.Sums xs) (x : Nat) :
    (t.add x).Sums (xs ++ [x]) where
  count := by rw [Tally.add, h.count, List.length_append, List.length_singleton]
  total := by
    rw [Tally.add, h.total, List.sum_append, List.sum_singleton]
    dsimp only
    omega
  least := by
    obtain ⟨y, ys, rfl⟩ := List.exists_cons_of_ne_nil h.ne_nil
    have least := Option.some.inj (List.min?_cons'.symm.trans h.least)
    rw [List.cons_append, List.min?_cons', List.foldl_append, least]
    rfl
  greatest := by
    obtain ⟨y, ys, rfl⟩ := List.exists_cons_of_ne_nil h.ne_nil
    have greatest := Option.some.inj (List.max?_cons'.symm.trans h.greatest)
    rw [List.cons_append, List.max?_cons', List.foldl_append, greatest]
    rfl

theorem exists_sums {xs : List Nat} (some : xs ≠ []) : ∃ t : Tally, t.Sums xs := by
  induction xs using List.reverseRecOn with
  | nil => exact absurd rfl some
  | append_singleton xs x ih =>
    by_cases none : xs = []
    · subst none
      exact ⟨ofSample x, sums_ofSample x⟩
    · obtain ⟨t, sums⟩ := ih none
      exact ⟨t.add x, sums.add x⟩

end Tally

/-! ## Without a timeline -/

def samplesOf (name : String) (samples : List Sample) : List Nat :=
  (samples.filter (·.1 = name)).map (·.2)

theorem samplesOf_concat (name : String) (samples : List Sample) (x : Sample) :
    samplesOf name (samples ++ [x]) =
      if x.1 = name then samplesOf name samples ++ [x.2] else samplesOf name samples := by
  unfold samplesOf
  rw [List.filter_append, List.map_append, List.filter_singleton]
  by_cases same : x.1 = name
  · rw [if_pos same, decide_eq_true same]
    rfl
  · rw [if_neg same, decide_eq_false same]
    exact List.append_nil _

theorem samplesOf_ne_nil {name : String} {samples : List Sample} :
    samplesOf name samples ≠ [] ↔ name ∈ samples.map (·.1) := by
  unfold samplesOf
  rw [ne_eq, List.map_eq_nil_iff, List.filter_eq_nil_iff, List.mem_map]
  simp only [decide_eq_true_eq, not_forall, not_not, exists_prop]

namespace Durations

theorem recordAll_concat (d : Durations) (scope : Scope) (samples : List Sample) (x : Sample) :
    d.recordAll scope (samples ++ [x]) = (d.recordAll scope samples).record scope x.1 x.2 :=
  d.recordAll_append scope samples [x]

/-- Every name has the tally of its samples, if it has any. -/
theorem table_untimed (flat : Bool) (samples : List Sample) (name : String) (t : Tally) :
    (({} : Durations).recordAll { flat } samples).table[name]? = some t ↔
      t.Sums (samplesOf name samples) := by
  induction samples using List.reverseRecOn generalizing t with
  | nil =>
    have none : (({} : Durations).recordAll { flat } []).table[name]? = none :=
      Std.ExtTreeMap.getElem?_empty
    rw [none]
    exact ⟨nofun, fun sums => absurd rfl sums.ne_nil⟩
  | append_singleton samples x ih =>
    rw [recordAll_concat, get?_record, samplesOf_concat]
    by_cases same : x.1 = name
    · rw [if_pos same, if_pos same]
      cases held : (({} : Durations).recordAll { flat } samples).table[name]? with
      | none =>
        have first : samplesOf name samples = [] := by
          by_contra some
          obtain ⟨u, sums⟩ := Tally.exists_sums some
          rw [(ih u).mpr sums] at held
          cases held
        have sums := Tally.sums_ofSample x.2
        rw [first, List.nil_append]
        exact ⟨fun eq => Option.some.inj eq ▸ sums, fun other => congrArg some (sums.unique other)⟩
      | some u =>
        have sums := ((ih u).mp held).add x.2
        exact ⟨fun eq => Option.some.inj eq ▸ sums, fun other => congrArg some (sums.unique other)⟩
    · rw [if_neg same, if_neg same, ih]

/-- Samples may come in any order. -/
theorem recordAll_perm (d : Durations) (flat : Bool) {samples others : List Sample}
    (same : samples.Perm others) : d.recordAll { flat } samples = d.recordAll { flat } others :=
  same.foldl_eq' (fun x _ y _ d => d.record_comm flat x.1 y.1 x.2 y.2) d

/-! ## With a timeline -/

theorem toList_sampleName (name : String) (k : Nat) : (sampleName name k).toList =
    name.toList ++ [' ', '['] ++ Text.numeral k ++ [']'] := by
  have digits : (toString k).toList = Text.numeral k := String.toList_ofList
  rw [sampleName, String.toList_append, String.toList_append, String.toList_append, digits]
  rfl

/-- The number is what stands between the last bracket that opens and the one that closes. -/
theorem sampleName_injective {name other : String} {k j : Nat}
    (same : sampleName name k = sampleName other j) : k = j := by
  have digits : ∀ (name : String) (k : Nat),
      ((name.toList ++ [' ', '['] ++ Text.numeral k).reverse.takeWhile Char.isDigit).reverse =
        Text.numeral k := by
    intro name k
    have all : ∀ c ∈ (Text.numeral k).reverse, c.isDigit = true := fun c member =>
      Json.isDigit_of_mem_numeral (List.mem_reverse.mp member)
    have stops : (name.toList ++ [' ', '[']).reverse.takeWhile Char.isDigit = [] := by
      rw [List.reverse_append]
      rfl
    rw [List.reverse_append, List.takeWhile_append_of_pos all, stops, List.append_nil,
      List.reverse_reverse]
  have chars := congrArg String.toList same
  rw [toList_sampleName, toList_sampleName, List.append_left_inj] at chars
  have numerals := digits name k
  rw [chars, digits other j] at numerals
  have numbers := congrArg Text.ofDigits numerals
  rwa [Text.ofDigits_numeral, Text.ofDigits_numeral, eq_comm] at numbers

theorem sequence_timed (flat : Bool) (samples : List Sample) :
    (({} : Durations).recordAll { timeline := true, flat } samples).sequence = samples.length := by
  induction samples using List.reverseRecOn with
  | nil => rfl
  | append_singleton samples x ih =>
    rw [recordAll_concat, List.length_append, ← ih]
    rfl

/-- Every sample has its own tally, under its name with its number. -/
theorem table_timed (flat : Bool) (samples : List Sample) (key : String) (t : Tally) :
    (({} : Durations).recordAll { timeline := true, flat } samples).table[key]? = some t ↔
      ∃ k x, samples[k]? = some x ∧ sampleName x.1 k = key ∧ Tally.ofSample x.2 = t := by
  induction samples using List.reverseRecOn generalizing t with
  | nil =>
    have none : (({} : Durations).recordAll { timeline := true, flat } []).table[key]? = none :=
      Std.ExtTreeMap.getElem?_empty
    rw [none]
    exact ⟨nofun, nofun⟩
  | append_singleton samples x ih =>
    have named : (({} : Durations).recordAll { timeline := true, flat } samples).keyOf
        { timeline := true, flat } x.1 = sampleName x.1 samples.length := by
      rw [← sequence_timed flat samples]
      rfl
    rw [recordAll_concat, getElem?_record, named]
    simp only [getElem?_concat_eq_some]
    by_cases same : sampleName x.1 samples.length = key
    · have early : ∀ {k y}, samples[k]? = some y → sampleName y.1 k ≠ key := fun here other =>
        absurd (sampleName_injective (other.trans same.symm))
          (List.getElem?_eq_some_iff.mp here).choose.ne
      have fresh : (({} : Durations).recordAll { timeline := true, flat } samples).table[key]? =
          none := by
        refine Option.eq_none_iff_forall_ne_some.mpr fun u held => ?_
        obtain ⟨k, y, here, other, _⟩ := (ih u).mp held
        exact early here other
      rw [if_pos same, fresh]
      constructor
      · exact fun eq => ⟨_, x, .inr ⟨rfl, rfl⟩, same, Option.some.inj eq⟩
      · rintro ⟨k, y, here | ⟨rfl, rfl⟩, other, rfl⟩
        · exact absurd other (early here)
        · rfl
    · rw [if_neg same, ih]
      constructor
      · rintro ⟨k, y, here, other⟩
        exact ⟨k, y, .inl here, other⟩
      · rintro ⟨k, y, here | ⟨rfl, rfl⟩, other, sums⟩
        · exact ⟨k, y, here, other, sums⟩
        · exact absurd other same

/-! ## Entries -/

def Outranks (a b : String × Tally) : Prop :=
  b.2.total < a.2.total ∨ a.2.total = b.2.total ∧ a.1 < b.1

theorem mem_entries {d : Durations} {name : String} {t : Tally} :
    (name, t) ∈ d.entries ↔ d.table[name]? = some t := by
  rw [entries, List.mem_mergeSort, Std.ExtTreeMap.mem_toList_iff_getElem?_eq_some]

theorem perm_entries (d : Durations) : d.entries.Perm d.table.toList := List.mergeSort_perm _ _

theorem nodup_keys (d : Durations) : (d.table.toList.map (·.1)).Nodup := by
  refine List.pairwise_map.mpr (d.table.distinct_keys_toList.imp fun {a b} distinct same => ?_)
  refine distinct ?_
  rw [same]
  exact Std.ReflCmp.compare_self

theorem nodup_names (d : Durations) : (d.entries.map (·.1)).Nodup :=
  (d.perm_entries.map (·.1)).nodup_iff.mpr d.nodup_keys

/-- The table lists its names in their order, which decides between equal totals. -/
theorem entries_ranked (d : Durations) : d.entries.Pairwise Outranks := by
  have named : d.table.toList.Pairwise fun a b => a.1 < b.1 :=
    d.table.ordered_keys_toList.imp fun less => compareOfLessAndEq_eq_lt.mp less
  have sorted := pairwise_mergeSort_ties (fun a b : String × Tally => b.2.total ≤ a.2.total)
    (fun a b c => by simp only [decide_eq_true_eq]; omega)
    (fun a b => by simp only [Bool.or_eq_true, decide_eq_true_eq]; omega)
    (.of_map _ d.nodup_keys) named
  refine sorted.imp fun {a b} order => ?_
  simp only [decide_eq_true_eq] at order
  unfold Outranks
  by_cases tie : a.2.total ≤ b.2.total
  · exact .inr ⟨Nat.le_antisymm tie order.1, order.2 tie⟩
  · exact .inl (Nat.lt_of_not_le tie)

theorem flatSamples_recordAll (scope : Scope) (samples : List Sample) :
    (({} : Durations).recordAll scope samples).flatSamples =
      if scope.flat then samples.length else 0 := by
  induction samples using List.reverseRecOn with
  | nil => cases scope.flat <;> rfl
  | append_singleton samples x ih =>
    rw [recordAll_concat, List.length_append]
    change _ + _ = _
    rw [ih]
    cases scope.flat <;> rfl

theorem perm_timed (flat : Bool) (samples : List Sample) :
    (({} : Durations).recordAll { timeline := true, flat } samples).entries.Perm
      (samples.mapIdx fun k x => (sampleName x.1 k, Tally.ofSample x.2)) := by
  have listed : (samples.mapIdx fun k x => (sampleName x.1 k, Tally.ofSample x.2)).Nodup := by
    refine List.pairwise_iff_getElem.mpr fun i j hi hj less same => less.ne ?_
    rw [List.getElem_mapIdx, List.getElem_mapIdx] at same
    exact sampleName_injective (congrArg Prod.fst same)
  refine (List.perm_ext_iff_of_nodup (.of_map _ (nodup_names _)) listed).mpr fun ⟨key, t⟩ => ?_
  rw [mem_entries, table_timed, List.mem_mapIdx]
  constructor
  · rintro ⟨k, x, here, named, sums⟩
    obtain ⟨within, here⟩ := List.getElem?_eq_some_iff.mp here
    exact ⟨k, within, by rw [here, named, sums]⟩
  · rintro ⟨k, within, eq⟩
    exact ⟨k, samples[k], List.getElem?_eq_getElem within, congrArg Prod.fst eq,
      congrArg Prod.snd eq⟩

/-- What a record of samples comes to when all of them have the same scope. -/
structure Exact (scope : Scope) (samples : List Sample) (d : Durations) : Prop where
  ranked : d.entries.Pairwise Outranks
  distinct : (d.entries.map (·.1)).Nodup
  flat : d.flatSamples = if scope.flat then samples.length else 0
  /-- Without a timeline the samples of a name are added up. -/
  merged : scope.timeline = false → ∀ name t, (name, t) ∈ d.entries ↔
    name ∈ samples.map (·.1) ∧ t.Sums (samplesOf name samples)
  orderless : scope.timeline = false → ∀ others, samples.Perm others →
    (({} : Durations).recordAll scope others).entries = d.entries
  /-- With one they are all kept apart. -/
  numbered : scope.timeline = true → d.entries.Perm (samples.mapIdx fun k x =>
    (x.1 ++ " [" ++ toString k ++ "]", ⟨1, min x.2 totalLimit, x.2, x.2⟩))

/-- The entries say exactly what was recorded, and how it was recorded does not show in them. -/
theorem recordAll_exact (scope : Scope) (samples : List Sample) :
    Exact scope samples (({} : Durations).recordAll scope samples) := by
  obtain ⟨timeline, flat⟩ := scope
  refine ⟨entries_ranked _, nodup_names _, flatSamples_recordAll _ _, ?_, ?_, ?_⟩
  · rintro rfl name t
    rw [mem_entries, table_untimed, ← samplesOf_ne_nil]
    exact ⟨fun sums => ⟨sums.ne_nil, sums⟩, fun sums => sums.2⟩
  · rintro rfl others same
    rw [recordAll_perm {} flat same]
  · rintro rfl
    exact perm_timed flat samples

end Durations

end SpanWeave
