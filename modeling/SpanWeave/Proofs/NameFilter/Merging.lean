import Mathlib.Tactic.Tauto
import SpanWeave.NameFilter
import SpanWeave.Proofs.Lists

set_option autoImplicit false

/-!
# Merged filters

What a merged filter accepts, for filters that were made in any way. Exclusions of either count, and
so do names that both list. A pattern of one filter is enough to list a name in the merged one,
whether the other filter lists the name or not: there merging accepts more than both filters do.
-/
namespace SpanWeave.NameFilter

/-- The filters that expressions and merges lead to. -/
inductive Built (language : PatternLanguage) : NameFilter → Prop
  | all : Built language all
  | standard : Built language standard
  | ofExpression {s : String} {f : NameFilter} (read : ofExpression s language = .ok f) :
      Built language f
  | merge {f g : NameFilter} (left : Built language f) (right : Built language g) :
      Built language (f.merge g)

variable {language : PatternLanguage}

/-- Where there are patterns there is a list of names too, if an empty one. -/
def Listing (f : NameFilter) : Prop := f.names = none → f.patterns = []

def Matched (f : NameFilter) (name : String) : Prop := ∃ p ∈ f.patterns, p name = true

theorem isListed_iff {f : NameFilter} (listing : f.Listing) (name : String) :
    f.isListed name = true ↔
      f.names = none ∨ (∃ names, f.names = some names ∧ name ∈ names) ∨ f.Matched name := by
  unfold isListed Matched
  cases listed : f.names with
  | none => simp [listing listed]
  | some names => simp

theorem matched_merge {f g : NameFilter} {name : String} :
    (f.merge g).Matched name ↔ f.Matched name ∨ g.Matched name := by
  simp only [Matched, merge, List.mem_append, or_and_right, exists_or]

namespace Listing

theorem addTraced {f : NameFilter} (h : f.names.isSome) (w : Word) :
    (f.addTraced w).names.isSome := by
  cases w with
  | names names => rfl
  | pattern p => exact h

theorem foldl_addTraced (words : List Word) {f : NameFilter} (h : f.names.isSome) :
    (words.foldl NameFilter.addTraced f).names.isSome := by
  induction words generalizing f with
  | nil => exact h
  | cons w words ih => exact ih (addTraced h w)

theorem foldl_addExcluded (words : List Word) {f : NameFilter} (h : f.Listing) :
    (words.foldl NameFilter.addExcluded f).Listing := by
  induction words generalizing f with
  | nil => exact h
  | cons w words ih =>
    refine ih ?_
    cases w with
    | names names => exact h
    | pattern p => exact h

theorem addClause {f f' : NameFilter} {clause : String} (h : f.Listing)
    (added : f.addClause language clause = .ok f') : f'.Listing := by
  unfold NameFilter.addClause at added
  split at added
  · rename_i list _
    cases words : (parts ',' list).mapM (Word.read language) with
    | error e =>
      rw [words] at added
      cases added
    | ok words' =>
      rw [words] at added
      cases added
      have listed := foldl_addTraced words' (f := { f with names := some (f.names.getD []) }) rfl
      intro none
      rw [none] at listed
      cases listed
  · rename_i list _ _
    cases words : (parts ',' list).mapM (Word.read language) with
    | error e =>
      rw [words] at added
      cases added
    | ok words' =>
      rw [words] at added
      cases added
      exact foldl_addExcluded words' h
  · cases added

theorem merge {f g : NameFilter} (hf : f.Listing) (hg : g.Listing) : (f.merge g).Listing := by
  intro none
  unfold NameFilter.merge at none ⊢
  dsimp only at none ⊢
  cases left : f.names with
  | none =>
    rw [left] at none
    rw [hf left, hg none]
    rfl
  | some names =>
    rw [left] at none
    cases right : g.names <;> rw [right] at none <;> cases none

end Listing

theorem Built.listing {f : NameFilter} (h : Built language f) : f.Listing := by
  induction h with
  | all => exact fun _ => rfl
  | standard => exact fun _ => rfl
  | @ofExpression s f read =>
    unfold NameFilter.ofExpression at read
    split at read
    · cases read
    · exact foldlM_keeps (fun _ _ _ _ h added => h.addClause added) (fun _ => rfl) read
  | merge _ _ left right => exact left.merge right

/-- A merged filter lists what both list, and what a pattern of either matches. -/
theorem isListed_merge {f g : NameFilter} (hf : f.Listing) (hg : g.Listing) (name : String) :
    (f.merge g).isListed name = true ↔
      (f.isListed name = true ∧ g.isListed name = true) ∨ f.Matched name ∨ g.Matched name := by
  rw [isListed_iff (hf.merge hg), isListed_iff hf, isListed_iff hg, matched_merge]
  -- what is left to compare are the lists of names, which each filter has or has not
  cases left : f.names <;> cases right : g.names <;>
    simp only [merge, left, right, Option.some.injEq, reduceCtorEq, false_or, exists_eq_left',
      true_and, and_true, true_or, List.mem_filter, List.contains_iff_mem]
  all_goals tauto

/-- A merged filter accepts what both accept, and what neither excludes and a trace pattern of
either matches. So merging is intersection for just those names that no such pattern brings in. -/
theorem merge_accepts {f g : NameFilter} (hf : Built language f) (hg : Built language g)
    (name : String) :
    ((f.merge g).accepts name = true ↔ (f.accepts name = true ∧ g.accepts name = true) ∨
      f.isExcluded name = false ∧ g.isExcluded name = false ∧ (f.Matched name ∨ g.Matched name)) ∧
    ((f.merge g).accepts name = (f.accepts name && g.accepts name) ↔
      (f.isExcluded name = false → g.isExcluded name = false → f.Matched name ∨ g.Matched name →
        f.isListed name = true ∧ g.isListed name = true)) := by
  have accepted : ∀ h : NameFilter,
      h.accepts name = true ↔ h.isExcluded name = false ∧ h.isListed name = true := by
    intro h
    rw [accepts, Bool.and_eq_true, Bool.not_eq_true']
  have merged : (f.merge g).accepts name = true ↔
      (f.accepts name = true ∧ g.accepts name = true) ∨
        f.isExcluded name = false ∧ g.isExcluded name = false ∧
          (f.Matched name ∨ g.Matched name) := by
    rw [accepted, accepted, accepted, isListed_merge hf.listing hg.listing, isExcluded_merge,
      Bool.or_eq_false_iff, and_or_left, and_and_and_comm, and_assoc (c := _ ∨ _)]
  refine ⟨merged, ?_⟩
  rw [Bool.eq_iff_iff, merged, Bool.and_eq_true, or_iff_left_iff_imp, accepted, accepted,
    and_and_and_comm, and_imp, and_imp]
  refine forall_congr' fun left => forall_congr' fun right => forall_congr' fun _ => ?_
  exact and_iff_right ⟨left, right⟩

/-- Both filters list the name, one by a pattern. -/
theorem merge_accepts_of_pattern_and_name : ∃ f g : NameFilter,
    Built Pattern.language f ∧ Built Pattern.language g ∧ f.Matched "hipMemcpy" ∧
      (f.merge g).accepts "hipMemcpy" = true := by
  obtain ⟨f, left⟩ : ∃ f, ofExpression "trace=/Mem/;exclude=/Async/" = .ok f := ⟨_, rfl⟩
  obtain ⟨g, right⟩ : ∃ g, ofExpression "trace=memcpy" = .ok g := ⟨_, rfl⟩
  have merged := (merge_accepts (.ofExpression left) (.ofExpression right) "hipMemcpy").1
  have both : f.accepts "hipMemcpy" = true ∧ g.accepts "hipMemcpy" = true := by
    cases left
    cases right
    decide +kernel
  refine ⟨f, g, .ofExpression left, .ofExpression right, ?_, merged.mpr (.inl both)⟩
  cases left
  exact ⟨_, List.mem_singleton_self _, by decide +kernel⟩

/-- A pattern of one filter lets a name through that the other filter does not list, in every
language where the pattern compiles and matches the name. -/
theorem merge_accepts_unlisted :
    (∃ p, Pattern.language.compile? "Mem" = some p ∧
      Pattern.language.isMatch p "hipMemcpy" = true) ∧
    ∀ language p, language.compile? "Mem" = some p → language.isMatch p "hipMemcpy" = true →
      ∃ f g, ofExpression "trace=/Mem/" language = .ok f ∧
        ofExpression "trace=hipFree" language = .ok g ∧ Built language f ∧ Built language g ∧
        g.accepts "hipMemcpy" = false ∧
        (f.merge g).accepts "hipMemcpy" ≠ (f.accepts "hipMemcpy" && g.accepts "hipMemcpy") := by
  refine ⟨?_, fun language p compiles matched => ?_⟩
  · have found : (Pattern.language.compile? "Mem").any
        (fun p => Pattern.language.isMatch p "hipMemcpy") = true := by
      decide +kernel
    exact (Option.any_eq_true _ _).mp found
  · let f : NameFilter := { names := some [], patterns := [language.isMatch p] }
    let g : NameFilter := { names := some ["hipFree"] }
    have left : ofExpression "trace=/Mem/" language = .ok f := by
      have clause : parts ';' "trace=/Mem/" = ["trace=/Mem/"] := by decide +kernel
      have list : Text.after? "trace=" "trace=/Mem/" = some "/Mem/" := by decide +kernel
      have word : parts ',' "/Mem/" = ["/Mem/"] := by decide +kernel
      have slashed : slashed? "/Mem/" = some "Mem" := by decide +kernel
      have read : Word.read language "/Mem/" = .ok (.pattern (language.isMatch p)) := by
        rw [Word.read, slashed]
        dsimp only
        rw [compiles]
      rw [ofExpression, clause]
      change [_].foldlM (addClause language) all = _
      rw [List.foldlM_cons, addClause, list]
      dsimp only
      rw [word, List.mapM_cons, read]
      rfl
    have right : ofExpression "trace=hipFree" language = .ok g := rfl
    have rejected : g.accepts "hipMemcpy" = false := by decide +kernel
    have merged := (merge_accepts (.ofExpression left) (.ofExpression right) "hipMemcpy").1
    have accepted : (f.merge g).accepts "hipMemcpy" = true :=
      merged.mpr (.inr ⟨rfl, rfl, .inl ⟨_, List.mem_singleton_self _, matched⟩⟩)
    refine ⟨f, g, left, right, .ofExpression left, .ofExpression right, rejected, ?_⟩
    rw [accepted, rejected, Bool.and_false]
    exact Bool.true_eq_false.mp

end SpanWeave.NameFilter
