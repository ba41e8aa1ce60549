import SpanWeave.Proofs.NameFilter.Meaning

set_option autoImplicit false

/-!
# Patterns between slashes

A pattern is honoured as it is written when it has neither a comma nor a semicolon, in any language
of patterns. An expression is taken apart at those first, and every pattern of a filter is one of a
text without them: what is left of another text is taken for names of operations, if it is not
refused.
-/
namespace SpanWeave.NameFilter
open Text

variable {language : PatternLanguage}

/-! ## Texts without separators -/

theorem parts_whole {separator : Char} {s : String} {c d : Char} {cs : List Char}
    (chars : s.toList = c :: (cs ++ [d])) (first : isBlank c = false) (last : isBlank d = false)
    (whole : separator ∉ s.toList) : parts separator s = [s] := by
  have trimmed : trim s = s := by
    rw [trim, chars, trimChars_of_ends, ← chars, String.ofList_toList]
    · rintro b ⟨⟩
      exact first
    · rw [← List.cons_append, List.getLast?_concat]
      rintro b ⟨⟩
      exact last
  have visible : s.isEmpty = false := by
    rw [← Bool.not_eq_true, String.isEmpty_iff]
    rintro rfl
    cases chars
  rw [parts, splitAt, List.splitOn_eq_singleton whole, List.map_singleton, List.map_singleton,
    String.ofList_toList, trimmed]
  exact List.filter_cons_of_pos (by rw [visible]; rfl)

section

variable {text : String} (kind : ClauseKind)

theorem toList_slashes : ("/" ++ text ++ "/").toList = '/' :: (text.toList ++ ['/']) := by
  rw [String.toList_append, String.toList_append]
  rfl

theorem words_slashes (comma : ',' ∉ text.toList) :
    parts ',' ("/" ++ text ++ "/") = ["/" ++ text ++ "/"] := by
  refine parts_whole toList_slashes rfl rfl ?_
  rw [toList_slashes]
  simp [comma]

theorem clauses_slashes (semicolon : ';' ∉ text.toList) :
    parts ';' (kind.lead ++ ("/" ++ text ++ "/")) = [kind.lead ++ ("/" ++ text ++ "/")] := by
  have chars : ∃ c cs, (kind.lead ++ ("/" ++ text ++ "/")).toList = c :: (cs ++ ['/']) ∧
      isBlank c = false := by
    rw [String.toList_append, toList_slashes]
    cases kind with
    | trace => exact ⟨'t', "race=/".toList ++ text.toList, rfl, rfl⟩
    | exclude => exact ⟨'e', "xclude=/".toList ++ text.toList, rfl, rfl⟩
  obtain ⟨c, cs, chars, visible⟩ := chars
  refine parts_whole chars visible rfl ?_
  rw [String.toList_append, toList_slashes]
  cases kind <;> simp [ClauseKind.lead, semicolon]

/-- The clause has one word, and it is read by itself. -/
theorem ofExpression_slashes (language : PatternLanguage) (comma : ',' ∉ text.toList)
    (semicolon : ';' ∉ text.toList) :
    ofExpression (kind.lead ++ ("/" ++ text ++ "/")) language =
      match language.compile? text with
      | some p => .ok (kind.add all [.pattern (language.isMatch p)])
      | none => .error (.badFilter (.badPattern text)) := by
  have slashed : slashed? ("/" ++ text ++ "/") = some text := slashed?_eq_some_iff.mpr rfl
  rw [ofExpression, clauses_slashes kind semicolon]
  change [_].foldlM (addClause language) all = _
  rw [List.foldlM_cons, addClause_lead, words_slashes comma, List.mapM_cons, Word.read, slashed]
  dsimp only
  cases language.compile? text <;> rfl

theorem accepts_pattern (p : String → Bool) (name : String) :
    (kind.add all [.pattern p]).accepts name =
      match kind with
      | .trace => p name
      | .exclude => !p name := by
  cases kind with
  | trace =>
    simp [ClauseKind.add, ClauseKind.addWord, ClauseKind.opened, addTraced, accepts, isExcluded,
      isListed, all]
  | exclude =>
    simp [ClauseKind.add, ClauseKind.addWord, ClauseKind.opened, addExcluded, accepts, isExcluded,
      isListed, all]

end

/-! ## Texts with separators -/

def Unsplit (language : PatternLanguage) (p : String → Bool) : Prop :=
  ∃ text compiled, language.compile? text = some compiled ∧ language.isMatch compiled = p ∧
    ',' ∉ text.toList ∧ ';' ∉ text.toList

def AllUnsplit (language : PatternLanguage) (f : NameFilter) : Prop :=
  ∀ p, p ∈ f.patterns ∨ p ∈ f.excludedPatterns → Unsplit language p

theorem Word.eq_of_read_pattern {word : String} {p : String → Bool}
    (read : Word.read language word = .ok (.pattern p)) :
    ∃ text compiled, word = "/" ++ text ++ "/" ∧ language.compile? text = some compiled ∧
      language.isMatch compiled = p := by
  unfold Word.read at read
  cases slashed : slashed? word with
  | none =>
    rw [slashed] at read
    cases read
  | some text =>
    rw [slashed] at read
    dsimp only at read
    cases compiled : language.compile? text with
    | none =>
      rw [compiled] at read
      cases read
    | some q =>
      rw [compiled] at read
      cases read
      exact ⟨text, q, slashed?_eq_some_iff.mp slashed, compiled, rfl⟩

namespace AllUnsplit

theorem addWord {f : NameFilter} (h : AllUnsplit language f) (kind : ClauseKind) (w : Word)
    (whole : ∀ p, w = .pattern p → Unsplit language p) :
    AllUnsplit language (kind.addWord f w) := by
  cases w with
  | names ns => cases kind <;> exact h
  | pattern q =>
    intro p member
    have new : p = q → Unsplit language p := fun eq => eq ▸ whole q rfl
    cases kind with
    | trace =>
      rcases member with member | member
      · rcases List.mem_append.mp member with old | added
        · exact h p (.inl old)
        · exact new (List.eq_of_mem_singleton added)
      · exact h p (.inr member)
    | exclude =>
      rcases member with member | member
      · exact h p (.inl member)
      · rcases List.mem_append.mp member with old | added
        · exact h p (.inr old)
        · exact new (List.eq_of_mem_singleton added)

theorem add {f : NameFilter} (h : AllUnsplit language f) (kind : ClauseKind) (words : List Word)
    (whole : ∀ p, .pattern p ∈ words → Unsplit language p) :
    AllUnsplit language (kind.add f words) := by
  have opened : AllUnsplit language (kind.opened f) := by cases kind <;> exact h
  unfold ClauseKind.add
  generalize kind.opened f = g at opened
  induction words generalizing g with
  | nil => exact opened
  | cons w words ih =>
    refine ih (fun p member => whole p (List.mem_cons_of_mem w member)) _ ?_
    exact opened.addWord kind w fun p eq => whole p (eq ▸ List.mem_cons_self)

theorem addClause {f f' : NameFilter} {clause : String} (h : AllUnsplit language f)
    (semicolon : ';' ∉ clause.toList) (added : f.addClause language clause = .ok f') :
    AllUnsplit language f' := by
  obtain ⟨kind, list, rfl, _⟩ := (exists_addClause_iff f clause).mp ⟨f', added⟩
  rw [addClause_lead] at added
  cases read : (parts ',' list).mapM (Word.read language) with
  | error e =>
    rw [read] at added
    cases added
  | ok words =>
    rw [read] at added
    cases added
    refine h.add kind words fun p member => ?_
    obtain ⟨word, part, one⟩ := (mem_of_mapM_ok read _).mp member
    obtain ⟨text, compiled, rfl, compiles, same⟩ := Word.eq_of_read_pattern one
    have part := mem_parts_iff.mp part
    have inside {c : Char} (member : c ∈ text.toList) : c ∈ ("/" ++ text ++ "/").toList := by
      rw [toList_slashes]
      exact List.mem_cons_of_mem _ (List.mem_append_left _ member)
    refine ⟨text, compiled, compiles, same, fun comma => part.separator_not_mem (inside comma),
      fun member => ?_⟩
    rw [String.toList_append] at semicolon
    exact semicolon (List.mem_append_right _ (part.mem (inside member)))

theorem ofExpression {s : String} {f : NameFilter} (read : ofExpression s language = .ok f) :
    AllUnsplit language f := by
  obtain ⟨clause, part⟩ := ((exists_ofExpression_iff s).mp ⟨f, read⟩).nonempty
  rw [ofExpression_eq part] at read
  refine foldlM_keeps (fun clause member f f' h added => ?_) ?_ read
  · exact h.addClause (mem_parts_iff.mp member).separator_not_mem added
  · rintro p (member | member) <;> cases member

end AllUnsplit

/-- A text without a comma and a semicolon decides alone as a pattern, and is refused if it does not
compile. Every pattern of any filter is what such a text compiles to. -/
theorem slashes_honoured (language : PatternLanguage) (text : String) :
    (',' ∉ text.toList → ';' ∉ text.toList →
      (∀ p, language.compile? text = some p →
        (∃ f, ofExpression ("trace=" ++ ("/" ++ text ++ "/")) language = .ok f ∧
          ∀ name, f.accepts name = language.isMatch p name) ∧
        ∃ f, ofExpression ("exclude=" ++ ("/" ++ text ++ "/")) language = .ok f ∧
          ∀ name, f.accepts name = !language.isMatch p name) ∧
      (language.compile? text = none → ∀ kind : ClauseKind,
        ofExpression (kind.lead ++ ("/" ++ text ++ "/")) language =
          .error (.badFilter (.badPattern text)))) ∧
    ∀ s f, ofExpression s language = .ok f → ∀ p, p ∈ f.patterns ∨ p ∈ f.excludedPatterns →
      ∃ text' compiled, language.compile? text' = some compiled ∧ language.isMatch compiled = p ∧
        ',' ∉ text'.toList ∧ ';' ∉ text'.toList := by
  refine ⟨fun comma semicolon => ⟨fun p compiles => ⟨?_, ?_⟩, fun bad kind => ?_⟩,
    fun s f read => AllUnsplit.ofExpression read⟩
  · have read := ofExpression_slashes .trace language comma semicolon
    rw [compiles] at read
    exact ⟨_, read, accepts_pattern .trace (language.isMatch p)⟩
  · have read := ofExpression_slashes .exclude language comma semicolon
    rw [compiles] at read
    exact ⟨_, read, accepts_pattern .exclude (language.isMatch p)⟩
  · rw [ofExpression_slashes kind language comma semicolon, bad]

theorem slashes_honoured_of_anchors : ∃ f f' : NameFilter,
    ofExpression ("trace=" ++ ("/" ++ "^hip.+loc ?$" ++ "/")) = .ok f ∧
      ofExpression ("exclude=" ++ ("/" ++ "^hip.+loc ?$" ++ "/")) = .ok f' ∧
      f.accepts "hipMalloc" = true ∧ f'.accepts "hipMalloc" = false ∧
      f'.accepts "hipFree" = true := by
  have compiles : (Pattern.language.compile? "^hip.+loc ?$").any (fun p =>
      Pattern.language.isMatch p "hipMalloc" && !Pattern.language.isMatch p "hipFree") = true := by
    decide +kernel
  obtain ⟨p, compiled, matched⟩ := (Option.any_eq_true _ _).mp compiles
  rw [Bool.and_eq_true, Bool.not_eq_true'] at matched
  obtain ⟨⟨f, read, traced⟩, f', read', excluded⟩ :=
    ((slashes_honoured Pattern.language "^hip.+loc ?$").1 (by decide) (by decide)).1 p compiled
  refine ⟨f, f', read, read', ?_, ?_, ?_⟩
  · rw [traced, matched.1]
  · rw [excluded, matched.1, Bool.not_true]
  · rw [excluded, matched.2, Bool.not_false]

/-- In every language the expression is read to a filter that rejects the name, so also in one where
the text between the slashes is a pattern that matches it. -/
theorem slashes_damaged :
    (∃ p, Pattern.language.compile? "^hip.\x7b3,9\x7d$" = some p ∧
      Pattern.language.isMatch p "hipMalloc" = true) ∧
    ∀ language, ∃ f,
      ofExpression ("trace=" ++ ("/" ++ "^hip.\x7b3,9\x7d$" ++ "/")) language = .ok f ∧
      f.accepts "hipMalloc" = false := by
  refine ⟨?_, fun language => ?_⟩
  · have compiles : (Pattern.language.compile? "^hip.\x7b3,9\x7d$").any
        (fun p => Pattern.language.isMatch p "hipMalloc") = true := by
      decide +kernel
    exact (Option.any_eq_true _ _).mp compiles
  · -- both words have one slash only, so they are names
    refine ⟨{ names := some ["/^hip.\x7b3", "9\x7d$/"] }, rfl, ?_⟩
    decide +kernel

end SpanWeave.NameFilter
