import Mathlib.Tactic.SplitIfs
import SpanWeave.Proofs.NameFilter.Merging
import SpanWeave.Proofs.Text.Parts

set_option autoImplicit false

/-!
# What an expression means

Which expressions are read, and which names the filter accepts that they are read to, said with the
parts of the text alone: neither the order of clauses and words nor how often they stand there
matters. Patterns are those of any language: which texts compile and what they match is given.
-/
namespace SpanWeave.NameFilter
open Text

inductive ClauseKind where
  | trace
  | exclude
  deriving DecidableEq

def ClauseKind.lead : ClauseKind → String
  | .trace => "trace="
  | .exclude => "exclude="

def HasClause (s : String) (kind : ClauseKind) (list : String) : Prop :=
  IsPart ';' s (kind.lead ++ list)

def Mentions (s : String) (kind : ClauseKind) (word : String) : Prop :=
  ∃ list, HasClause s kind list ∧ IsPart ',' list word

structure WellFormed (language : PatternLanguage) (s : String) : Prop where
  nonempty : ∃ clause, IsPart ';' s clause
  led : ∀ clause, IsPart ';' s clause → ∃ (kind : ClauseKind) (list : String),
    clause = kind.lead ++ list
  compile : ∀ kind text, Mentions s kind ("/" ++ text ++ "/") →
    ∃ p, language.compile? text = some p

inductive Denotes (language : PatternLanguage) (word name : String) : Prop where
  | pattern {text : String} {p : language.Compiled} (slashes : word = "/" ++ text ++ "/")
      (compiles : language.compile? text = some p) (matched : language.isMatch p name = true)
  | launch (word : word = "launch") (member : name ∈ Catalogue.launches)
  | memcpy (word : word = "memcpy") (member : name ∈ Catalogue.copies)
  | memory (word : word = "memory") (member : name ∈ Catalogue.allocations)
  | itself (noPattern : ∀ text, word ≠ "/" ++ text ++ "/")
      (noClass : word ≠ "launch" ∧ word ≠ "memcpy" ∧ word ≠ "memory") (same : name = word)

variable {language : PatternLanguage}

/-! ## Words -/

theorem slashed?_eq_some_iff {word text : String} :
    slashed? word = some text ↔ word = "/" ++ text ++ "/" := by
  have written : ("/" ++ text ++ "/").toList = '/' :: (text.toList ++ ['/']) := by
    rw [String.toList_append, String.toList_append]
    rfl
  constructor
  · intro h
    unfold slashed? at h
    split at h
    · rename_i cs chars
      split at h
      · rename_i last
        obtain ⟨t, rfl⟩ := List.getLast?_eq_some_iff.mp last
        rw [List.dropLast_concat] at h
        cases h
        rw [← String.toList_inj, chars, written, String.toList_ofList]
      · cases h
    · cases h
  · rintro rfl
    unfold slashed?
    rw [written]
    change (if (text.toList ++ ['/']).getLast? = some '/' then _ else _) = _
    rw [if_pos List.getLast?_concat, List.dropLast_concat, String.ofList_toList]

theorem slashed?_eq_none_iff {word : String} :
    slashed? word = none ↔ ∀ text, word ≠ "/" ++ text ++ "/" := by
  rw [Option.eq_none_iff_forall_ne_some]
  exact forall_congr' fun text => not_congr slashed?_eq_some_iff

namespace Word

def Covers : Word → String → Prop
  | .names ns, name => name ∈ ns
  | .pattern p, name => p name = true

theorem exists_read_iff {word : String} : (∃ w, Word.read language word = .ok w) ↔
    ∀ text, word = "/" ++ text ++ "/" → ∃ p, language.compile? text = some p := by
  unfold Word.read
  cases slashed : slashed? word with
  | none =>
    exact ⟨fun _ text eq => (slashed?_eq_none_iff.mp slashed text eq).elim, fun _ => ⟨_, rfl⟩⟩
  | some text =>
    have unique : ∀ other, word = "/" ++ other ++ "/" → text = other := fun other eq =>
      Option.some.inj (slashed.symm.trans (slashed?_eq_some_iff.mpr eq))
    have slashes := slashed?_eq_some_iff.mp slashed
    dsimp only
    cases compiled : language.compile? text with
    | none =>
      constructor
      · rintro ⟨w, ⟨⟩⟩
      · intro all
        obtain ⟨p, found⟩ := all text slashes
        rw [compiled] at found
        cases found
    | some p =>
      refine ⟨fun _ other eq => ⟨p, ?_⟩, fun _ => ⟨_, rfl⟩⟩
      rw [← unique other eq, compiled]

theorem mem_expand_iff {word : String} (plain : ∀ text, word ≠ "/" ++ text ++ "/") (name : String) :
    name ∈ Catalogue.expand word ↔ Denotes language word name := by
  unfold Catalogue.expand
  constructor
  · intro member
    split_ifs at member with launch memcpy memory
    · exact .launch launch member
    · exact .memcpy memcpy member
    · exact .memory memory member
    · exact .itself plain ⟨launch, memcpy, memory⟩ (List.eq_of_mem_singleton member)
  · intro denotes
    cases denotes with
    | pattern slashes => exact (plain _ slashes).elim
    | launch word member => rwa [if_pos word]
    | memcpy word member =>
      subst word
      exact member
    | memory word member =>
      subst word
      exact member
    | itself _ noClass same =>
      rw [if_neg noClass.1, if_neg noClass.2.1, if_neg noClass.2.2, same]
      exact List.mem_singleton_self word

theorem covers_iff {word : String} {w : Word} (read : Word.read language word = .ok w)
    (name : String) : w.Covers name ↔ Denotes language word name := by
  unfold Word.read at read
  cases slashed : slashed? word with
  | none =>
    rw [slashed] at read
    cases read
    exact mem_expand_iff (slashed?_eq_none_iff.mp slashed) name
  | some text =>
    have slashes := slashed?_eq_some_iff.mp slashed
    rw [slashed] at read
    dsimp only at read
    cases compiled : language.compile? text with
    | none =>
      rw [compiled] at read
      cases read
    | some p =>
      rw [compiled] at read
      cases read
      refine ⟨.pattern slashes compiled, fun denotes => ?_⟩
      cases denotes with
      | pattern slashes' compiles matched =>
        cases slashed.symm.trans (slashed?_eq_some_iff.mpr slashes')
        cases compiled.symm.trans compiles
        exact matched
      | launch word =>
        subst word
        cases slashed
      | memcpy word =>
        subst word
        cases slashed
      | memory word =>
        subst word
        cases slashed
      | itself noPattern => exact (noPattern text slashes).elim

end Word

/-! ## Clauses -/

namespace ClauseKind

def opened : ClauseKind → NameFilter → NameFilter
  | .trace, f => { f with names := some (f.names.getD []) }
  | .exclude, f => f

def addWord : ClauseKind → NameFilter → Word → NameFilter
  | .trace => addTraced
  | .exclude => addExcluded

def add (kind : ClauseKind) (f : NameFilter) (words : List Word) : NameFilter :=
  words.foldl kind.addWord (kind.opened f)

def Holds : ClauseKind → NameFilter → String → Prop
  | .trace, f, name => (∃ ns, f.names = some ns ∧ name ∈ ns) ∨ f.Matched name
  | .exclude, f, name => f.isExcluded name = true

theorem holds_opened (kind kind' : ClauseKind) (f : NameFilter) (name : String) :
    kind.Holds (kind'.opened f) name ↔ kind.Holds f name := by
  cases kind' with
  | exclude => exact Iff.rfl
  | trace =>
    cases kind with
    | exclude => exact Iff.rfl
    | trace =>
      refine or_congr ?_ Iff.rfl
      cases listed : f.names with
      | none => simp [opened, listed]
      | some ns => simp [opened, listed]

theorem isExcluded_iff {f : NameFilter} {name : String} : f.isExcluded name = true ↔
    name ∈ f.excludedNames ∨ ∃ p ∈ f.excludedPatterns, p name = true := by
  rw [isExcluded, Bool.or_eq_true, List.contains_iff_mem, List.any_eq_true]

theorem holds_addTraced (f : NameFilter) (w : Word) (name : String) :
    Holds .trace (f.addTraced w) name ↔ Holds .trace f name ∨ w.Covers name := by
  cases w with
  | names ns =>
    change ((∃ all, some (f.names.getD [] ++ ns) = some all ∧ name ∈ all) ∨ f.Matched name) ↔
      ((∃ old, f.names = some old ∧ name ∈ old) ∨ f.Matched name) ∨ name ∈ ns
    cases f.names with
    | none => simp [or_comm]
    | some old => simp [or_right_comm]
  | pattern p =>
    change (_ ∨ ∃ q ∈ f.patterns ++ [p], q name = true) ↔
      (_ ∨ ∃ q ∈ f.patterns, q name = true) ∨ p name = true
    simp [or_and_right, exists_or, or_assoc, addTraced]

theorem holds_addExcluded (f : NameFilter) (w : Word) (name : String) :
    Holds .exclude (f.addExcluded w) name ↔ Holds .exclude f name ∨ w.Covers name := by
  change isExcluded _ name = true ↔ f.isExcluded name = true ∨ _
  rw [isExcluded_iff, isExcluded_iff]
  cases w with
  | names ns =>
    change name ∈ f.excludedNames ++ ns ∨ _ ↔ (name ∈ f.excludedNames ∨ _) ∨ name ∈ ns
    rw [List.mem_append, or_right_comm]
    rfl
  | pattern p =>
    change (_ ∨ ∃ q ∈ f.excludedPatterns ++ [p], q name = true) ↔
      (_ ∨ ∃ q ∈ f.excludedPatterns, q name = true) ∨ p name = true
    simp [or_and_right, exists_or, or_assoc, addExcluded]

theorem holds_addWord (kind kind' : ClauseKind) (f : NameFilter) (w : Word) (name : String) :
    kind.Holds (kind'.addWord f w) name ↔ kind.Holds f name ∨ kind' = kind ∧ w.Covers name := by
  cases kind' with
  | trace =>
    cases kind with
    | trace => rw [eq_self, true_and, addWord, holds_addTraced]
    | exclude =>
      rw [eq_false (by decide : ClauseKind.trace ≠ .exclude), false_and, or_false]
      cases w <;> exact Iff.rfl
  | exclude =>
    cases kind with
    | trace =>
      rw [eq_false (by decide : ClauseKind.exclude ≠ .trace), false_and, or_false]
      cases w <;> exact Iff.rfl
    | exclude => rw [eq_self, true_and, addWord, holds_addExcluded]

theorem holds_add (kind kind' : ClauseKind) (f : NameFilter) (words : List Word) (name : String) :
    kind.Holds (kind'.add f words) name ↔
      kind.Holds f name ∨ kind' = kind ∧ ∃ w ∈ words, w.Covers name := by
  rw [← holds_opened kind kind' f name]
  unfold add
  generalize kind'.opened f = g
  induction words generalizing g with
  | nil => simp
  | cons w words ih =>
    rw [List.foldl_cons, ih, holds_addWord, or_assoc, ← and_or_left, List.exists_mem_cons_iff]

theorem names_add (kind : ClauseKind) (f : NameFilter) (words : List Word) :
    (kind.add f words).names.isSome = true ↔ f.names.isSome = true ∨ kind = .trace := by
  cases kind with
  | trace => exact iff_of_true (Listing.foldl_addTraced words rfl) (.inr rfl)
  | exclude =>
    have kept : (exclude.add f words).names = f.names := by
      change (words.foldl addExcluded f).names = f.names
      induction words generalizing f with
      | nil => rfl
      | cons w words ih =>
        rw [List.foldl_cons, ih]
        cases w <;> rfl
    rw [kept, or_iff_left (by decide)]

theorem lead_inj {kind kind' : ClauseKind} {list list' : String}
    (same : kind.lead ++ list = kind'.lead ++ list') : kind = kind' ∧ list = list' := by
  rw [← String.toList_inj, String.toList_append, String.toList_append] at same
  have chars : kind = kind' := by
    cases kind <;> cases kind'
    case trace.exclude => cases same
    case exclude.trace => cases same
    all_goals rfl
  subst chars
  exact ⟨rfl, String.toList_inj.mp (List.append_cancel_left same)⟩

end ClauseKind

theorem mem_parts_iff {separator : Char} {s part : String} :
    part ∈ parts separator s ↔ IsPart separator s part := mem_trimmed_iff

def Compiles (language : PatternLanguage) (list : String) : Prop :=
  ∀ text, IsPart ',' list ("/" ++ text ++ "/") → ∃ p, language.compile? text = some p

def Finds (language : PatternLanguage) (list name : String) : Prop :=
  ∃ word, IsPart ',' list word ∧ Denotes language word name

theorem addClause_lead (f : NameFilter) (kind : ClauseKind) (list : String) :
    f.addClause language (kind.lead ++ list) =
      ((parts ',' list).mapM (Word.read language)).map fun words => kind.add f words := by
  have found : after? kind.lead (kind.lead ++ list) = some list := after?_eq_some_iff.mpr rfl
  unfold addClause
  cases kind with
  | trace =>
    change after? "trace=" _ = _ at found
    rw [found]
    dsimp only
    cases (parts ',' list).mapM (Word.read language) <;> rfl
  | exclude =>
    have other : after? "trace=" (ClauseKind.exclude.lead ++ list) = none := by
      rw [Option.eq_none_iff_forall_ne_some]
      intro rest eq
      have same : ClauseKind.exclude.lead ++ list = ClauseKind.trace.lead ++ rest :=
        after?_eq_some_iff.mp eq
      cases (ClauseKind.lead_inj same).1
    change after? "exclude=" _ = _ at found
    rw [other, found]
    dsimp only
    cases (parts ',' list).mapM (Word.read language) <;> rfl

theorem addClause_of_not_led (f : NameFilter) {clause : String}
    (strange : ¬∃ (kind : ClauseKind) (list : String), clause = kind.lead ++ list) :
    f.addClause language clause = .error (.badFilter (.unknownClause clause)) := by
  have other (kind : ClauseKind) : after? kind.lead clause = none := by
    rw [Option.eq_none_iff_forall_ne_some]
    exact fun list eq => strange ⟨kind, list, after?_eq_some_iff.mp eq⟩
  have traced := other .trace
  have excluded := other .exclude
  unfold addClause
  change after? "trace=" _ = _ at traced
  change after? "exclude=" _ = _ at excluded
  rw [traced, excluded]

theorem exists_words_iff (list : String) :
    (∃ words, (parts ',' list).mapM (Word.read language) = .ok words) ↔ Compiles language list := by
  rw [mapM_ok_iff]
  constructor
  · intro all text member
    exact Word.exists_read_iff.mp (all _ (mem_parts_iff.mpr member)) text rfl
  · intro all word member
    refine Word.exists_read_iff.mpr fun text slashes => all text ?_
    rw [← slashes]
    exact mem_parts_iff.mp member

theorem exists_addClause_iff (f : NameFilter) (clause : String) :
    (∃ f', f.addClause language clause = .ok f') ↔
      ∃ (kind : ClauseKind) (list : String),
        clause = kind.lead ++ list ∧ Compiles language list := by
  by_cases led : ∃ (kind : ClauseKind) (list : String), clause = kind.lead ++ list
  · obtain ⟨kind, list, rfl⟩ := led
    have only : (∃ (kind' : ClauseKind) (list' : String),
        kind.lead ++ list = kind'.lead ++ list' ∧ Compiles language list') ↔
          Compiles language list := by
      constructor
      · rintro ⟨kind', list', same, compiles⟩
        exact (ClauseKind.lead_inj same).2 ▸ compiles
      · exact fun compiles => ⟨kind, list, rfl, compiles⟩
    rw [only, ← exists_words_iff, addClause_lead]
    cases (parts ',' list).mapM (Word.read language) with
    | error e => exact ⟨nofun, nofun⟩
    | ok words => exact ⟨fun _ => ⟨words, rfl⟩, fun _ => ⟨_, rfl⟩⟩
  · rw [addClause_of_not_led f led]
    exact ⟨nofun, fun ⟨kind, list, eq, _⟩ => (led ⟨kind, list, eq⟩).elim⟩

/-- What one clause changes. -/
theorem addClause_effect {f f' : NameFilter} {kind : ClauseKind} {list : String}
    (added : f.addClause language (kind.lead ++ list) = .ok f') :
    (f'.names.isSome = true ↔ f.names.isSome = true ∨ kind = .trace) ∧
      ∀ (kind' : ClauseKind) (name : String),
        kind'.Holds f' name ↔ kind'.Holds f name ∨ kind = kind' ∧ Finds language list name := by
  rw [addClause_lead] at added
  cases read : (parts ',' list).mapM (Word.read language) with
  | error e =>
    rw [read] at added
    cases added
  | ok words =>
    rw [read] at added
    cases added
    refine ⟨ClauseKind.names_add kind f words, fun kind' name => ?_⟩
    have found : (∃ w ∈ words, w.Covers name) ↔ Finds language list name := by
      constructor
      · rintro ⟨w, member, covers⟩
        obtain ⟨word, member, read⟩ := (mem_of_mapM_ok read w).mp member
        exact ⟨word, mem_parts_iff.mp member, (Word.covers_iff read name).mp covers⟩
      · rintro ⟨word, member, denotes⟩
        obtain ⟨w, one⟩ := (mapM_ok_iff _).mp ⟨words, read⟩ word (mem_parts_iff.mpr member)
        exact ⟨w, (mem_of_mapM_ok read w).mpr ⟨word, mem_parts_iff.mpr member, one⟩,
          (Word.covers_iff one name).mpr denotes⟩
    rw [ClauseKind.holds_add, found]

/-! ## Expressions -/

theorem exists_led_cons (kind kind' : ClauseKind) (list : String) (clauses : List String)
    (holds : String → Prop) :
    (∃ l, kind'.lead ++ l ∈ (kind.lead ++ list) :: clauses ∧ holds l) ↔
      kind = kind' ∧ holds list ∨ ∃ l, kind'.lead ++ l ∈ clauses ∧ holds l := by
  simp only [List.mem_cons, or_and_right, exists_or]
  refine or_congr_left ?_
  constructor
  · rintro ⟨l, same, h⟩
    obtain ⟨rfl, rfl⟩ := ClauseKind.lead_inj same
    exact ⟨rfl, h⟩
  · rintro ⟨rfl, h⟩
    exact ⟨list, rfl, h⟩

theorem exists_foldlM_iff (clauses : List String) (f : NameFilter) :
    (∃ f', clauses.foldlM (addClause language) f = .ok f') ↔ ∀ clause ∈ clauses,
      ∃ (kind : ClauseKind) (list : String),
        clause = kind.lead ++ list ∧ Compiles language list := by
  induction clauses generalizing f with
  | nil => exact ⟨fun _ => nofun, fun _ => ⟨f, rfl⟩⟩
  | cons clause clauses ih =>
    rw [List.foldlM_cons, List.forall_mem_cons, ← exists_addClause_iff f]
    cases f.addClause language clause with
    | error e => exact ⟨nofun, nofun⟩
    | ok g =>
      rw [← ih g]
      exact ⟨fun rest => ⟨⟨g, rfl⟩, rest⟩, And.right⟩

/-- What a run over clauses changes, by one clause after the other. -/
theorem foldlM_effect (clauses : List String) {f f' : NameFilter}
    (added : clauses.foldlM (addClause language) f = .ok f') :
    (f'.names.isSome = true ↔
      f.names.isSome = true ∨ ∃ list, ClauseKind.trace.lead ++ list ∈ clauses) ∧
      ∀ (kind : ClauseKind) (name : String), kind.Holds f' name ↔
        kind.Holds f name ∨ ∃ list, kind.lead ++ list ∈ clauses ∧ Finds language list name := by
  induction clauses generalizing f with
  | nil =>
    cases added
    simp
  | cons clause clauses ih =>
    rw [List.foldlM_cons] at added
    cases first : f.addClause language clause with
    | error e =>
      rw [first] at added
      cases added
    | ok g =>
      rw [first] at added
      obtain ⟨kind, list, rfl, _⟩ := (exists_addClause_iff f clause).mp ⟨g, first⟩
      obtain ⟨named, held⟩ := addClause_effect first
      obtain ⟨named', held'⟩ := ih added
      constructor
      · have led := exists_led_cons kind .trace list clauses fun _ => True
        simp only [and_true] at led
        rw [named', named, led, or_assoc]
      · intro kind' name
        rw [held', held, exists_led_cons, or_assoc]

theorem ofExpression_eq {s clause : String} (part : IsPart ';' s clause) :
    ofExpression s language = (parts ';' s).foldlM (addClause language) all := by
  have member := mem_parts_iff.mpr part
  unfold ofExpression
  cases clauses : parts ';' s with
  | nil =>
    rw [clauses] at member
    cases member
  | cons first rest => rfl

theorem exists_ofExpression_iff (s : String) : (∃ f, ofExpression s language = .ok f) ↔
    WellFormed language s := by
  by_cases nonempty : ∃ clause, IsPart ';' s clause
  · obtain ⟨clause, part⟩ := nonempty
    rw [ofExpression_eq part, exists_foldlM_iff]
    constructor
    · intro each
      refine ⟨⟨clause, part⟩, fun other member => ?_, fun kind text => ?_⟩
      · obtain ⟨kind, list, eq, _⟩ := each other (mem_parts_iff.mpr member)
        exact ⟨kind, list, eq⟩
      · rintro ⟨list, member, word⟩
        obtain ⟨kind', list', same, compiles⟩ := each _ (mem_parts_iff.mpr member)
        obtain ⟨rfl, rfl⟩ := ClauseKind.lead_inj same
        exact compiles text word
    · intro wellFormed other member
      have part := mem_parts_iff.mp member
      obtain ⟨kind, list, rfl⟩ := wellFormed.led other part
      exact ⟨kind, list, rfl, fun text word => wellFormed.compile kind text ⟨list, part, word⟩⟩
  · constructor
    · rintro ⟨f, read⟩
      unfold ofExpression at read
      cases clauses : parts ';' s with
      | nil =>
        rw [clauses] at read
        cases read
      | cons first rest =>
        exact (nonempty ⟨first, mem_parts_iff.mp (clauses ▸ List.mem_cons_self)⟩).elim
    · exact fun wellFormed => (nonempty wellFormed.nonempty).elim

/-- The names that a clause of the kind asks for. -/
theorem ofExpression_effect {s : String} {f : NameFilter} (read : ofExpression s language = .ok f) :
    (f.names.isSome = true ↔ ∃ list, HasClause s .trace list) ∧
      ∀ (kind : ClauseKind) (name : String),
        kind.Holds f name ↔ ∃ word, Mentions s kind word ∧ Denotes language word name := by
  obtain ⟨clause, part⟩ := ((exists_ofExpression_iff s).mp ⟨f, read⟩).nonempty
  rw [ofExpression_eq part] at read
  obtain ⟨named, held⟩ := foldlM_effect _ read
  simp only [mem_parts_iff] at named held
  constructor
  · rw [named]
    exact or_iff_right Bool.false_ne_true
  · intro kind name
    have fresh : ¬kind.Holds all name := by
      cases kind with
      | trace =>
        rintro (⟨ns, ⟨⟩, _⟩ | ⟨p, ⟨⟩, _⟩)
      | exclude => exact Bool.false_ne_true
    rw [held, or_iff_right fresh]
    constructor
    · rintro ⟨list, clause, word, member, denotes⟩
      exact ⟨word, ⟨list, clause, member⟩, denotes⟩
    · rintro ⟨word, ⟨list, clause, member⟩, denotes⟩
      exact ⟨list, clause, word, member, denotes⟩

theorem accepts_ofExpression {s : String} {f : NameFilter} (read : ofExpression s language = .ok f)
    (name : String) : f.accepts name = true ↔
      (∀ word, Mentions s .exclude word → ¬Denotes language word name) ∧
      ((∀ list, ¬HasClause s .trace list) ∨
        ∃ word, Mentions s .trace word ∧ Denotes language word name) := by
  obtain ⟨named, held⟩ := ofExpression_effect read
  have listing : f.Listing := (Built.ofExpression read).listing
  have excluded : f.isExcluded name = true ↔ _ := held .exclude name
  have traced : _ ∨ f.Matched name ↔ _ := held .trace name
  have unnamed : f.names = none ↔ ∀ list, ¬HasClause s .trace list := by
    rw [← not_exists, ← named, Option.not_isSome_iff_eq_none]
  rw [accepts, Bool.and_eq_true, Bool.not_eq_true', ← Bool.not_eq_true, excluded, not_exists,
    isListed_iff listing, unnamed, traced]
  simp only [not_and]

/-! ## Order and repetition -/

/-- The clauses are the same, or have lists with the same words. -/
inductive Alike (clause clause' : String) : Prop where
  | same (eq : clause = clause')
  | words {kind : ClauseKind} {list list' : String} (left : clause = kind.lead ++ list)
      (right : clause' = kind.lead ++ list')
      (words : ∀ word, IsPart ',' list word ↔ IsPart ',' list' word)

/-- Every clause stands in the other expression, up to the order of its words and how often they
stand there. -/
def Covered (s s' : String) : Prop :=
  ∀ clause, IsPart ';' s clause → ∃ clause', IsPart ';' s' clause' ∧ Alike clause clause'

structure Rearranged (s s' : String) : Prop where
  left : Covered s s'
  right : Covered s' s

theorem Covered.hasClause {s s' : String} (h : Covered s s') {kind : ClauseKind} {list : String}
    (clause : HasClause s kind list) :
    ∃ list', HasClause s' kind list' ∧ ∀ word, IsPart ',' list word ↔ IsPart ',' list' word := by
  obtain ⟨clause', part, alike⟩ := h _ clause
  cases alike with
  | same eq =>
    subst eq
    exact ⟨list, part, fun _ => Iff.rfl⟩
  | words left right words =>
    obtain ⟨rfl, rfl⟩ := ClauseKind.lead_inj left
    subst right
    exact ⟨_, part, words⟩

theorem Covered.mentions {s s' : String} (h : Covered s s') {kind : ClauseKind} {word : String}
    (mentioned : Mentions s kind word) : Mentions s' kind word := by
  obtain ⟨list, clause, member⟩ := mentioned
  obtain ⟨list', clause', words⟩ := h.hasClause clause
  exact ⟨list', clause', (words word).mp member⟩

namespace Rearranged

variable {s s' : String}

theorem symm (h : Rearranged s s') : Rearranged s' s := ⟨h.right, h.left⟩

theorem wellFormed (h : Rearranged s s') (wellFormed : WellFormed language s) :
    WellFormed language s' := by
  refine ⟨?_, fun clause part => ?_, fun kind text mentioned => ?_⟩
  · obtain ⟨clause, part⟩ := wellFormed.nonempty
    obtain ⟨clause', part', _⟩ := h.left clause part
    exact ⟨clause', part'⟩
  · obtain ⟨clause', part', alike⟩ := h.right clause part
    cases alike with
    | same eq => exact eq ▸ wellFormed.led clause' part'
    | words left => exact ⟨_, _, left⟩
  · exact wellFormed.compile kind text (h.right.mentions mentioned)

theorem accepts (h : Rearranged s s') {f f' : NameFilter} (read : ofExpression s language = .ok f)
    (read' : ofExpression s' language = .ok f') (name : String) (accepted : f.accepts name = true) :
    f'.accepts name = true := by
  rw [accepts_ofExpression read] at accepted
  rw [accepts_ofExpression read']
  obtain ⟨kept, asked⟩ := accepted
  refine ⟨fun word mentioned => kept word (h.right.mentions mentioned), asked.imp ?_ ?_⟩
  · intro none list clause
    obtain ⟨list', clause', _⟩ := h.right.hasClause clause
    exact none list' clause'
  · rintro ⟨word, mentioned, denotes⟩
    exact ⟨word, h.left.mentions mentioned, denotes⟩

end Rearranged

/-- An expression is read if it has a clause, every clause begins with one of the leads, and every
word between slashes compiles. A name is accepted if no excluded word stands for it, and a traced
word does where there are trace clauses. The order and the number of clauses and words is
indifferent. -/
theorem ofExpression_meaning (language : PatternLanguage) (s : String) :
    ((∃ f, ofExpression s language = .ok f) ↔ WellFormed language s) ∧
      (∀ f, ofExpression s language = .ok f → ∀ name, f.accepts name = true ↔
        (∀ word, Mentions s .exclude word → ¬Denotes language word name) ∧
        ((∀ list, ¬HasClause s .trace list) ∨
          ∃ word, Mentions s .trace word ∧ Denotes language word name)) ∧
      ∀ s', Rearranged s s' →
        ((∃ f, ofExpression s language = .ok f) ↔ ∃ f, ofExpression s' language = .ok f) ∧
        ∀ f f', ofExpression s language = .ok f → ofExpression s' language = .ok f' → ∀ name,
          f.accepts name = f'.accepts name := by
  refine ⟨exists_ofExpression_iff s, fun f read => accepts_ofExpression read,
    fun s' rearranged => ⟨?_, fun f f' read read' name => ?_⟩⟩
  · rw [exists_ofExpression_iff, exists_ofExpression_iff]
    exact ⟨rearranged.wellFormed, rearranged.symm.wellFormed⟩
  · rw [Bool.eq_iff_iff]
    exact ⟨rearranged.accepts read read' name, rearranged.symm.accepts read' read name⟩

theorem ofExpression_meaning_swapped : ∃ f f' : NameFilter,
    Rearranged "trace=hipFree,/Copy/;exclude=launch"
        "exclude=launch; trace=/Copy/ ,hipFree,/Copy/" ∧
      ofExpression "trace=hipFree,/Copy/;exclude=launch" = .ok f ∧
      ofExpression "exclude=launch; trace=/Copy/ ,hipFree,/Copy/" = .ok f' ∧
      WellFormed Pattern.language "trace=hipFree,/Copy/;exclude=launch" ∧
      (∀ name, f.accepts name = f'.accepts name) ∧ f.accepts "hipFree" = true := by
  have clauses : parts ';' "trace=hipFree,/Copy/;exclude=launch" =
      ["trace=hipFree,/Copy/", "exclude=launch"] := by decide +kernel
  have clauses' : parts ';' "exclude=launch; trace=/Copy/ ,hipFree,/Copy/" =
      ["exclude=launch", "trace=/Copy/ ,hipFree,/Copy/"] := by decide +kernel
  have words : parts ',' "hipFree,/Copy/" = ["hipFree", "/Copy/"] := by decide +kernel
  have words' : parts ',' "/Copy/ ,hipFree,/Copy/" = ["/Copy/", "hipFree", "/Copy/"] := by
    decide +kernel
  have same (word : String) : IsPart ',' "hipFree,/Copy/" word ↔
      IsPart ',' "/Copy/ ,hipFree,/Copy/" word := by
    rw [← mem_parts_iff, ← mem_parts_iff, words, words']
    simp [or_comm]
  have rearranged : Rearranged "trace=hipFree,/Copy/;exclude=launch"
      "exclude=launch; trace=/Copy/ ,hipFree,/Copy/" := by
    have left : "trace=hipFree,/Copy/" = ClauseKind.trace.lead ++ "hipFree,/Copy/" := by decide
    have right : "trace=/Copy/ ,hipFree,/Copy/" =
        ClauseKind.trace.lead ++ "/Copy/ ,hipFree,/Copy/" := by decide
    refine ⟨fun clause part => ?_, fun clause part => ?_⟩
    · simp only [← mem_parts_iff, clauses, clauses', List.mem_cons, List.not_mem_nil,
        or_false] at part ⊢
      rcases part with rfl | rfl
      · exact ⟨_, .inr rfl, .words left right same⟩
      · exact ⟨_, .inl rfl, .same rfl⟩
    · simp only [← mem_parts_iff, clauses, clauses', List.mem_cons, List.not_mem_nil,
        or_false] at part ⊢
      rcases part with rfl | rfl
      · exact ⟨_, .inr rfl, .same rfl⟩
      · exact ⟨_, .inl rfl, .words right left fun word => (same word).symm⟩
  obtain ⟨f, left⟩ : ∃ f, ofExpression "trace=hipFree,/Copy/;exclude=launch" = .ok f := ⟨_, rfl⟩
  obtain ⟨read, meant, rest⟩ :=
    ofExpression_meaning Pattern.language "trace=hipFree,/Copy/;exclude=launch"
  obtain ⟨both, agree⟩ := rest _ rearranged
  obtain ⟨f', right⟩ := both.mp ⟨f, left⟩
  refine ⟨f, f', rearranged, left, right, read.mp ⟨f, left⟩, agree f f' left right, ?_⟩
  cases left
  decide +kernel

end SpanWeave.NameFilter
