import SpanWeave.Proofs.Recorded.RoundTrip
import SpanWeave.Proofs.Recorded.Rows

set_option autoImplicit false

/-!
# Documents with blanks and comments

However the events of a document are laid out, one a line with blanks around them, among blank lines
and comments, with either line end and with or without one behind the last line, reading the
document gives back these events in their order.
-/
namespace SpanWeave.Recorded
open Text

structure Margin where
  chars : List Char
  blank : ∀ c ∈ chars, isBlank c = true
  inline : '\n' ∉ chars

structure Remark where
  chars : List Char
  inline : '\n' ∉ chars

inductive Line where
  | event (before : Margin) (e : RecordedEvent) (after : Margin)
  | blank (margin : Margin)
  | comment (before : Margin) (remark : Remark)

namespace Line

def chars : Line → List Char
  | event before e after => before.chars ++ (Json.compact e.toJson).toList ++ after.chars
  | blank margin => margin.chars
  | comment before remark => before.chars ++ '#' :: remark.chars

def event? : Line → Option RecordedEvent
  | event _ e _ => some e
  | blank _ | comment _ _ => none

end Line

inductive LineEnd where
  | feed
  | carriage

def LineEnd.lead : LineEnd → List Char
  | feed => []
  | carriage => ['\r']

/-- A document as it is laid out; the last line may go without a line end. -/
structure Sheet where
  ended : List (Line × LineEnd)
  last : Option Line

namespace Sheet

def text (sheet : Sheet) : List Char :=
  sheet.ended.flatMap (fun l => l.1.chars ++ l.2.lead ++ ['\n']) ++ sheet.last.elim [] Line.chars

def bytes (sheet : Sheet) : List UInt8 := bytesOf sheet.text

def events (sheet : Sheet) : List RecordedEvent :=
  (sheet.ended.map Prod.fst ++ sheet.last.toList).filterMap Line.event?

end Sheet

/-! ## One line -/

theorem getLast?_compactMembers (ms : List (String × Json.Value)) :
    (Json.compactMembers ms).getLast? = some '\x7d' := by
  induction ms with
  | nil => rfl
  | cons m ms ih =>
    cases ms with
    | nil => exact List.getLast?_concat
    | cons m' ms =>
      have more : Json.compactMembers (m :: m' :: ms) =
        Json.compactMember m ++ [','] ++ Json.compactMembers (m' :: ms) := by
        rw [List.append_assoc]
        rfl
      rw [more, List.getLast?_append, ih, Option.some_or]

/-- An event begins with a bracket and ends with one. -/
theorem event_ends (e : RecordedEvent) : ∃ s, (Json.compact e.toJson).toList = '\x7b' :: s ∧
    (Json.compact e.toJson).toList.getLast? = some '\x7d' := by
  obtain ⟨ms, eq⟩ : ∃ ms, e.toJson = .object ms := by cases e <;> exact ⟨_, rfl⟩
  have chars : (Json.compact e.toJson).toList = ['\x7b'] ++ Json.compactMembers ms := by
    rw [Json.compact, String.toList_ofList, eq]
    rfl
  refine ⟨Json.compactMembers ms, chars, ?_⟩
  rw [chars, List.getLast?_append, getLast?_compactMembers, Option.some_or]

theorem trimChars_event (e : RecordedEvent) :
    trimChars (Json.compact e.toJson).toList = (Json.compact e.toJson).toList := by
  obtain ⟨s, first, last⟩ := event_ends e
  refine trimChars_of_ends (fun c eq => ?_) (fun c eq => ?_)
  · rw [first] at eq
    rw [← Option.some.inj eq]
    decide
  · rw [last] at eq
    rw [← Option.some.inj eq]
    decide

/-- The line of an event is neither blank nor a comment. -/
theorem event_counts (e : RecordedEvent) :
    ((Json.compact e.toJson).isEmpty || isComment (Json.compact e.toJson)) = false := by
  obtain ⟨s, first, _⟩ := event_ends e
  have some : Json.compact e.toJson ≠ "" := fun empty =>
    List.cons_ne_nil _ _ (first.symm.trans (String.toList_eq_nil_iff.mpr empty))
  rw [isComment, first, Bool.or_eq_false_iff, String.isEmpty_eq_false_iff]
  exact ⟨some, rfl⟩

theorem Line.inline (l : Line) : '\n' ∉ l.chars := by
  cases l with
  | event before e after =>
    have inside : '\n' ∉ (Json.compact e.toJson).toList := fun member =>
      absurd (e.shallow_toJson.plain.printable _ (String.toList_ofList ▸ member)) (by decide)
    rw [Line.chars, List.mem_append, List.mem_append]
    exact not_or.mpr ⟨not_or.mpr ⟨before.inline, inside⟩, after.inline⟩
  | blank margin => exact margin.inline
  | comment before remark =>
    rw [Line.chars, List.mem_append, List.mem_cons]
    exact not_or.mpr ⟨before.inline, not_or.mpr ⟨by decide, remark.inline⟩⟩

theorem Line.event?_of_empty {l : Line} (empty : l.chars = []) : l.event? = none := by
  cases l with
  | event before e after =>
    obtain ⟨s, first, _⟩ := event_ends e
    rw [Line.chars, first] at empty
    exact absurd (List.append_eq_nil_iff.mp (List.append_eq_nil_iff.mp empty).1).2
      (List.cons_ne_nil _ _)
  | blank => rfl
  | comment => rfl

/-- Whatever line end follows it, a line gives its event, if it has one. -/
theorem readLine_line (l : Line) {w : List Char} (blank : ∀ c ∈ w, isBlank c = true)
    (number : Nat) : readLine number (bytesOf (l.chars ++ w)) = .ok l.event? := by
  obtain ⟨text, taken, trimmed⟩ := lineText?_bytesOf (l.chars ++ w)
  rw [trimChars_append_blank blank] at trimmed
  unfold readLine
  rw [taken]
  dsimp only
  rw [trimmed]
  cases l with
  | event before e after =>
    rw [Line.chars, trimChars_append_blank after.blank, trimChars_blank_append before.blank,
      trimChars_event, String.ofList_toList, event_counts, if_neg Bool.false_ne_true,
      e.ofJson_parse_compact]
    rfl
  | blank margin =>
    rw [Line.chars, trimChars_blank margin.blank]
    rfl
  | comment before remark =>
    obtain ⟨s, bare⟩ := trimChars_cons (c := '#') (by decide) remark.chars
    have sign : isComment (String.ofList ('#' :: s)) = true := by
      rw [isComment, String.toList_ofList]
      rfl
    rw [Line.chars, trimChars_blank_append before.blank, bare, sign, Bool.or_true, if_pos rfl]
    rfl

/-! ## All lines -/

theorem LineEnd.lead_blank (ending : LineEnd) : ∀ c ∈ ending.lead, isBlank c = true := by
  cases ending with
  | feed => exact nofun
  | carriage => exact List.forall_mem_singleton.mpr rfl

/-- The lines of a sheet; an empty last line is not there. -/
theorem Sheet.lines_bytes (sheet : Sheet) : ∃ rows : List (Line × List Char),
    (∀ r ∈ rows, ∀ c ∈ r.2, isBlank c = true) ∧
    lines sheet.bytes = rows.map (fun r => bytesOf (r.1.chars ++ r.2)) ∧
    rows.filterMap (·.1.event?) = sheet.events := by
  obtain ⟨ended, last⟩ := sheet
  have inline : ∀ s ∈ ended.map fun l => l.1.chars ++ l.2.lead, '\n' ∉ s := by
    refine List.forall_mem_map.mpr fun l _ => ?_
    rw [List.mem_append]
    refine not_or.mpr ⟨l.1.inline, ?_⟩
    cases l.2 <;> decide
  have inlineLast : '\n' ∉ last.elim [] Line.chars := by
    cases last with
    | none => exact nofun
    | some l => exact l.inline
  have taken := lines_rows inline inlineLast
  rw [List.flatMap_map] at taken
  have blank : ∀ r ∈ ended.map fun l => (l.1, l.2.lead), ∀ c ∈ r.2, isBlank c = true :=
    List.forall_mem_map.mpr fun l _ => l.2.lead_blank
  by_cases empty : last.elim [] Line.chars = []
  · have silent : last.toList.filterMap Line.event? = [] := by
      cases last with
      | none => rfl
      | some l => exact List.filterMap_cons_none (Line.event?_of_empty empty)
    refine ⟨ended.map fun l => (l.1, l.2.lead), blank, ?_, ?_⟩
    · rw [if_pos empty, List.map_map] at taken
      rw [List.map_map]
      exact taken
    · rw [Sheet.events, List.filterMap_append, silent, List.append_nil, List.filterMap_map,
        List.filterMap_map]
      rfl
  · cases last with
    | none => exact absurd rfl empty
    | some l =>
      refine ⟨ended.map (fun l => (l.1, l.2.lead)) ++ [(l, [])], ?_, ?_, ?_⟩
      · exact List.forall_mem_append.mpr ⟨blank, List.forall_mem_singleton.mpr nofun⟩
      · rw [if_neg empty, List.map_append, List.map_map] at taken
        rw [List.map_append, List.map_map]
        refine taken.trans ?_
        rw [List.map_singleton, List.map_singleton, List.append_nil]
        rfl
      · rw [Sheet.events, List.filterMap_append, List.filterMap_append, List.filterMap_map,
          List.filterMap_map]
        rfl

theorem mapM_readLine {rows : List (Line × List Char)}
    (blank : ∀ r ∈ rows, ∀ c ∈ r.2, isBlank c = true) (start : Nat) :
    ((rows.map fun r => bytesOf (r.1.chars ++ r.2)).zipIdx start).mapM
      (fun p => readLine (p.2 + 1) p.1) = .ok (rows.map (·.1.event?)) := by
  have each : ∀ r ∈ rows, Gives (bytesOf (r.1.chars ++ r.2)) r.1.event? := fun r member =>
    readLine_eq_ok_iff.mp (readLine_line r.1 (blank r member) 0)
  refine readBelow_of_gives (List.forall₂_map_left_iff.mpr ?_) start
  exact List.forall₂_map_right_iff.mpr (List.forall₂_same.mpr each)

/-- A document is read to its events, whatever its layout. -/
theorem read_sheet (sheet : Sheet) : read sheet.bytes = .ok sheet.events := by
  obtain ⟨rows, blank, lines, events⟩ := sheet.lines_bytes
  have each := mapM_readLine blank 0
  rw [← lines] at each
  unfold read
  change ((Recorded.lines sheet.bytes).zipIdx.mapM fun p => readLine (p.2 + 1) p.1).bind _ = _
  rw [each, ← events, ← Function.id_comp (fun r : Line × List Char => r.1.event?),
    ← List.filterMap_map]
  rfl

end SpanWeave.Recorded
