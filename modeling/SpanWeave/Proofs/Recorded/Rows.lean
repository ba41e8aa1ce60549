import Mathlib.Data.List.Forall2
import SpanWeave.Proofs.Recorded.Lines

set_option autoImplicit false

/-!
# Any document, row by row

A document is any sequence of bytes. Its rows are what stands between line feeds; each of them is
passed over, gives an event, or offends. What a document is read to is said here of its rows alone,
with no text decoded and nothing trimmed: a row *holds* a text if it spells that text between
blanks. The first row that offends decides which fault is reported, and its number is its place
among all rows, so rows that are passed over move that number and nothing else.
-/
namespace SpanWeave.Recorded
open Text

/-! ## Rows of a document -/

/-- The rows of a document: line feeds end rows, and what follows the last line feed is a row only
if it is not empty. -/
inductive Rows : List UInt8 → List (List UInt8) → Prop
  | none : Rows [] []
  | unended {row : List UInt8} (filled : row ≠ []) (inline : 10 ∉ row) : Rows row [row]
  | ended {row rest : List UInt8} {rows : List (List UInt8)} (inline : 10 ∉ row)
      (others : Rows rest rows) : Rows (row ++ 10 :: rest) (row :: rows)

theorem lines_ended {row : List UInt8} (inline : 10 ∉ row) (rest : List UInt8) :
    lines (row ++ 10 :: rest) = row :: lines rest := by
  -- there is always a part behind the line feed, so the last part is that of the rest
  obtain ⟨part, parts, split⟩ := List.exists_cons_of_ne_nil (List.splitOn_ne_nil 10 rest)
  unfold lines
  dsimp only
  rw [List.splitOn_append_cons_self_of_not_mem inline, split, List.getLast?_cons_cons]
  split_ifs with ending
  · rfl
  · rfl

theorem Rows.lines_eq {document : List UInt8} {rows : List (List UInt8)}
    (h : Rows document rows) : lines document = rows := by
  induction h with
  | none => rfl
  | unended filled inline =>
    unfold lines
    rw [List.splitOn_eq_singleton inline]
    exact if_neg fun empty => filled (Option.some.inj empty)
  | ended inline others ih => rw [lines_ended inline, ih]

theorem exists_rows (document : List UInt8) : ∃ rows, Rows document rows := by
  induction size : document.length using Nat.strongRecOn generalizing document with
  | ind size ih =>
    by_cases fed : 10 ∈ document
    · obtain ⟨row, rest, rfl, inline⟩ := List.eq_append_cons_of_mem fed
      rw [List.length_append, List.length_cons] at size
      obtain ⟨rows, others⟩ := ih rest.length (by omega) rest rfl
      exact ⟨row :: rows, .ended inline others⟩
    · by_cases empty : document = []
      · exact ⟨[], empty ▸ .none⟩
      · exact ⟨[document], .unended empty fed⟩

/-- A document has one sequence of rows. -/
theorem rows_iff {document : List UInt8} {rows : List (List UInt8)} :
    Rows document rows ↔ rows = lines document := by
  refine ⟨fun h => h.lines_eq.symm, ?_⟩
  rintro rfl
  obtain ⟨rows, h⟩ := exists_rows document
  exact h.lines_eq ▸ h

/-! ## Texts of rows -/

/-- The text that a row spells; one carriage return at the end of the row is not part of it. -/
inductive Spells : List UInt8 → List Char → Prop
  | carriage (s : List Char) : Spells (bytesOf s ++ [13]) s
  | plain {s : List Char} (whole : (bytesOf s).getLast? ≠ some 13) : Spells (bytesOf s) s

/-- A row holds a text if there is nothing else on it but blanks around that text. -/
structure Holds (row : List UInt8) (text : List Char) : Prop where
  bare : IsBare text
  spelled : ∃ w w', (∀ c ∈ w, isBlank c = true) ∧ (∀ c ∈ w', isBlank c = true) ∧
    Spells row (w ++ (text ++ w'))

theorem lineText?_eq_some_iff {row : List UInt8} {text : String} :
    lineText? row = some text ↔ Spells row text.toList := by
  constructor
  · intro taken
    unfold lineText? at taken
    dsimp only at taken
    split_ifs at taken with carriage
    · obtain ⟨row, rfl⟩ := List.getLast?_eq_some_iff.mp carriage
      rw [List.dropLast_concat] at taken
      rw [bytesOf_of_fromUTF8? taken]
      exact .carriage _
    · have eq := bytesOf_of_fromUTF8? taken
      rw [eq] at carriage ⊢
      exact .plain carriage
  · intro spelled
    rw [← text.ofList_toList]
    generalize text.toList = s at spelled
    unfold lineText?
    cases spelled with
    | carriage =>
      rw [if_pos List.getLast?_concat, List.dropLast_concat]
      exact fromUTF8?_bytesOf s
    | plain whole =>
      rw [if_neg whole]
      exact fromUTF8?_bytesOf s

/-- Dropping a carriage return makes no difference to which rows spell a text at all. -/
theorem exists_spells_iff {row : List UInt8} : (∃ s, Spells row s) ↔ ∃ s, row = bytesOf s := by
  constructor
  · rintro ⟨s, spelled⟩
    cases spelled with
    | carriage => exact ⟨s ++ ['\r'], (bytesOf_concat_carriage s).symm⟩
    | plain => exact ⟨s, rfl⟩
  · rintro ⟨s, rfl⟩
    by_cases ending : (bytesOf s).getLast? = some 13
    · obtain ⟨t, rfl⟩ := List.getLast?_eq_some_iff.mp (getLast?_of_bytesOf ending)
      exact ⟨t, bytesOf_concat_carriage t ▸ .carriage t⟩
    · exact ⟨s, .plain ending⟩

theorem holds_iff {row : List UInt8} {text : List Char} :
    Holds row text ↔ ∃ line, lineText? row = some line ∧ trimChars line.toList = text := by
  constructor
  · rintro ⟨bare, w, w', blank, blank', spelled⟩
    refine ⟨String.ofList (w ++ (text ++ w')), lineText?_eq_some_iff.mpr ?_, ?_⟩
    · rwa [String.toList_ofList]
    · rw [String.toList_ofList]
      exact trimChars_eq_iff.mpr ⟨bare, w, w', blank, blank', rfl⟩
  · rintro ⟨line, taken, trimmed⟩
    obtain ⟨bare, w, w', blank, blank', eq⟩ := trimChars_eq_iff.mp trimmed
    exact ⟨bare, w, w', blank, blank', eq ▸ lineText?_eq_some_iff.mp taken⟩

/-! ## One row -/

def IsPassed (text : List Char) : Prop := text = [] ∨ text.head? = some '#'

/-- A row that can be read gives an event or is passed over. -/
inductive Gives (row : List UInt8) : Option RecordedEvent → Prop
  | nothing {text : List Char} (holds : Holds row text) (passed : IsPassed text) : Gives row none
  | event {text : List Char} {e : RecordedEvent} (holds : Holds row text)
      (counts : ¬IsPassed text)
      (decoded : (Json.parse (String.ofList text)).bind RecordedEvent.ofJson = some e) :
      Gives row (some e)

/-- A row that cannot be read, and what it is reported as if it has this number. -/
inductive Offends (number : Nat) (row : List UInt8) : Fault → Prop
  | garbled (invalid : ∀ s, row ≠ bytesOf s) : Offends number row .notUtf8
  | undecodable {text : List Char} (holds : Holds row text) (counts : ¬IsPassed text)
      (garbage : (Json.parse (String.ofList text)).bind RecordedEvent.ofJson = none) :
      Offends number row (.undecodable number)

theorem isPassed_iff {text : List Char} :
    ((String.ofList text).isEmpty || isComment (String.ofList text)) = true ↔ IsPassed text := by
  rw [Bool.or_eq_true, String.isEmpty_iff, String.ofList_eq_empty_iff, isComment, beq_iff_eq,
    String.toList_ofList, IsPassed]

/-- Reading a row that holds a text. -/
theorem readLine_of_holds {row : List UInt8} {text : List Char} (holds : Holds row text)
    (number : Nat) : readLine number row =
      if (String.ofList text).isEmpty || isComment (String.ofList text) then .ok none
      else ((Json.parse (String.ofList text)).bind RecordedEvent.ofJson).elim
        (.error (.undecodable number)) fun e => .ok (some e) := by
  obtain ⟨line, taken, trimmed⟩ := holds_iff.mp holds
  unfold readLine
  rw [taken]
  dsimp only
  rw [trim, trimmed]
  cases (Json.parse (String.ofList text)).bind RecordedEvent.ofJson with
  | none => rfl
  | some e => rfl

theorem Gives.readLine_eq {row : List UInt8} {o : Option RecordedEvent} (h : Gives row o)
    (number : Nat) : readLine number row = .ok o := by
  cases h with
  | nothing holds passed => rw [readLine_of_holds holds, if_pos (isPassed_iff.mpr passed)]
  | event holds counts decoded =>
    rw [readLine_of_holds holds, if_neg (mt isPassed_iff.mp counts), decoded]
    rfl

theorem Offends.readLine_eq {number : Nat} {row : List UInt8} {fault : Fault}
    (h : Offends number row fault) : readLine number row = .error fault := by
  cases h with
  | garbled invalid =>
    have untaken : lineText? row = none := by
      refine Option.eq_none_iff_forall_ne_some.mpr fun line taken => ?_
      obtain ⟨s, eq⟩ := exists_spells_iff.mp ⟨_, lineText?_eq_some_iff.mp taken⟩
      exact invalid s eq
    unfold readLine
    rw [untaken]
  | undecodable holds counts garbage =>
    rw [readLine_of_holds holds, if_neg (mt isPassed_iff.mp counts), garbage]
    rfl

/-- There is no third kind of row. -/
theorem gives_or_offends (number : Nat) (row : List UInt8) :
    (∃ o, Gives row o) ∨ ∃ fault, Offends number row fault := by
  cases taken : lineText? row with
  | none =>
    refine .inr ⟨_, .garbled fun s eq => ?_⟩
    obtain ⟨t, spelled⟩ := exists_spells_iff.mpr ⟨s, eq⟩
    have text : lineText? row = some (String.ofList t) :=
      lineText?_eq_some_iff.mpr (String.toList_ofList.symm ▸ spelled)
    cases taken.symm.trans text
  | some line =>
    have holds : Holds row (trimChars line.toList) := holds_iff.mpr ⟨line, taken, rfl⟩
    by_cases passed : IsPassed (trimChars line.toList)
    · exact .inl ⟨_, .nothing holds passed⟩
    · cases decoded : (Json.parse (String.ofList (trimChars line.toList))).bind
        RecordedEvent.ofJson with
      | none => exact .inr ⟨_, .undecodable holds passed decoded⟩
      | some e => exact .inl ⟨_, .event holds passed decoded⟩

theorem readLine_eq_ok_iff {number : Nat} {row : List UInt8} {o : Option RecordedEvent} :
    readLine number row = .ok o ↔ Gives row o := by
  refine ⟨fun done => ?_, fun gives => gives.readLine_eq number⟩
  rcases gives_or_offends number row with ⟨o', gives⟩ | ⟨fault, offends⟩
  · exact Except.ok.inj ((gives.readLine_eq number).symm.trans done) ▸ gives
  · cases offends.readLine_eq.symm.trans done

/-! ## Rows in order -/

/-- What a document with these rows is read to, with `above` more rows before them. -/
def readBelow (above : Nat) (rows : List (List UInt8)) :
    Except Fault (List (Option RecordedEvent)) :=
  (rows.zipIdx above).mapM fun row => readLine (row.2 + 1) row.1

def FirstFault (above : Nat) (rows : List (List UInt8)) (fault : Fault) : Prop :=
  ∃ before readings row after, rows = before ++ row :: after ∧
    List.Forall₂ Gives before readings ∧ Offends (above + before.length + 1) row fault

theorem read_eq (document : List UInt8) :
    read document = (readBelow 0 (lines document)).map (List.filterMap id) := rfl

theorem readBelow_cons (above : Nat) (row : List UInt8) (rows : List (List UInt8)) :
    readBelow above (row :: rows) =
      (readLine (above + 1) row).bind fun o => (readBelow (above + 1) rows).map (o :: ·) := by
  unfold readBelow
  rw [List.zipIdx_cons, List.mapM_cons]
  rfl

theorem readBelow_of_gives {rows : List (List UInt8)} {readings : List (Option RecordedEvent)}
    (each : List.Forall₂ Gives rows readings) (above : Nat) :
    readBelow above rows = .ok readings := by
  induction each generalizing above with
  | nil => rfl
  | cons first others ih =>
    rw [readBelow_cons, first.readLine_eq, ih]
    rfl

theorem FirstFault.readBelow_eq {above : Nat} {rows : List (List UInt8)} {fault : Fault}
    (h : FirstFault above rows fault) : readBelow above rows = .error fault := by
  obtain ⟨before, readings, row, after, rfl, each, offends⟩ := h
  induction each generalizing above with
  | nil =>
    have failed : readLine (above + 1) row = .error fault := offends.readLine_eq
    rw [List.nil_append, readBelow_cons, failed]
    rfl
  | cons first others ih =>
    rw [List.length_cons, ← Nat.add_assoc, Nat.add_right_comm above] at offends
    rw [List.cons_append, readBelow_cons, first.readLine_eq, ih offends]
    rfl

theorem give_or_firstFault (above : Nat) (rows : List (List UInt8)) :
    (∃ readings, List.Forall₂ Gives rows readings) ∨ ∃ fault, FirstFault above rows fault := by
  induction rows generalizing above with
  | nil => exact .inl ⟨[], .nil⟩
  | cons row rows ih =>
    rcases gives_or_offends (above + 1) row with ⟨o, gives⟩ | ⟨fault, offends⟩
    · rcases ih (above + 1) with
        ⟨readings, each⟩ | ⟨fault, before, readings, r, after, rfl, each, offends⟩
      · exact .inl ⟨o :: readings, .cons gives each⟩
      · refine .inr ⟨fault, row :: before, o :: readings, r, after, rfl, .cons gives each, ?_⟩
        rwa [List.length_cons, ← Nat.add_assoc, Nat.add_right_comm above]
    · exact .inr ⟨fault, [], [], row, rows, rfl, .nil, offends⟩

/-! ## Documents -/

theorem read_of_gives {document : List UInt8} {rows : List (List UInt8)}
    {readings : List (Option RecordedEvent)} (laid : Rows document rows)
    (each : List.Forall₂ Gives rows readings) : read document = .ok (readings.filterMap id) := by
  rw [read_eq, laid.lines_eq, readBelow_of_gives each]
  rfl

theorem read_of_firstFault {document : List UInt8} {rows : List (List UInt8)} {fault : Fault}
    (laid : Rows document rows) (first : FirstFault 0 rows fault) :
    read document = .error fault := by
  rw [read_eq, laid.lines_eq, first.readBelow_eq]
  rfl

theorem read_eq_ok_iff {document : List UInt8} {rows : List (List UInt8)}
    (laid : Rows document rows) (events : List RecordedEvent) :
    read document = .ok events ↔
      ∃ readings, List.Forall₂ Gives rows readings ∧ readings.filterMap id = events := by
  constructor
  · intro done
    rcases give_or_firstFault 0 rows with ⟨readings, each⟩ | ⟨fault, first⟩
    · exact ⟨readings, each, Except.ok.inj ((read_of_gives laid each).symm.trans done)⟩
    · cases (read_of_firstFault laid first).symm.trans done
  · rintro ⟨readings, each, rfl⟩
    exact read_of_gives laid each

theorem read_eq_error_iff {document : List UInt8} {rows : List (List UInt8)}
    (laid : Rows document rows) (fault : Fault) :
    read document = .error fault ↔ FirstFault 0 rows fault := by
  refine ⟨fun failed => ?_, read_of_firstFault laid⟩
  rcases give_or_firstFault 0 rows with ⟨readings, each⟩ | ⟨fault', first⟩
  · cases (read_of_gives laid each).symm.trans failed
  · exact Except.error.inj ((read_of_firstFault laid first).symm.trans failed) ▸ first

/-! ## Rows that are passed over -/

def movedBelow (above extra : Nat) : Fault → Fault
  | .undecodable number => .undecodable (if number ≤ above then number else number + extra)
  | fault => fault

theorem Offends.movedBelow_eq {number above : Nat} {row : List UInt8} {fault : Fault}
    (h : Offends number row fault) (early : number ≤ above) (extra : Nat) :
    movedBelow above extra fault = fault := by
  cases h with
  | garbled => rfl
  | undecodable => rw [movedBelow, if_pos early]

theorem Offends.moved {number above : Nat} {row : List UInt8} {fault : Fault}
    (h : Offends number row fault) (late : above < number) (extra : Nat) :
    Offends (number + extra) row (movedBelow above extra fault) := by
  cases h with
  | garbled invalid => exact .garbled invalid
  | undecodable holds counts garbage =>
    rw [movedBelow, if_neg (Nat.not_le.mpr late)]
    exact .undecodable holds counts garbage

theorem FirstFault.append_right {above : Nat} {rows : List (List UInt8)} {fault : Fault}
    (h : FirstFault above rows fault) (more : List (List UInt8)) :
    FirstFault above (rows ++ more) fault := by
  obtain ⟨before, readings, row, after, rfl, each, offends⟩ := h
  exact ⟨before, readings, row, after ++ more, List.append_assoc .., each, offends⟩

theorem FirstFault.append_left {above : Nat} {front rows : List (List UInt8)} {fault : Fault}
    {given : List (Option RecordedEvent)} (h : FirstFault (above + front.length) rows fault)
    (give : List.Forall₂ Gives front given) : FirstFault above (front ++ rows) fault := by
  obtain ⟨before, readings, row, after, rfl, each, offends⟩ := h
  rw [Nat.add_assoc above, ← List.length_append] at offends
  exact ⟨front ++ before, given ++ readings, row, after, (List.append_assoc ..).symm,
    List.rel_append give each, offends⟩

/-- A fault among the rows above is not moved. -/
theorem FirstFault.movedBelow_eq {rows : List (List UInt8)} {fault : Fault}
    (h : FirstFault 0 rows fault) (extra : Nat) : movedBelow rows.length extra fault = fault := by
  obtain ⟨before, readings, row, after, rfl, each, offends⟩ := h
  refine offends.movedBelow_eq ?_ extra
  rw [List.length_append, List.length_cons]
  omega

/-- A fault among the rows below is moved by as many rows as were put in. -/
theorem FirstFault.moved {above : Nat} {rows : List (List UInt8)} {fault : Fault}
    (h : FirstFault above rows fault) (extra : Nat) :
    FirstFault (above + extra) rows (movedBelow above extra fault) := by
  obtain ⟨before, readings, row, after, rfl, each, offends⟩ := h
  refine ⟨before, readings, row, after, rfl, each, ?_⟩
  have place : above + extra + before.length + 1 = above + before.length + 1 + extra := by omega
  rw [place]
  exact offends.moved (by omega) extra

theorem read_insert {document document' : List UInt8} {before passed after : List (List UInt8)}
    (laid : Rows document (before ++ after)) (laid' : Rows document' (before ++ (passed ++ after)))
    (silent : ∀ row ∈ passed, Gives row none) :
    read document' = (read document).mapError (movedBelow before.length passed.length) := by
  have skipped : List.Forall₂ Gives passed (passed.map fun _ => none) :=
    List.forall₂_map_right_iff.mpr (List.forall₂_same.mpr silent)
  -- the rows above decide first, then those below; those put in between never do
  rcases give_or_firstFault 0 before with ⟨readings, each⟩ | ⟨fault, first⟩
  · rcases give_or_firstFault (0 + before.length) after with ⟨readings', each'⟩ | ⟨fault, first⟩
    · have nothing : (passed.map fun _ => (none : Option RecordedEvent)).filterMap id = [] :=
        List.filterMap_eq_nil_iff.mpr (List.forall_mem_map.mpr fun _ _ => rfl)
      rw [read_of_gives laid (List.rel_append each each'),
        read_of_gives laid' (List.rel_append each (List.rel_append skipped each'))]
      rw [List.filterMap_append, List.filterMap_append, List.filterMap_append, nothing,
        List.nil_append]
      rfl
    · have later := (first.moved passed.length).append_left skipped
      rw [read_of_firstFault laid (first.append_left each),
        read_of_firstFault laid' (later.append_left each), Nat.zero_add]
      rfl
  · rw [read_of_firstFault laid (first.append_right after),
      read_of_firstFault laid' (first.append_right _), Except.mapError, first.movedBelow_eq]

/-- Every document has its rows. It is read to the events on them, in order, if every row gives one
or is passed over; otherwise it is read to the fault of the first row that offends, with the place
of that row among all rows. Rows that are passed over, put in anywhere or taken out, change nothing
but that number, and only for a row below them. -/
theorem reads_row_by_row :
    (∀ document, ∃ rows, (∀ rows', Rows document rows' ↔ rows' = rows) ∧
      (∀ events, read document = .ok events ↔
        ∃ readings, List.Forall₂ Gives rows readings ∧ readings.filterMap id = events) ∧
      ∀ fault, read document = .error fault ↔ FirstFault 0 rows fault) ∧
    ∀ {document document' : List UInt8} {before passed after : List (List UInt8)},
      Rows document (before ++ after) → Rows document' (before ++ (passed ++ after)) →
      (∀ row ∈ passed, Gives row none) →
      read document' = (read document).mapError (movedBelow before.length passed.length) := by
  refine ⟨fun document => ?_, read_insert⟩
  have laid : Rows document (lines document) := rows_iff.mpr rfl
  exact ⟨lines document, fun _ => rows_iff, read_eq_ok_iff laid, read_eq_error_iff laid⟩

/-- A lone bracket below a comment and a blank line. -/
theorem read_below_note : read [35, 10, 13, 10, 123] = .error (.undecodable 3) := by
  have bracket : Rows [123] ([] ++ [[123]]) := rows_iff.mpr rfl
  have below : Rows [35, 10, 13, 10, 123] ([] ++ ([[35], [13]] ++ [[123]])) := rows_iff.mpr rfl
  have sign : Holds [35] ['#'] := holds_iff.mpr ⟨"#", rfl, rfl⟩
  have empty : Holds [13] [] := holds_iff.mpr ⟨"", rfl, rfl⟩
  have silent : ∀ row ∈ [[35], [13]], Gives row none := List.forall_mem_cons.mpr
    ⟨.nothing sign (.inr rfl), List.forall_mem_singleton.mpr (.nothing empty (.inl rfl))⟩
  have alone : read [123] = .error (.undecodable 1) := rfl
  rw [reads_row_by_row.2 bracket below silent, alone]
  rfl

end SpanWeave.Recorded
