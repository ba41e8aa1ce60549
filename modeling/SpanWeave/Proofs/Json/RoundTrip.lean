import SpanWeave.Proofs.Json.Tokens

set_option autoImplicit false

/-!
# Written values are read back

A value without garbled parts, whose numbers are integers that fit into a word, is read back from
its compact form whatever follows it, and this form holds no control characters, so it is one line.
-/
namespace SpanWeave.Json
open Text

inductive Value.Plain : Value → Prop
  | null : Plain .null
  | bool (b : Bool) : Plain (.bool b)
  | integer {i : Int} (small : i.natAbs < UInt64.size) : Plain (.integer i)
  | text (t : String) : Plain (.text t)
  | array {items : List Value} (each : ∀ v ∈ items, Plain v) : Plain (.array items)
  | object {members : List (String × Value)} (each : ∀ m ∈ members, Plain m.2) :
      Plain (.object members)

theorem skipSpace_cons {c : Char} (visible : isSpace c = false) (s : List Char) :
    skipSpace (c :: s) = c :: s := by
  rw [skipSpace, List.dropWhile_cons, visible]
  rfl

theorem isSpace_of_isDigit {c : Char} (digit : c.isDigit = true) : isSpace c = false := by
  rw [Bool.eq_false_iff]
  intro space
  simp only [isSpace, Bool.or_eq_true, beq_iff_eq] at space
  rcases space with ((rfl | rfl) | rfl) | rfl <;> exact absurd digit (by decide)

/-- What a written value begins with is no space, and does not close an array. -/
theorem Value.Plain.head {v : Value} (h : v.Plain) :
    ∃ c s, compactChars v = c :: s ∧ isSpace c = false ∧ c ≠ ']' := by
  cases h with
  | null => exact ⟨'n', _, rfl, by decide, by decide⟩
  | bool b =>
    cases b with
    | true => exact ⟨'t', _, rfl, by decide, by decide⟩
    | false => exact ⟨'f', _, rfl, by decide, by decide⟩
  | @integer i =>
    cases i with
    | ofNat n =>
      obtain ⟨d, ds, digits⟩ := List.exists_cons_of_ne_nil (numeral_ne_nil n)
      have digit : d.isDigit = true := isDigit_of_mem_numeral (digits ▸ List.mem_cons_self)
      refine ⟨d, ds, digits, isSpace_of_isDigit digit, ?_⟩
      rintro rfl
      exact absurd digit (by decide)
    | negSucc n => exact ⟨'-', _, rfl, by decide, by decide⟩
  | text => exact ⟨'\x22', _, rfl, by decide, by decide⟩
  | array => exact ⟨'[', _, rfl, by decide, by decide⟩
  | object => exact ⟨'\x7b', _, rfl, by decide, by decide⟩

/-! ## Reading -/

/-- The value is read from its compact form, and what follows is left. -/
def Reads (v : Value) : Prop := ∀ fuel rest, Follows rest → 2 * (compactChars v).length ≤ fuel →
  value fuel (compactChars v ++ rest) = some (v, rest)

theorem value_quote {fuel : Nat} {s rest : List Char} {t : String}
    (inside : quoted fuel s = some (some t, rest)) :
    value (fuel + 1) ('\x22' :: s) = some (.text t, rest) := by
  have skip : skipSpace ('\x22' :: s) = '\x22' :: s := rfl
  simp only [value, skip, inside]
  rfl

theorem value_digit {c : Char} (digit : c.isDigit = true) (fuel : Nat) (s : List Char) :
    value (fuel + 1) (c :: s) = unsigned false (c :: s) := by
  have other : ∀ d : Char, d.isDigit = false → c ≠ d := by
    rintro d noDigit rfl
    rw [digit] at noDigit
    cases noDigit
  unfold value
  rw [skipSpace_cons (isSpace_of_isDigit digit)]
  split
  all_goals first
    | rfl
    | rename_i eq
      exact absurd (List.cons.inj eq).1 (other _ (by decide))

theorem value_minus (fuel : Nat) (s : List Char) :
    value (fuel + 1) ('-' :: s) = unsigned true s := by
  have skip : skipSpace ('-' :: s) = '-' :: s := rfl
  simp only [value, skip]

theorem value_bracket {fuel : Nat} {c : Char} {s rest : List Char} {vs : List Value}
    (visible : isSpace c = false) (other : c ≠ ']')
    (inside : items fuel (c :: s) = some (vs, rest)) :
    value (fuel + 1) ('[' :: c :: s) = some (.array vs, rest) := by
  have skip : skipSpace ('[' :: c :: s) = '[' :: c :: s := rfl
  simp only [value, skip]
  rw [skipSpace_cons visible]
  split
  · rename_i eq
    exact absurd (List.cons.inj eq).1 other
  · rw [inside]
    rfl

theorem value_brace {fuel : Nat} {s rest : List Char} {ms : List (String × Value)}
    (inside : members fuel ('\x22' :: s) = some (some ms, rest)) :
    value (fuel + 1) ('\x7b' :: '\x22' :: s) = some (.object ms, rest) := by
  have skip : skipSpace ('\x7b' :: '\x22' :: s) = '\x7b' :: '\x22' :: s := rfl
  have skip' : skipSpace ('\x22' :: s) = '\x22' :: s := rfl
  simp only [value, skip, skip']
  change (members fuel ('\x22' :: s)).bind _ = _
  rw [inside]
  rfl

theorem reads_integer {i : Int} (small : i.natAbs < UInt64.size) : Reads (.integer i) := by
  intro fuel rest follows enough
  obtain ⟨c, s, written, _⟩ := (Value.Plain.integer small).head
  obtain ⟨fuel, rfl⟩ : ∃ k, fuel = k + 1 := by
    refine Nat.exists_eq_add_one_of_ne_zero ?_
    rintro rfl
    rw [written] at enough
    cases enough
  cases i with
  | ofNat n =>
    have digits : c :: s = numeral n := written.symm
    have digit : c.isDigit = true := isDigit_of_mem_numeral (digits ▸ List.mem_cons_self)
    rw [written, List.cons_append, value_digit digit, ← List.cons_append, digits]
    exact unsigned_numeral false small nofun follows
  | negSucc n =>
    refine (value_minus fuel (numeral (n + 1) ++ rest)).trans ?_
    have small' : n + 1 < UInt64.size := small
    rw [unsigned_numeral true small' (fun _ => Nat.succ_pos n) follows]
    rfl

theorem quote_append (t : String) (rest : List Char) :
    quote t ++ rest = '\x22' :: (t.toList.flatMap escapeChar ++ '\x22' :: rest) := by
  rw [quote, List.cons_append, List.append_assoc]
  rfl

theorem lt_length_quote (t : String) : t.toList.length + 1 < (quote t).length := by
  have least := length_le_flatMap_escapeChar t.toList
  rw [quote, List.length_cons, List.length_append, List.length_singleton]
  omega

theorem reads_text (t : String) : Reads (.text t) := by
  intro fuel rest _ enough
  have long := lt_length_quote t
  rw [show compactChars (.text t) = quote t from rfl] at enough ⊢
  obtain ⟨fuel, rfl⟩ : ∃ k, fuel = k + 1 := Nat.exists_eq_add_one_of_ne_zero (by omega)
  rw [quote_append]
  exact value_quote (quoted_escaped t (by omega) rest)

theorem items_of_reads {vs : List Value} (each : ∀ v ∈ vs, Reads v) (nonempty : vs ≠ [])
    {fuel : Nat} (rest : List Char) (enough : 2 * (compactItems vs).length ≤ fuel) :
    items fuel (compactItems vs ++ rest) = some (vs, rest) := by
  induction vs generalizing fuel with
  | nil => exact absurd rfl nonempty
  | cons v vs ih =>
    have first := each v List.mem_cons_self
    cases vs with
    | nil =>
      rw [compactItems, List.length_append, List.length_singleton] at enough
      obtain ⟨fuel, rfl⟩ : ∃ k, fuel = k + 1 := Nat.exists_eq_add_one_of_ne_zero (by omega)
      rw [compactItems, List.append_assoc, List.singleton_append, items,
        first fuel (']' :: rest) (follows_cons (by decide) _) (by omega)]
      rfl
    | cons w ws =>
      have more : compactItems (v :: w :: ws) =
        compactChars v ++ ',' :: compactItems (w :: ws) := rfl
      rw [more, List.length_append, List.length_cons] at enough
      obtain ⟨fuel, rfl⟩ : ∃ k, fuel = k + 1 := Nat.exists_eq_add_one_of_ne_zero (by omega)
      rw [more, List.append_assoc, List.cons_append, items,
        first fuel (',' :: _) (follows_cons (by decide) _) (by omega)]
      change (items fuel (compactItems (w :: ws) ++ rest)).bind _ = _
      rw [ih (fun u member => each u (List.mem_cons_of_mem _ member)) (List.cons_ne_nil _ _)
        (by omega)]
      rfl

/-- The rest of an object after the name of a member and its value. -/
theorem members_of_quoted {fuel : Nat} {name : String} {v : Value} {after rest : List Char}
    (enough : name.toList.length < fuel)
    (read : value fuel after = some (v, rest)) :
    (∀ s, rest = '\x7d' :: s →
      members (fuel + 1) (quote name ++ ':' :: after) = some (some [(name, v)], s)) ∧
    ∀ s ms s', rest = ',' :: s → members fuel s = some (some ms, s') →
      members (fuel + 1) (quote name ++ ':' :: after) = some (some ((name, v) :: ms), s') := by
  have skip : ∀ s, skipSpace ('\x22' :: s) = '\x22' :: s := fun _ => rfl
  have colon : skipSpace (':' :: after) = ':' :: after := rfl
  rw [quote_append]
  simp only [members, skip, quoted_escaped name enough, colon, read, Option.bind_eq_bind,
    Option.bind_some]
  refine ⟨?_, ?_⟩
  · rintro s rfl
    rfl
  · rintro s ms s' rfl more
    change (members fuel s).bind _ = _
    rw [more]
    rfl

theorem members_of_reads {ms : List (String × Value)} (each : ∀ m ∈ ms, Reads m.2)
    (nonempty : ms ≠ []) {fuel : Nat} (rest : List Char)
    (enough : 2 * (compactMembers ms).length ≤ fuel) :
    members fuel (compactMembers ms ++ rest) = some (some ms, rest) := by
  induction ms generalizing fuel with
  | nil => exact absurd rfl nonempty
  | cons m ms ih =>
    obtain ⟨name, v⟩ := m
    have first : Reads v := each (name, v) List.mem_cons_self
    have long := lt_length_quote name
    have member : compactMember (name, v) = quote name ++ ':' :: compactChars v := rfl
    cases ms with
    | nil =>
      rw [compactMembers, member, List.length_append, List.length_append, List.length_cons,
        List.length_singleton] at enough
      obtain ⟨fuel, rfl⟩ : ∃ k, fuel = k + 1 := Nat.exists_eq_add_one_of_ne_zero (by omega)
      rw [compactMembers, member, List.append_assoc, List.append_assoc, List.cons_append]
      exact (members_of_quoted (by omega)
        (first fuel ('\x7d' :: rest) (follows_cons (by decide) _) (by omega))).1 _ rfl
    | cons m' ms =>
      have more : compactMembers ((name, v) :: m' :: ms) =
        compactMember (name, v) ++ ',' :: compactMembers (m' :: ms) := rfl
      rw [more, member, List.length_append, List.length_append, List.length_cons,
        List.length_cons] at enough
      obtain ⟨fuel, rfl⟩ : ∃ k, fuel = k + 1 := Nat.exists_eq_add_one_of_ne_zero (by omega)
      rw [more, member, List.append_assoc, List.append_assoc, List.cons_append, List.cons_append]
      exact (members_of_quoted (by omega)
        (first fuel (',' :: _) (follows_cons (by decide) _) (by omega))).2 _ _ _ rfl
        (ih (fun u member => each u (List.mem_cons_of_mem _ member)) (List.cons_ne_nil _ _)
          (by omega))

theorem reads_array {vs : List Value} (plain : ∀ v ∈ vs, v.Plain) (each : ∀ v ∈ vs, Reads v) :
    Reads (.array vs) := by
  intro fuel rest _ enough
  rw [show compactChars (.array vs) = '[' :: compactItems vs from rfl, List.length_cons] at enough
  obtain ⟨fuel, rfl⟩ : ∃ k, fuel = k + 1 := Nat.exists_eq_add_one_of_ne_zero (by omega)
  cases vs with
  | nil => rfl
  | cons v vs =>
    have inside : items fuel (compactItems (v :: vs) ++ rest) = some (v :: vs, rest) :=
      items_of_reads each (List.cons_ne_nil _ _) rest (by omega)
    obtain ⟨c, s, written, visible, other⟩ := (plain v List.mem_cons_self).head
    have first : ∃ s, compactItems (v :: vs) = c :: s := by
      cases vs with
      | nil => exact ⟨s ++ [']'], by rw [compactItems, written]; rfl⟩
      | cons w ws =>
        have more : compactItems (v :: w :: ws) =
          compactChars v ++ ',' :: compactItems (w :: ws) := rfl
        exact ⟨s ++ ',' :: compactItems (w :: ws), by rw [more, written]; rfl⟩
    obtain ⟨s, first⟩ := first
    rw [show compactChars (.array (v :: vs)) = '[' :: compactItems (v :: vs) from rfl]
    rw [first] at inside ⊢
    exact value_bracket visible other inside

theorem reads_object {ms : List (String × Value)} (each : ∀ m ∈ ms, Reads m.2) :
    Reads (.object ms) := by
  intro fuel rest _ enough
  rw [show compactChars (.object ms) = '\x7b' :: compactMembers ms from rfl, List.length_cons]
    at enough
  obtain ⟨fuel, rfl⟩ : ∃ k, fuel = k + 1 := Nat.exists_eq_add_one_of_ne_zero (by omega)
  cases ms with
  | nil => rfl
  | cons m ms =>
    obtain ⟨name, v⟩ := m
    have inside : members fuel (compactMembers ((name, v) :: ms) ++ rest) =
        some (some ((name, v) :: ms), rest) :=
      members_of_reads each (List.cons_ne_nil _ _) rest (by omega)
    obtain ⟨s, first⟩ : ∃ s, compactMembers ((name, v) :: ms) = '\x22' :: s := by
      cases ms with
      | nil => exact ⟨_, rfl⟩
      | cons => exact ⟨_, rfl⟩
    rw [show compactChars (.object ((name, v) :: ms)) =
      '\x7b' :: compactMembers ((name, v) :: ms) from rfl]
    rw [first] at inside ⊢
    exact value_brace inside

theorem Value.Plain.reads {v : Value} (h : v.Plain) : Reads v := by
  have some : ∀ {fuel n : Nat}, 2 * (n + 1) ≤ fuel → ∃ k, fuel = k + 1 := fun enough =>
    Nat.exists_eq_add_one_of_ne_zero (by omega)
  induction h with
  | null =>
    intro fuel rest _ enough
    obtain ⟨fuel, rfl⟩ := some enough
    rfl
  | bool b =>
    intro fuel rest _ enough
    cases b with
    | true =>
      obtain ⟨fuel, rfl⟩ := some enough
      rfl
    | false =>
      obtain ⟨fuel, rfl⟩ := some enough
      rfl
  | integer small => exact reads_integer small
  | text t => exact reads_text t
  | array plain each => exact reads_array plain each
  | object _ each => exact reads_object each

/-- A plain value is read back from its compact form. -/
theorem Value.Plain.parse_compact {v : Value} (h : v.Plain) : parse (compact v) = some v := by
  have read := h.reads (2 * (compactChars v).length + 2) [] follows_nil (Nat.le_add_right _ _)
  rw [List.append_nil] at read
  rw [parse, compact, String.toList_ofList, parseChars, read]
  rfl

/-! ## One line -/

theorem printable_cons {c : Char} {s : List Char} (here : 0x20 ≤ c.toNat) (h : Printable s) :
    Printable (c :: s) := List.forall_mem_cons.mpr ⟨here, h⟩

theorem printable_append {s t : List Char} (left : Printable s) (right : Printable t) :
    Printable (s ++ t) := List.forall_mem_append.mpr ⟨left, right⟩

theorem printable_quote (t : String) : Printable (quote t) := by
  refine printable_cons (by decide) (printable_append ?_ (printable_of_all rfl))
  intro c member
  obtain ⟨d, _, written⟩ := List.mem_flatMap.mp member
  exact (escapeChar_printable d).2 c written

theorem printable_numeral (n : Nat) : Printable (numeral n) := by
  intro c member
  have digit := isDigit_of_mem_numeral member
  simp only [Char.isDigit, Bool.and_eq_true, decide_eq_true_eq] at digit
  exact Nat.le_trans (by decide) digit.1

theorem printable_items {vs : List Value} (each : ∀ v ∈ vs, Printable (compactChars v)) :
    Printable (compactItems vs) := by
  induction vs with
  | nil => exact printable_of_all rfl
  | cons v vs ih =>
    obtain ⟨first, others⟩ := List.forall_mem_cons.mp each
    cases vs with
    | nil => exact printable_append first (printable_of_all rfl)
    | cons w ws => exact printable_append first (printable_cons (by decide) (ih others))

theorem printable_members {ms : List (String × Value)}
    (each : ∀ m ∈ ms, Printable (compactChars m.2)) : Printable (compactMembers ms) := by
  induction ms with
  | nil => exact printable_of_all rfl
  | cons m ms ih =>
    obtain ⟨name, v⟩ := m
    obtain ⟨value, others⟩ := List.forall_mem_cons.mp each
    have first : Printable (compactMember (name, v)) :=
      printable_append (printable_quote name) (printable_cons (by decide) value)
    cases ms with
    | nil => exact printable_append first (printable_of_all rfl)
    | cons m' ms => exact printable_append first (printable_cons (by decide) (ih others))

theorem Value.Plain.printable {v : Value} (h : v.Plain) : Printable (compactChars v) := by
  induction h with
  | null => exact printable_of_all rfl
  | bool b => cases b <;> exact printable_of_all rfl
  | @integer i =>
    cases i with
    | ofNat n => exact printable_numeral n
    | negSucc n => exact printable_cons (by decide) (printable_numeral (n + 1))
  | text t => exact printable_quote t
  | array _ each => exact printable_cons (by decide) (printable_items each)
  | object _ each => exact printable_cons (by decide) (printable_members each)

end SpanWeave.Json
