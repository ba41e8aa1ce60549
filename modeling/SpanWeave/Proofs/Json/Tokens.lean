import Mathlib.Tactic.IntervalCases
import Mathlib.Tactic.SplitIfs
import SpanWeave.Json.Reader
import SpanWeave.Json.Writer
import SpanWeave.Proofs.Lists
import SpanWeave.Proofs.Text.Hexadecimal

set_option autoImplicit false

/-!
# Tokens

Numbers and strings as they are written are read back, whatever follows them. A number must not be
followed by what could belong to it, and must fit into a word; in a string every character comes
back, escaped or not.
-/
namespace SpanWeave.Json
open Text

/-! ## Numbers -/

def EndsNumber (c : Char) : Prop := c.isDigit = false ∧ c ≠ '.' ∧ c ≠ 'e' ∧ c ≠ 'E'

instance (c : Char) : Decidable (EndsNumber c) := inferInstanceAs (Decidable (_ ∧ _))

def Follows (rest : List Char) : Prop := ∀ c ∈ rest.head?, EndsNumber c

theorem follows_nil : Follows [] := nofun

theorem follows_cons {c : Char} (ends : EndsNumber c) (s : List Char) : Follows (c :: s) :=
  fun _ eq => Option.some.inj eq ▸ ends

theorem isDigit_of_mem_numeral {n : Nat} {c : Char} (member : c ∈ numeral n) : c.isDigit = true :=
  Nat.isDigit_of_mem_toDigits (by decide) (by decide) member

theorem numeral_ne_nil (n : Nat) : numeral n ≠ [] := Nat.toDigits_ne_nil

theorem head?_numeral {n : Nat} (positive : 0 < n) : (numeral n).head? ≠ some '0' := by
  induction n using Nat.strongRecOn with
  | ind n ih =>
    by_cases small : n < 10
    · rw [numeral, Nat.toDigits_of_lt_base small]
      interval_cases n <;> decide
    · have whole : (numeral (n / 10)).head? ≠ some '0' := ih (n / 10) (by omega) (by omega)
      rw [numeral, Nat.toDigits_of_base_le (by decide) (Nat.le_of_not_lt small), List.head?_append]
      obtain ⟨d, ds, digits⟩ := List.exists_cons_of_ne_nil (numeral_ne_nil (n / 10))
      rw [numeral] at digits whole
      rw [digits] at whole ⊢
      exact whole

theorem spanDigits_numeral (n : Nat) {rest : List Char} (follows : Follows rest) :
    spanDigits (numeral n ++ rest) = (numeral n, rest) := by
  have digits : ∀ c ∈ numeral n, c.isDigit = true := fun c => isDigit_of_mem_numeral
  have stops : rest.takeWhile Char.isDigit = [] ∧ rest.dropWhile Char.isDigit = rest := by
    cases rest with
    | nil => exact ⟨rfl, rfl⟩
    | cons c s =>
      have plain := (follows c rfl).1
      rw [List.takeWhile_cons, List.dropWhile_cons, plain]
      exact ⟨rfl, rfl⟩
  rw [spanDigits, List.takeWhile_append_of_pos digits, List.dropWhile_append_of_pos digits,
    stops.1, stops.2, List.append_nil]

theorem fraction_of_follows {rest : List Char} (follows : Follows rest) :
    fraction rest = some ([], rest) := by
  unfold fraction
  split
  · exact absurd rfl (follows '.' rfl).2.1
  · rfl

theorem exponent_of_follows {rest : List Char} (follows : Follows rest) :
    exponent rest = some (none, rest) := by
  cases rest with
  | nil => rfl
  | cons c s =>
    obtain ⟨-, -, small, large⟩ := follows c rfl
    unfold exponent
    exact if_neg (not_or.mpr ⟨small, large⟩)

theorem le_ofDigitChars (ds : List Char) (word : Nat) : word ≤ Nat.ofDigitChars 10 ds word := by
  rw [Nat.ofDigitChars_eq_ofDigitChars_zero]
  exact Nat.le_trans (Nat.le_mul_of_pos_left word (Nat.pow_pos (by decide))) (Nat.le_add_right _ _)

/-- A number that fits into a word is taken whole. -/
theorem wordOfDigits_of_lt {ds : List Char} {word : Nat}
    (fits : Nat.ofDigitChars 10 ds word < UInt64.size) :
    wordOfDigits word ds = (Nat.ofDigitChars 10 ds word, 0) := by
  induction ds generalizing word with
  | nil => rfl
  | cons d ds ih =>
    have next : 10 * word + ofDigits [d] = 10 * word + (d.toNat - '0'.toNat) := by
      rw [ofDigits, Nat.ofDigitChars_cons, Nat.ofDigitChars_nil, Nat.mul_zero, Nat.zero_add]
    rw [Nat.ofDigitChars_cons] at fits ⊢
    rw [wordOfDigits, next, if_pos (Nat.lt_of_le_of_lt (le_ofDigitChars _ _) fits), ih fits]

theorem roundDiv_le (n d : Nat) : roundDiv n d ≤ n + 1 := by
  have least : n / d ≤ n := Nat.div_le_self n d
  have rest : n / d % 2 < 2 := Nat.mod_lt _ (by decide)
  unfold roundDiv
  dsimp only
  split
  · omega
  · split
    · omega
    · by_cases zero : n / d = 0
      · rw [zero]
        exact Nat.zero_le _
      · omega

/-- A word is rounded with an exponent of at most 11. -/
theorem ofNat_eq {n : Nat} (small : n < UInt64.size) (positive : n ≠ 0) :
    ∃ e : Int, -53 ≤ e ∧ e ≤ 11 ∧ Rounded.ofNat n = ⟨Rounded.atExponent n 1 e, e⟩ := by
  have digits : n.log2 < 64 := (Nat.log2_lt positive).mpr small
  have one : Nat.log2 1 = 0 := by decide
  obtain ⟨e, eq⟩ : ∃ e : Int, e = (n.log2 : Int) - Nat.log2 1 - Rounded.precision := ⟨_, rfl⟩
  have range : -53 ≤ e ∧ e ≤ 10 := by
    rw [eq, one, Rounded.precision]
    omega
  have some : ¬ (n = 0 ∨ 1 = 0) := not_or.mpr ⟨positive, Nat.one_ne_zero⟩
  by_cases fits : Rounded.atExponent n 1 e < 1 <<< Rounded.precision
  · refine ⟨e, range.1, Int.le_trans range.2 (by decide), (if_neg some).trans ?_⟩
    subst eq
    exact if_pos fits
  · refine ⟨e + 1, by omega, by omega, (if_neg some).trans ?_⟩
    subst eq
    exact if_neg fits

/-- Rounding a word to a double leaves it far below the bound of the doubles. -/
theorem fraction_ofNat {n : Nat} (small : n < UInt64.size) (positive : n ≠ 0) :
    (Rounded.ofNat n).fraction.1 < 1 <<< 160 ∧ 0 < (Rounded.ofNat n).fraction.2 := by
  obtain ⟨e, least, most, eq⟩ := ofNat_eq small positive
  rw [eq]
  dsimp only [Rounded.fraction]
  constructor
  · have shift : n <<< (-e).toNat ≤ UInt64.size <<< 53 := by
      rw [Nat.shiftLeft_eq, Nat.shiftLeft_eq]
      exact Nat.mul_le_mul (Nat.le_of_lt small) (Nat.pow_le_pow_right (by decide) (by omega))
    have significand : Rounded.atExponent n 1 e ≤ UInt64.size <<< 53 + 1 :=
      Nat.le_trans (roundDiv_le _ _) (Nat.succ_le_succ shift)
    rw [Nat.shiftLeft_eq]
    calc Rounded.atExponent n 1 e * 2 ^ e.toNat
        ≤ (UInt64.size <<< 53 + 1) * 2 ^ 11 :=
          Nat.mul_le_mul significand (Nat.pow_le_pow_right (by decide) (by omega))
      _ < 1 <<< 160 := by decide
  · rw [Nat.shiftLeft_eq, Nat.one_mul]
    exact Nat.two_pow_pos _

theorem isProductDouble_of_lt {n : Nat} (small : n < UInt64.size) :
    Rounded.isProductDouble n 0 = true := by
  unfold Rounded.isProductDouble
  split
  · rfl
  · rename_i some
    obtain ⟨most, positive⟩ := fraction_ofNat small fun zero => some (.inl zero)
    have one : (Rounded.ofNat (Nat.pow 10 (0 : Int).toNat)).fraction = (1 <<< 52, 1 <<< 52) := by
      decide
    have bound : 1 <<< 160 ≤ Rounded.doubleBound := by decide
    rw [if_neg (by decide), one, decide_eq_true_eq, ← Nat.mul_assoc]
    refine Nat.mul_lt_mul_of_pos_right (Nat.lt_of_lt_of_le most ?_) (by decide)
    exact Nat.le_trans bound (Nat.le_mul_of_pos_right _ positive)

theorem inRange_numeral {n : Nat} (small : n < UInt64.size) : inRange (numeral n) [] 0 = true := by
  have whole : wordOfDigits 0 (numeral n) = (n, 0) := by
    have value := ofDigits_numeral n
    rw [ofDigits] at value
    rw [wordOfDigits_of_lt (value.symm ▸ small), value]
  rw [inRange, whole]
  exact isProductDouble_of_lt small

theorem unsigned_numeral (negative : Bool) {n : Nat} (small : n < UInt64.size)
    (notNegativeZero : negative = true → 0 < n) {rest : List Char} (follows : Follows rest) :
    unsigned negative (numeral n ++ rest) =
      some (.integer (if negative then -(n : Int) else n), rest) := by
  have plain : ¬ ((numeral n).isEmpty = true ∨
      (numeral n).head? = some '0' ∧ 1 < (numeral n).length) := by
    rintro (empty | ⟨zero, long⟩)
    · exact numeral_ne_nil n (List.isEmpty_iff.mp empty)
    · rcases Nat.eq_zero_or_pos n with rfl | positive
      · exact absurd long (by decide)
      · exact head?_numeral positive zero
  have notZero : ¬ (negative = true ∧ n = 0) := fun ⟨minus, zero⟩ =>
    Nat.lt_irrefl 0 (zero ▸ notNegativeZero minus)
  unfold unsigned
  rw [spanDigits_numeral n follows]
  dsimp only
  rw [if_neg plain, fraction_of_follows follows]
  dsimp only [bind, Option.bind]
  rw [exponent_of_follows follows]
  simp only [Option.getD_none, inRange_numeral small, ofDigits_numeral, List.isEmpty_nil,
    Bool.not_true, Bool.false_eq_true, Option.isSome_none, false_or, notZero, ↓reduceIte]

/-! ## Strings -/

def shortEscapes : List (Char × Char) :=
  [('\x22', '\x22'), ('\\', '\\'), ('\n', 'n'), ('\r', 'r'), ('\t', 't'), ('\x08', 'b'),
    ('\x0c', 'f')]

theorem shortEscape?_of_mem : ∀ p ∈ shortEscapes,
    shortEscape? p.2 = some p.1 ∧ p.2 ≠ 'u' ∧ 0x20 ≤ p.2.toNat := by
  decide

/-- The three ways to write a character inside a string. -/
theorem escapeChar_cases (c : Char) :
    (∃ letter, (c, letter) ∈ shortEscapes ∧ escapeChar c = ['\\', letter]) ∨
    (c.toNat < 0x20 ∧ escapeChar c = '\\' :: 'u' :: (hexadecimal 4 c.toNat).toList) ∨
    (0x20 ≤ c.toNat ∧ c ≠ '\x22' ∧ c ≠ '\\' ∧ escapeChar c = [c]) := by
  unfold escapeChar
  split_ifs with quote backslash feed carriage tab back form control
  any_goals
    subst c
    exact .inl ⟨_, by decide, rfl⟩
  · exact .inr (.inl ⟨control, rfl⟩)
  · exact .inr (.inr ⟨Nat.le_of_not_lt control, quote, backslash, rfl⟩)

theorem piece?_short {letter : Char} (other : letter ≠ 'u') (s : List Char) :
    piece? ('\\' :: letter :: s) =
      (shortEscape? letter).map fun c => (.char (some c), s) := by
  unfold piece?
  split
  · rename_i eq
    cases eq
  · rename_i eq
    exact absurd (List.cons.inj eq).1 (by decide)
  · rename_i eq
    exact absurd (List.cons.inj (List.cons.inj eq).2).1 other
  · rename_i eq
    obtain ⟨rfl, rfl⟩ := List.cons.inj (List.cons.inj eq).2
    rfl
  · rename_i short eq
    exact absurd eq fun eq => short _ _ (List.cons.inj eq).1.symm (List.cons.inj eq).2.symm

theorem piece?_plain {c : Char} (printable : 0x20 ≤ c.toNat) (notQuote : c ≠ '\x22')
    (notBackslash : c ≠ '\\') (s : List Char) : piece? (c :: s) = some (.char (some c), s) := by
  have plain : ¬ (c.toNat < 0x20 ∨ c = '\\') := not_or.mpr ⟨Nat.not_lt.mpr printable, notBackslash⟩
  unfold piece?
  split
  · rename_i eq
    cases eq
  · rename_i eq
    exact absurd (List.cons.inj eq).1 notQuote
  · rename_i eq
    exact absurd (List.cons.inj eq).1 notBackslash
  · rename_i eq
    exact absurd (List.cons.inj eq).1 notBackslash
  · rename_i eq
    obtain ⟨rfl, rfl⟩ := List.cons.inj eq
    exact if_neg plain

theorem piece?_escapeChar (c : Char) (s : List Char) :
    piece? (escapeChar c ++ s) = some (.char (some c), s) := by
  rcases escapeChar_cases c with ⟨letter, member, eq⟩ | ⟨control, eq⟩ |
    ⟨printable, notQuote, notBackslash, eq⟩
  · obtain ⟨read, other, _⟩ := shortEscape?_of_mem _ member
    rw [eq, List.cons_append, List.cons_append, List.nil_append, piece?_short other, read]
    rfl
  · have high : isHighSurrogate c.toNat = false := by
      rw [isHighSurrogate, Bool.and_eq_false_iff]
      exact .inl (decide_eq_false (by omega))
    have low : isLowSurrogate c.toNat = false := by
      rw [isLowSurrogate, Bool.and_eq_false_iff]
      exact .inl (decide_eq_false (by omega))
    rw [eq, List.cons_append, List.cons_append, piece?,
      readHex?_hexadecimal (by decide : 0 < 4) (by omega)]
    dsimp only [bind, Option.bind]
    rw [high, low, if_neg Bool.false_ne_true, if_neg Bool.false_ne_true, Char.ofNat_toNat]
  · rw [eq]
    exact piece?_plain printable notQuote notBackslash s

def Printable (s : List Char) : Prop := ∀ c ∈ s, 0x20 ≤ c.toNat

theorem printable_of_all {s : List Char} (all : s.all (fun c => 0x20 ≤ c.toNat) = true) :
    Printable s :=
  fun c member => of_decide_eq_true (List.all_eq_true.mp all c member)

/-- What stands for a character in a string is printable, and is not empty. -/
theorem escapeChar_printable (c : Char) : escapeChar c ≠ [] ∧ Printable (escapeChar c) := by
  rcases escapeChar_cases c with ⟨letter, member, eq⟩ | ⟨control, eq⟩ | ⟨printable, -, -, eq⟩
  · obtain ⟨-, -, printable⟩ := shortEscape?_of_mem _ member
    rw [eq]
    exact ⟨List.cons_ne_nil _ _, List.forall_mem_cons.mpr
      ⟨by decide, List.forall_mem_singleton.mpr printable⟩⟩
  · have digits : Printable "0123456789abcdef".toList := printable_of_all (by decide)
    have inside := mem_hexadecimal (by decide : 0 < 4) (by omega : c.toNat < 16 ^ 4)
    rw [eq]
    exact ⟨List.cons_ne_nil _ _, List.forall_mem_cons.mpr ⟨by decide, List.forall_mem_cons.mpr
      ⟨by decide, fun d member => digits d (inside d member)⟩⟩⟩
  · rw [eq]
    exact ⟨List.cons_ne_nil _ _, List.forall_mem_singleton.mpr printable⟩

theorem stringBody_escaped (cs : List Char) {fuel : Nat} (enough : cs.length < fuel)
    (rest : List Char) : stringBody fuel (cs.flatMap escapeChar ++ '\x22' :: rest) =
      some (cs.map some, rest) := by
  induction cs generalizing fuel with
  | nil =>
    obtain ⟨fuel, rfl⟩ := Nat.exists_eq_add_one_of_ne_zero (Nat.ne_of_gt enough)
    rfl
  | cons c cs ih =>
    obtain ⟨fuel, rfl⟩ := Nat.exists_eq_add_one_of_ne_zero (Nat.ne_of_gt (Nat.zero_lt_of_lt enough))
    rw [stringBody, List.flatMap_cons, List.append_assoc, piece?_escapeChar]
    dsimp only [bind, Option.bind]
    rw [ih (Nat.lt_of_succ_lt_succ enough)]
    rfl

theorem quoted_escaped (t : String) {fuel : Nat} (enough : t.toList.length < fuel)
    (rest : List Char) : quoted fuel (t.toList.flatMap escapeChar ++ '\x22' :: rest) =
      some (some t, rest) := by
  rw [quoted, stringBody_escaped t.toList enough]
  have chars : (t.toList.map some).mapM id = some (t.toList.map id) :=
    mapM_map_of_back fun _ _ => rfl
  dsimp only [bind, Option.bind]
  rw [chars, List.map_id, Option.map_some, String.ofList_toList]

theorem length_le_flatMap_escapeChar (cs : List Char) :
    cs.length ≤ (cs.flatMap escapeChar).length := by
  induction cs with
  | nil => exact Nat.le_refl _
  | cons c cs ih =>
    have here := List.length_pos_iff.mpr (escapeChar_printable c).1
    rw [List.flatMap_cons, List.length_append, List.length_cons]
    omega

end SpanWeave.Json
