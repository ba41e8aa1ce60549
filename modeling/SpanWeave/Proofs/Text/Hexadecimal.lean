import Mathlib.Tactic.IntervalCases
import SpanWeave.Text.Numeral

set_option autoImplicit false

/-!
# Hexadecimal numbers

A number that fits is written in exactly the digits asked for, all of them lower-case, and is read
back from them.
-/
namespace SpanWeave.Text

theorem toList_hexadecimal (width n : Nat) : (hexadecimal width n).toList =
    List.replicate (width - (Nat.toDigits 16 n).length) '0' ++ Nat.toDigits 16 n :=
  String.toList_ofList

theorem toList_hexadecimal_one {n : Nat} (fits : n < 16) :
    (hexadecimal 1 n).toList = [n.digitChar] := by
  rw [toList_hexadecimal, Nat.toDigits_of_lt_base fits]
  rfl

/-- The last digit stands behind those of the number without it. -/
theorem toList_hexadecimal_succ {width : Nat} (positive : 0 < width) (n : Nat) :
    (hexadecimal (width + 1) n).toList =
      (hexadecimal width (n / 16)).toList ++ [(n % 16).digitChar] := by
  rw [toList_hexadecimal, toList_hexadecimal]
  by_cases small : n < 16
  · obtain ⟨k, rfl⟩ := Nat.exists_eq_add_one_of_ne_zero (Nat.ne_of_gt positive)
    rw [Nat.div_eq_of_lt small, Nat.mod_eq_of_lt small, Nat.toDigits_of_lt_base small,
      Nat.toDigits_of_lt_base (by decide)]
    simp [List.replicate_succ']
  · rw [Nat.toDigits_of_base_le (by decide) (Nat.le_of_not_lt small), List.length_append,
      List.length_singleton, Nat.add_sub_add_right, List.append_assoc]

theorem length_hexadecimal {width n : Nat} (positive : 0 < width) (fits : n < 16 ^ width) :
    (hexadecimal width n).toList.length = width := by
  have short := (Nat.length_toDigits_le_iff (by decide) positive).mpr fits
  rw [toList_hexadecimal, List.length_append, List.length_replicate]
  omega

theorem digitChar_mem {d : Nat} (small : d < 16) : d.digitChar ∈ "0123456789abcdef".toList := by
  interval_cases d <;> decide

theorem mem_hexadecimal {width n : Nat} (positive : 0 < width) (fits : n < 16 ^ width) :
    ∀ c ∈ (hexadecimal width n).toList, c ∈ "0123456789abcdef".toList := by
  induction width, positive using Nat.le_induction generalizing n with
  | base =>
    have small : n < 16 := by simpa using fits
    rw [toList_hexadecimal_one small, List.forall_mem_singleton]
    exact digitChar_mem small
  | succ width positive ih =>
    rw [Nat.pow_succ] at fits
    rw [toList_hexadecimal_succ positive, List.forall_mem_append, List.forall_mem_singleton]
    exact ⟨ih (by omega), digitChar_mem (Nat.mod_lt _ (by decide))⟩

theorem hexDigit?_digitChar {d : Nat} (small : d < 16) : hexDigit? d.digitChar = some d := by
  interval_cases d <;> rfl

theorem mapM_hexDigit?_hexadecimal {width n : Nat} (positive : 0 < width) (fits : n < 16 ^ width) :
    ∃ vs, (hexadecimal width n).toList.mapM hexDigit? = some vs ∧
      vs.foldl (fun n v => 16 * n + v) 0 = n := by
  induction width, positive using Nat.le_induction generalizing n with
  | base =>
    have small : n < 16 := by simpa using fits
    exact ⟨[n], by simp [toList_hexadecimal_one small, hexDigit?_digitChar small], by simp⟩
  | succ width positive ih =>
    rw [Nat.pow_succ] at fits
    obtain ⟨vs, read, value⟩ := ih (n := n / 16) (by omega)
    refine ⟨vs ++ [n % 16], ?_, ?_⟩
    · simp [toList_hexadecimal_succ positive, List.mapM_append, read,
        hexDigit?_digitChar (Nat.mod_lt n (by decide : 0 < 16))]
    · rw [List.foldl_append, value, List.foldl_cons, List.foldl_nil]
      omega

theorem readHex?_hexadecimal {width n : Nat} (positive : 0 < width) (fits : n < 16 ^ width)
    (s : List Char) : readHex? width ((hexadecimal width n).toList ++ s) = some (n, s) := by
  have length := length_hexadecimal positive fits
  obtain ⟨vs, read, value⟩ := mapM_hexDigit?_hexadecimal positive fits
  rw [readHex?, List.take_left' length, List.drop_left' length, if_pos length, read,
    Option.map_some, value]

end SpanWeave.Text
