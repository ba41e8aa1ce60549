import Mathlib.Tactic.SplitIfs
import SpanWeave.Recorded.Document
import SpanWeave.Proofs.Text.Parts

set_option autoImplicit false

/-!
# The lines of a document

A text is taken apart at its line feeds, since no other character has their byte in its encoding.
Carriage returns at the end of a line are blank, so it does not matter that one of them is dropped
before the line is trimmed.
-/
namespace SpanWeave.Recorded
open Text

/-! ## Bytes -/

def bytesOf (s : List Char) : List UInt8 := (String.ofList s).toUTF8.data.toList

theorem bytesOf_eq (s : List Char) : bytesOf s = s.flatMap String.utf8EncodeChar := by
  change s.utf8Encode.data.toList = _
  rw [List.utf8Encode, List.data_toByteArray]

theorem bytesOf_append (s t : List Char) : bytesOf (s ++ t) = bytesOf s ++ bytesOf t := by
  simp only [bytesOf_eq, List.flatMap_append]

theorem bytesOf_singleton (c : Char) : bytesOf [c] = String.utf8EncodeChar c := by
  rw [bytesOf_eq, List.flatMap_singleton]

theorem bytesOf_concat_carriage (s : List Char) : bytesOf (s ++ ['\r']) = bytesOf s ++ [13] := by
  have code : bytesOf ['\r'] = [13] := by decide
  rw [bytesOf_append, code]

theorem bytesOf_eq_nil {s : List Char} : bytesOf s = [] ↔ s = [] := by
  rw [bytesOf_eq, List.flatMap_eq_nil_iff]
  constructor
  · intro none
    exact List.eq_nil_iff_forall_not_mem.mpr fun c member =>
      String.utf8EncodeChar_ne_nil (none c member)
  · rintro rfl
    exact nofun

theorem fromUTF8?_bytesOf (s : List Char) :
    String.fromUTF8? ⟨(bytesOf s).toArray⟩ = some (String.ofList s) := by
  have same : (⟨(bytesOf s).toArray⟩ : ByteArray) = s.utf8Encode := rfl
  rw [same, String.fromUTF8?, dif_pos ByteArray.isValidUTF8_utf8Encode]
  rfl

theorem bytesOf_of_fromUTF8? {row : List UInt8} {text : String}
    (taken : String.fromUTF8? ⟨row.toArray⟩ = some text) : row = bytesOf text.toList := by
  unfold String.fromUTF8? at taken
  split_ifs at taken with valid
  cases taken
  rw [bytesOf, String.ofList_toList]
  rfl

/-- A byte of the ASCII range stands for the character with its number only. -/
theorem toNat_of_mem_utf8EncodeChar {c : Char} {b : UInt8}
    (member : b ∈ String.utf8EncodeChar c) (ascii : b.toNat < 128) : c.toNat = b.toNat := by
  have number : c.val.toNat = c.toNat := rfl
  unfold String.utf8EncodeChar at member
  dsimp only at member
  split_ifs at member with one
  · have eq := List.eq_of_mem_singleton member
    rw [eq, UInt8.toNat_ofNat']
    omega
  -- every other byte is 128 or more
  all_goals
    exfalso
    simp only [List.mem_cons, List.not_mem_nil, or_false] at member
    rcases member with rfl | member
    · rw [UInt8.toNat_ofNat'] at ascii
      omega
  · rw [member, UInt8.toNat_ofNat'] at ascii
    omega
  · rcases member with rfl | rfl <;> rw [UInt8.toNat_ofNat'] at ascii <;> omega
  · rcases member with rfl | rfl | rfl <;> rw [UInt8.toNat_ofNat'] at ascii <;> omega

theorem not_mem_bytesOf {c : Char} {s : List Char} (ascii : c.toNat < 128) (absent : c ∉ s) :
    UInt8.ofNat c.toNat ∉ bytesOf s := by
  rw [bytesOf_eq]
  intro member
  obtain ⟨d, present, member⟩ := List.mem_flatMap.mp member
  have number : (UInt8.ofNat c.toNat).toNat = c.toNat := by
    rw [UInt8.toNat_ofNat']
    omega
  have same := toNat_of_mem_utf8EncodeChar member (by rwa [number])
  exact absent (Char.toNat_inj.mp (same.trans number) ▸ present)

/-! ## Lines -/

theorem splitOn_row {s : List Char} (inline : '\n' ∉ s) (rest : List UInt8) :
    (bytesOf (s ++ ['\n']) ++ rest).splitOn 10 = bytesOf s :: rest.splitOn 10 := by
  have feed : bytesOf ['\n'] = [10] := by decide
  rw [bytesOf_append, feed, List.append_assoc, List.singleton_append]
  exact List.splitOn_append_cons_self_of_not_mem (not_mem_bytesOf (by decide) inline) rest

theorem splitOn_rows {rows : List (List Char)} {last : List Char}
    (inline : ∀ s ∈ rows, '\n' ∉ s) (inlineLast : '\n' ∉ last) :
    (bytesOf (rows.flatMap (· ++ ['\n']) ++ last)).splitOn 10 =
      rows.map bytesOf ++ [bytesOf last] := by
  induction rows with
  | nil => exact List.splitOn_eq_singleton (not_mem_bytesOf (by decide) inlineLast)
  | cons s rows ih =>
    obtain ⟨first, others⟩ := List.forall_mem_cons.mp inline
    rw [List.flatMap_cons, List.append_assoc, bytesOf_append, splitOn_row first, ih others]
    rfl

/-- The lines of a text are its rows, and what follows the last of them if it is not empty. -/
theorem lines_rows {rows : List (List Char)} {last : List Char}
    (inline : ∀ s ∈ rows, '\n' ∉ s) (inlineLast : '\n' ∉ last) :
    lines (bytesOf (rows.flatMap (· ++ ['\n']) ++ last)) =
      (if last = [] then rows else rows ++ [last]).map bytesOf := by
  have split := splitOn_rows inline inlineLast
  have ending : (rows.map bytesOf ++ [bytesOf last]).getLast? = some [] ↔ last = [] := by
    rw [List.getLast?_concat, Option.some_inj, bytesOf_eq_nil]
  unfold lines
  dsimp only
  rw [split]
  by_cases empty : last = []
  · rw [if_pos (ending.mpr empty), if_pos empty, List.dropLast_concat]
  · rw [if_neg (mt ending.mp empty), if_neg empty, List.map_append]
    rfl

/-! ## Texts of lines -/

theorem getLast?_of_bytesOf {s : List Char} (last : (bytesOf s).getLast? = some 13) :
    s.getLast? = some '\r' := by
  rcases List.eq_nil_or_concat s with rfl | ⟨t, c, rfl⟩
  · cases last
  · rw [List.concat_eq_append, bytesOf_append, bytesOf_singleton, List.getLast?_append,
      List.getLast?_eq_some_getLast String.utf8EncodeChar_ne_nil, Option.some_or] at last
    have member : 13 ∈ String.utf8EncodeChar c :=
      Option.some.inj last ▸ List.getLast_mem String.utf8EncodeChar_ne_nil
    have number : c.toNat = '\r'.toNat := toNat_of_mem_utf8EncodeChar member (by decide)
    rw [List.concat_eq_append, List.getLast?_concat, Char.toNat_inj.mp number]

/-- A line is taken for text, and trimmed it is what the line was. -/
theorem lineText?_bytesOf (s : List Char) :
    ∃ text, lineText? (bytesOf s) = some text ∧ trim text = String.ofList (trimChars s) := by
  by_cases carriage : s.getLast? = some '\r'
  · obtain ⟨t, rfl⟩ := List.getLast?_eq_some_iff.mp carriage
    refine ⟨String.ofList t, ?_, ?_⟩
    · rw [lineText?, bytesOf_concat_carriage, if_pos List.getLast?_concat, List.dropLast_concat]
      exact fromUTF8?_bytesOf t
    · rw [trim, String.toList_ofList, trimChars_append_blank (List.forall_mem_singleton.mpr rfl)]
  · refine ⟨String.ofList s, ?_, ?_⟩
    · rw [lineText?, if_neg (mt getLast?_of_bytesOf carriage)]
      exact fromUTF8?_bytesOf s
    · rw [trim, String.toList_ofList]

end SpanWeave.Recorded
