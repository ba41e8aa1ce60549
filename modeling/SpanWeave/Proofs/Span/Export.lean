import Mathlib.Data.Option.Basic
import SpanWeave.Span.Recorder
import SpanWeave.Text.Blank
import SpanWeave.Proofs.Json.Fields

set_option autoImplicit false

/-!
# Exported spans

The finished spans of a recorder are written one a line, and every line is read back as the span
that it was written for. Members are left out for what a span does not have; the texts of a span may
hold any characters.
-/
namespace SpanWeave
open Json

namespace Span

structure Fits (s : Span) : Prop where
  beginsAt : s.beginsAt < UInt64.size
  endsAt : s.endsAt < UInt64.size
  duration : s.duration < UInt64.size
  span : s.span < UInt64.size
  parent : ∀ p ∈ s.parent, p < UInt64.size
  depth : s.depth < UInt16.size
  lap : ∀ n ∈ s.lap, n < UInt32.size

def fields (s : Span) : List (String × Slot) :=
  [("name", some (.text s.name)), ("kind", some (.text s.kind.name)),
    ("begin_ns", some (.ofNat s.beginsAt)), ("end_ns", some (.ofNat s.endsAt)),
    ("duration_ns", some (.ofNat s.duration)), ("span_id", some (.ofNat s.span)),
    ("parent_span_id", s.parent.map .ofNat), ("depth", some (.ofNat s.depth)),
    ("thread_id", some (ofWord64 s.thread)), ("correlation_id", s.correlation.map ofWord64),
    ("lap", s.lap.map .ofNat), ("device_id", s.device.map ofWord32),
    ("queue_id", s.queue.map ofWord64), ("attributes", attributesToJson s.attributes)]

theorem toJson_eq (s : Span) : s.toJson = .object (written s.fields) := by
  have present : ∀ (name : String) (v : Value), member? name id (some v) = [(name, v)] :=
    fun _ _ => rfl
  have none : written [] = [] := rfl
  rw [toJson, fields]
  simp only [written_cons, member?_map, present, none, List.append_assoc, List.cons_append,
    List.nil_append, List.append_nil]

theorem slots_toJson (s : Span) :
    slots ["name", "kind", "begin_ns", "end_ns", "duration_ns", "span_id", "parent_span_id",
      "depth", "thread_id", "correlation_id", "lap", "device_id", "queue_id", "attributes"]
      s.toJson = some (s.fields.map (·.2)) := by
  have distinct : (s.fields.map (·.1)).Nodup := by
    change ["name", "kind", "begin_ns", "end_ns", "duration_ns", "span_id", "parent_span_id",
      "depth", "thread_id", "correlation_id", "lap", "device_id", "queue_id", "attributes"].Nodup
    decide
  rw [toJson_eq]
  exact slots_written distinct

/-! ## Attributes -/

/-- The attributes are put back one by one; their keys differ, so none replaces another one. -/
theorem insertMany_toList (a : Attributes) : (∅ : Attributes).insertMany a.toList = a := by
  apply Std.ExtTreeMap.ext_getElem?
  intro key
  cases found : a[key]? with
  | some v =>
    have member := Std.ExtTreeMap.mem_toList_iff_getElem?_eq_some.mpr found
    exact Std.ExtTreeMap.getElem?_insertMany_list_of_mem Std.ReflCmp.compare_self
      Std.ExtTreeMap.distinct_keys_toList member
  | none =>
    have absent : (a.toList.map Prod.fst).contains key = false := by
      rw [Std.ExtTreeMap.map_fst_toList_eq_keys, Std.ExtTreeMap.contains_keys,
        Std.ExtTreeMap.contains_eq_isSome_getElem?, found]
      rfl
    rw [Std.ExtTreeMap.getElem?_insertMany_list_of_contains_eq_false absent]
    exact Std.ExtTreeMap.getElem?_empty

theorem attributesOfJson_members (a : Attributes) :
    attributesOfJson (.object (a.toList.map fun e => (e.1, .text e.2))) = some a := by
  have inserts : ∀ (entries : List (String × String)) (known : Attributes),
      (entries.map fun e => (e.1, Value.text e.2)).foldlM
        (fun a e => (text e.2).map (a.insert e.1)) known = some (known.insertMany entries) := by
    intro entries
    induction entries with
    | nil => exact fun known => (congrArg some Std.ExtTreeMap.insertMany_nil).symm
    | cons entry entries ih =>
      intro known
      rw [List.map_cons, List.foldlM_cons, Std.ExtTreeMap.insertMany_cons]
      exact ih (known.insert entry.1 entry.2)
  exact (inserts a.toList ∅).trans (congrArg some (insertMany_toList a))

theorem withDefault_attributesToJson (a : Attributes) :
    withDefault ∅ attributesOfJson (attributesToJson a) = some a := by
  rw [attributesToJson]
  split
  · rename_i empty
    rw [Std.ExtTreeMap.isEmpty_iff.mp empty]
    rfl
  · exact attributesOfJson_members a

theorem shallow_attributesToJson (a : Attributes) :
    ∀ v ∈ attributesToJson a, v.Shallow 1 := by
  intro v written
  rw [attributesToJson] at written
  split at written
  · cases written
  · cases written
    apply shallow_object
    intro member isMember
    obtain ⟨entry, -, rfl⟩ := List.mem_map.mp isMember
    exact shallow_text 0 entry.2

/-! ## One span -/

theorem ofJson_name (kind : SpanKind) : SpanKind.ofJson (.text kind.name) = some kind := by
  cases kind <;> rfl

theorem bind_of_eq_some {α β : Type} {read : Option α} {a : α} {next : α → Option β} {b : β}
    (here : read = some a) (rest : next a = some b) : read >>= next = some b := by
  rw [here]
  exact rest

theorem ofJson_toJson {s : Span} (fits : s.Fits) : ofJson s.toJson = some s := by
  refine bind_of_eq_some s.slots_toJson ?_
  refine bind_of_eq_some (show Json.text (.text s.name) = some s.name from rfl) ?_
  refine bind_of_eq_some (ofJson_name s.kind) ?_
  refine bind_of_eq_some (natBelow_ofNat fits.beginsAt) ?_
  refine bind_of_eq_some (natBelow_ofNat fits.endsAt) ?_
  refine bind_of_eq_some (natBelow_ofNat fits.duration) ?_
  refine bind_of_eq_some (natBelow_ofNat fits.span) ?_
  refine bind_of_eq_some (optional_natBelow fits.parent) ?_
  refine bind_of_eq_some (natBelow_ofNat fits.depth) ?_
  refine bind_of_eq_some (word64_ofWord64 s.thread) ?_
  refine bind_of_eq_some (optional_word64 s.correlation) ?_
  refine bind_of_eq_some (optional_natBelow fits.lap) ?_
  refine bind_of_eq_some (optional_word32 s.device) ?_
  refine bind_of_eq_some (optional_word64 s.queue) ?_
  refine bind_of_eq_some (withDefault_attributesToJson s.attributes) ?_
  rfl

theorem shallow_toJson {s : Span} (fits : s.Fits) : s.toJson.Shallow 2 := by
  have depth : s.depth < UInt64.size := Nat.lt_trans fits.depth (by decide)
  have lap : ∀ n ∈ s.lap, n < UInt64.size := fun n is => Nat.lt_trans (fits.lap n is) (by decide)
  rw [toJson_eq]
  apply shallow_object
  apply shallow_written
  simp only [fields, List.forall_mem_cons, Option.forall_mem_map, Option.mem_some_iff, forall_eq']
  exact ⟨shallow_text .., shallow_text .., shallow_ofNat 1 fits.beginsAt,
    shallow_ofNat 1 fits.endsAt, shallow_ofNat 1 fits.duration, shallow_ofNat 1 fits.span,
    fun p is => shallow_ofNat 1 (fits.parent p is), shallow_ofNat 1 depth, shallow_ofWord64 ..,
    fun _ _ => shallow_ofWord64 .., fun n is => shallow_ofNat 1 (lap n is),
    fun _ _ => shallow_ofWord32 .., fun _ _ => shallow_ofWord64 ..,
    shallow_attributesToJson s.attributes, nofun⟩

theorem ofJson_parse_compact {s : Span} (fits : s.Fits) :
    (parse (compact s.toJson)).bind ofJson = some s := by
  rw [(shallow_toJson fits).plain.parse_compact, Option.bind_some, ofJson_toJson fits]

end Span

/-! ## One line a span -/

namespace Recorder

def line (s : Span) : String := compact s.toJson

theorem line_printable {s : Span} (fits : s.Fits) : ∀ c ∈ (line s).toList, 0x20 ≤ c.toNat := by
  rw [line, compact, String.toList_ofList]
  exact (Span.shallow_toJson fits).plain.printable

theorem splitAt_lines {lines : List String} (inline : ∀ l ∈ lines, '\n' ∉ l.toList) :
    Text.splitAt '\n' (String.join (lines.map (· ++ "\n"))) = lines ++ [""] := by
  have pieces : ∀ lines : List String, (∀ l ∈ lines, '\n' ∉ l.toList) →
      (String.join (lines.map (· ++ "\n"))).toList.splitOn '\n' =
        lines.map String.toList ++ [[]] := by
    intro lines inline
    induction lines with
    | nil => rfl
    | cons l lines ih =>
      obtain ⟨here, inline⟩ := List.forall_mem_cons.mp inline
      have text : (String.join ((l :: lines).map (· ++ "\n"))).toList =
          l.toList ++ '\n' :: (String.join (lines.map (· ++ "\n"))).toList := by
        simp [String.join_cons]
      rw [text, List.splitOn_append_cons_self_of_not_mem here, ih inline]
      rfl
  rw [Text.splitAt, pieces lines inline]
  simp

/-- What the lines of a recorder are, whatever its finished spans hold: there is one for each span,
ended by a line feed, no line has a line break in it, and each is read back as its span. -/
theorem documentLines_roundTrip {r : Recorder} (fits : ∀ s ∈ r.finished, s.Fits) :
    ∃ lines : List String, Text.splitAt '\n' r.documentLines = lines ++ [""] ∧
      (∀ l ∈ lines, '\n' ∉ l.toList ∧ '\r' ∉ l.toList) ∧
      lines.map (fun l => (parse l).bind Span.ofJson) = r.finished.toList.map some := by
  have finished : ∀ s ∈ r.finished.toList, s.Fits := fun s is => fits s (Array.mem_toList_iff.mp is)
  have unbroken : ∀ l ∈ r.finished.toList.map line, '\n' ∉ l.toList ∧ '\r' ∉ l.toList := by
    intro l isLine
    obtain ⟨s, is, rfl⟩ := List.mem_map.mp isLine
    have printable := line_printable (finished s is)
    exact ⟨fun feed => absurd (printable _ feed) (by decide),
      fun feed => absurd (printable _ feed) (by decide)⟩
  refine ⟨r.finished.toList.map line, ?_, unbroken, ?_⟩
  · rw [← splitAt_lines fun l isLine => (unbroken l isLine).1, List.map_map]
    rfl
  · rw [List.map_map]
    apply List.map_congr_left
    intro s is
    rw [Function.comp_apply, line, Span.ofJson_parse_compact (finished s is)]

/-- Largest numbers, texts with line breaks, quotes and characters beyond the ASCII range, and one
span that has all that may be left out while the other one has nothing of it. -/
theorem roundTrip_of_extremes :
    let bare : Span :=
      { name := "", kind := .cpu, beginsAt := 18446744073709551615, endsAt := 0, duration := 0,
        span := 0, parent := none, depth := 65535, thread := 18446744073709551615 }
    let full : Span :=
      { name := "copy\n\r\t\u2028\\ \"ü😀\"", kind := .device, beginsAt := 1,
        endsAt := 18446744073709551615, duration := 18446744073709551614,
        span := 18446744073709551615, parent := some 18446744073709551615, depth := 0, thread := 0,
        correlation := some 18446744073709551615, lap := some 4294967295,
        device := some 4294967295, queue := some 0,
        attributes := (∅ : Attributes).insert "\n\x00" "é\r\n" |>.insert "" "\x7f" }
    let r : Recorder := { finished := #[full, bare] }
    (∀ s ∈ r.finished, s.Fits) ∧ ∃ first second,
      Text.splitAt '\n' r.documentLines = [first, second, ""] ∧
        (parse first).bind Span.ofJson = some full ∧
        (parse second).bind Span.ofJson = some bare := by
  intro bare full r
  have fits : ∀ s ∈ r.finished, s.Fits := by
    intro s is
    have member : s ∈ [full, bare] := Array.mem_toList_iff.mpr is
    simp only [List.mem_cons, List.not_mem_nil, or_false] at member
    rcases member with rfl | rfl
    · exact ⟨by decide, by decide, by decide, by decide, by simp [full], by decide, by simp [full]⟩
    · exact ⟨by decide, by decide, by decide, by decide, nofun, by decide, nofun⟩
  obtain ⟨lines, split, -, back⟩ := documentLines_roundTrip fits
  obtain ⟨first, lines, rfl, backFirst, rest⟩ := List.map_eq_cons_iff.mp back
  obtain ⟨second, lines, rfl, backSecond, rest⟩ := List.map_eq_cons_iff.mp rest
  obtain rfl := List.map_eq_nil_iff.mp rest
  exact ⟨fits, first, second, split, backFirst, backSecond⟩

end Recorder

end SpanWeave
