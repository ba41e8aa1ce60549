import Mathlib.Data.List.Induction
import SpanWeave.Proofs.Forest.Placement
import SpanWeave.Proofs.Text.Hexadecimal

set_option autoImplicit false

/-!
# Matching

Which begin an end belongs to, said of the log alone: an end closes the last begin of its span after
the end before. From this the nodes of a forest can be read off the marks one after the other, with
the ends and begins that are left over.
-/
namespace SpanWeave

def Mark.turns (span : SpanId) (m : Mark) : Bool :=
  m.side == .host && m.span == span && m.phase != .whole

namespace Pairing

/-- The last begin of the span, with no end of it after it. -/
def Pending (marks : List Mark) (span : SpanId) (start : Mark) : Prop :=
  ∃ earlier later, marks = earlier ++ start :: later ∧ start.turns span = true ∧
    start.phase = .begins ∧ ∀ m ∈ later, m.turns span = false

def pending? (marks : List Mark) (span : SpanId) : Option Mark :=
  (marks.reverse.find? (·.turns span)).filter (·.phase == .begins)

def withEarlier (earlier : List Mark) : List Mark → List (List Mark × Mark)
  | [] => []
  | m :: rest => (earlier, m) :: withEarlier (earlier ++ [m]) rest

/-- The host node that is complete with a mark: that of a pending begin, or a whole interval. -/
def completed? (names : HashNames) (earlier : List Mark) (m : Mark) : Option Node :=
  match m.side, m.phase with
  | .host, .whole => some (m.toNode names .cpu)
  | .host, .ends => (pending? earlier m.span).map fun start =>
      { start.toNode names .cpu with endsAt := m.endsAt }
  | _, _ => none

def stray? (earlier : List Mark) (m : Mark) : Option SpanId :=
  if m.side = .host ∧ m.phase = .ends ∧ pending? earlier m.span = none then some m.span else none

def completions (names : HashNames) (marks : List Mark) : List Node :=
  (withEarlier [] marks).filterMap fun x => completed? names x.1 x.2

def strayEnds (marks : List Mark) : List SpanId :=
  (withEarlier [] marks).filterMap fun x => stray? x.1 x.2

theorem pending?_eq_some_iff {marks : List Mark} {span : SpanId} {start : Mark} :
    pending? marks span = some start ↔ Pending marks span start := by
  rw [pending?, Option.filter_eq_some_iff, List.find?_eq_some_iff_append, beq_iff_eq]
  constructor
  · rintro ⟨⟨turns, later, earlier, split, others⟩, begins⟩
    refine ⟨earlier.reverse, later.reverse, ?_, turns, begins, fun m member => ?_⟩
    · simpa using congrArg List.reverse split
    · simpa using others m (List.mem_reverse.mp member)
  · rintro ⟨earlier, later, rfl, turns, begins, others⟩
    refine ⟨⟨turns, later.reverse, earlier.reverse, by simp, fun m member => ?_⟩, begins⟩
    simpa using others m (List.mem_reverse.mp member)

theorem pending?_concat (marks : List Mark) (m : Mark) (span : SpanId) :
    pending? (marks ++ [m]) span =
      if m.turns span then if m.phase = .begins then some m else none else pending? marks span := by
  rw [pending?, List.reverse_append, List.reverse_singleton, List.singleton_append, List.find?_cons]
  cases turns : m.turns span with
  | false => rfl
  | true => by_cases begins : m.phase = .begins <;> simp [begins]

theorem withEarlier_append (earlier marks more : List Mark) :
    withEarlier earlier (marks ++ more) =
      withEarlier earlier marks ++ withEarlier (earlier ++ marks) more := by
  induction marks generalizing earlier with
  | nil => simp [withEarlier]
  | cons m marks ih => simp [withEarlier, ih]

theorem mem_withEarlier {earlier before marks : List Mark} {m : Mark}
    (member : (before, m) ∈ withEarlier earlier marks) :
    ∃ passed later, marks = passed ++ m :: later ∧ before = earlier ++ passed := by
  induction marks generalizing earlier with
  | nil => simp [withEarlier] at member
  | cons first marks ih =>
    rcases List.mem_cons.mp member with same | further
    · cases same
      exact ⟨[], marks, rfl, (List.append_nil _).symm⟩
    · obtain ⟨passed, later, rfl, rfl⟩ := ih further
      exact ⟨first :: passed, later, rfl, by simp⟩

/-- A host node is that of a mark, but for its end. -/
theorem of_mem_completions {names : HashNames} {marks : List Mark} {n : Node}
    (member : n ∈ completions names marks) :
    ∃ m ∈ marks, ∃ time, n = { m.toNode names .cpu with endsAt := time } := by
  obtain ⟨⟨earlier, m⟩, place, closed⟩ := List.mem_filterMap.mp member
  obtain ⟨passed, later, rfl, rfl⟩ := mem_withEarlier place
  unfold completed? at closed
  split at closed
  · cases closed
    exact ⟨m, by simp, m.endsAt, rfl⟩
  · obtain ⟨start, found, rfl⟩ := Option.map_eq_some_iff.mp closed
    obtain ⟨before, after, rfl, _⟩ := pending?_eq_some_iff.mp found
    exact ⟨start, by simp, m.endsAt, rfl⟩
  · cases closed

@[simp] theorem completions_concat (names : HashNames) (marks : List Mark) (m : Mark) :
    completions names (marks ++ [m]) =
      completions names marks ++ (completed? names marks m).toList := by
  cases closed : completed? names marks m <;>
    simp [completions, withEarlier_append, withEarlier, closed]

@[simp] theorem strayEnds_concat (marks : List Mark) (m : Mark) :
    strayEnds (marks ++ [m]) = strayEnds marks ++ (stray? marks m).toList := by
  cases stray : stray? marks m <;> simp [strayEnds, withEarlier_append, withEarlier, stray]

structure Matches (names : HashNames) (marks : List Mark) (p : Pairing) : Prop where
  opened : ∀ span : SpanId, p.opened[span]? = pending? marks span
  hosts : p.hosts.toList = completions names marks
  devices : p.devices.toList = marks.filter (·.side == .device)
  strays : p.strays.toList = strayEnds marks

namespace Matches
variable {names : HashNames} {marks : List Mark} {p : Pairing}

theorem empty (names : HashNames) : Matches names [] {} where
  opened _ := Std.ExtTreeMap.getElem?_empty
  hosts := rfl
  devices := rfl
  strays := rfl

theorem add (h : Matches names marks p) (m : Mark) :
    Matches names (marks ++ [m]) (p.add names m) := by
  obtain ⟨opened, hosts, devices, strays⟩ := h
  cases side : m.side with
  | device =>
    simp only [Pairing.add, side]
    constructor
    case opened => simp [pending?_concat, Mark.turns, *]
    all_goals simp [completed?, stray?, *]
  | host =>
    cases phase : m.phase with
    | whole =>
      simp only [Pairing.add, side, phase]
      constructor
      case opened => simp [pending?_concat, Mark.turns, *]
      all_goals simp [completed?, stray?, *]
    | begins =>
      simp only [Pairing.add, side, phase]
      constructor
      case opened => simp [pending?_concat, Mark.turns, Std.ExtTreeMap.getElem?_insert, *]
      all_goals simp [completed?, stray?, *]
    | ends =>
      simp only [Pairing.add, side, phase, opened]
      cases found : pending? marks m.span with
      | some start =>
        constructor
        case opened => simp [pending?_concat, Mark.turns, Std.ExtTreeMap.getElem?_erase, *]
        all_goals simp [completed?, stray?, *]
      | none =>
        constructor
        case opened =>
          intro span
          rw [opened, pending?_concat]
          by_cases same : m.span = span
          · subst same
            simp [Mark.turns, *]
          · simp [Mark.turns, *]
        all_goals simp [completed?, stray?, *]

/-- The spans of the open begins, in ascending order. -/
theorem keys (h : Matches names marks p) : p.opened.keys.Pairwise (· < ·) ∧
    ∀ span, span ∈ p.opened.keys ↔ ∃ start, Pending marks span start := by
  refine ⟨Std.ExtTreeMap.ordered_keys.imp fun less => Nat.compare_eq_lt.mp less, fun span => ?_⟩
  rw [Std.ExtTreeMap.mem_keys, Std.ExtTreeMap.mem_iff_isSome_getElem?, h.opened,
    Option.isSome_iff_exists]
  simp only [pending?_eq_some_iff]

end Matches

theorem matches_ofMarks (names : HashNames) (marks : List Mark) :
    Matches names marks (ofMarks names marks) := by
  induction marks using List.reverseRecOn with
  | nil => exact .empty names
  | append_singleton marks m ih =>
    rw [ofMarks_append]
    exact ih.add m

end Pairing

def HashNames.Named (names : HashNames) (hash : UInt64) (name : String) : Prop :=
  names[hash]? = some name ∨ names[hash]? = none ∧
    Text.readHex? 16 name.toList = some (hash.toNat, []) ∧
    ∀ c ∈ name.toList, c ∈ "0123456789abcdef".toList

theorem HashNames.named_resolve (names : HashNames) (hash : UInt64) :
    names.Named hash (names.resolve hash) := by
  unfold HashNames.Named HashNames.resolve
  rw [Std.ExtTreeMap.getD_eq_getD_getElem?]
  cases found : names[hash]? with
  | some name => exact .inl rfl
  | none =>
    have fits : hash.toNat < 16 ^ 16 := hash.toNat_lt
    have read := Text.readHex?_hexadecimal (by decide) fits []
    rw [List.append_nil] at read
    exact .inr ⟨rfl, read, Text.mem_hexadecimal (by decide) fits⟩

structure Node.Reflects (names : HashNames) (m : Mark) (n : Node) : Prop where
  name : names.Named m.nameHash n.name
  span : n.span = m.span
  parentSpan : n.parentSpan = m.parent
  depth : n.depth = m.depth
  thread : n.thread = m.thread
  correlation : n.correlation = m.correlation
  beginsAt : n.beginsAt = m.beginsAt
  endsAt : n.endsAt = m.endsAt
  priority : n.priority = m.priority

theorem Mark.reflects_toNode (names : HashNames) (m : Mark) (kind : SpanKind) :
    (m.toNode names kind).kind = kind ∧ (m.toNode names kind).Reflects names m :=
  ⟨rfl, names.named_resolve m.nameHash, rfl, rfl, rfl, rfl, rfl, rfl, rfl, rfl⟩

namespace Forest
open Pairing

theorem bare_ofMarks (names : HashNames) (marks : List Mark) :
    (ofMarks names marks).nodes.toList.map Node.bare = completions names marks ++
      (marks.filter (·.side == .device)).map (Mark.toNode names .device) := by
  have h := Pairing.matches_ofMarks names marks
  have nodes : ((Pairing.ofMarks names marks).nodes names).toList = completions names marks ++
      (marks.filter (·.side == .device)).map (Mark.toNode names .device) := by
    rw [Pairing.nodes, Array.toList_append, Array.toList_map, h.hosts, h.devices]
  have unlinked : ∀ n ∈ ((Pairing.ofMarks names marks).nodes names).toList, n.bare = n := by
    intro n member
    rw [nodes] at member
    rcases List.mem_append.mp member with host | device
    · obtain ⟨m, _, time, rfl⟩ := of_mem_completions host
      rfl
    · obtain ⟨m, _, rfl⟩ := List.mem_map.mp device
      rfl
  calc (ofMarks names marks).nodes.toList.map Node.bare
      = ((Pairing.ofMarks names marks).nodes names).toList.map Node.bare := bare_ofNodes _ _
    _ = ((Pairing.ofMarks names marks).nodes names).toList := by
        rw [List.map_congr_left unlinked, List.map_id']
    _ = _ := nodes

/-- Every node is that of a mark, but for its end and its links. -/
theorem bare_eq_toNode {names : HashNames} {marks : List Mark} {i : Nat} {n : Node}
    (at_i : (ofMarks names marks).node? i = some n) :
    ∃ m ∈ marks, ∃ kind time, n.bare = { m.toNode names kind with endsAt := time } := by
  have member : n.bare ∈ (ofMarks names marks).nodes.toList.map Node.bare :=
    List.mem_map_of_mem (Array.mem_toList_iff.mpr (Array.mem_of_getElem? at_i))
  rw [bare_ofMarks] at member
  rcases List.mem_append.mp member with host | device
  · obtain ⟨m, marked, time, same⟩ := of_mem_completions host
    exact ⟨m, marked, .cpu, time, same⟩
  · obtain ⟨m, marked, same⟩ := List.mem_map.mp device
    exact ⟨m, List.mem_of_mem_filter marked, .device, m.endsAt, same.symm⟩

/-- The nodes and what is reported about begins and ends can be read off the marks. -/
theorem ofMarks_matched (names : HashNames) (marks : List Mark) :
    (ofMarks names marks).nodes.toList.map Node.bare = completions names marks ++
      (marks.filter (·.side == .device)).map (Mark.toNode names .device) ∧
    (∃ (begun : List SpanId) (rest : List Defect), (ofMarks names marks).defects =
        (strayEnds marks).map .unmatchedEnd ++ begun.map .unmatchedBegin ++ rest ∧
      begun.Pairwise (· < ·) ∧ (∀ span, span ∈ begun ↔ ∃ start, Pending marks span start) ∧
      ∀ d ∈ rest, ∀ span, d ≠ .unmatchedEnd span ∧ d ≠ .unmatchedBegin span) ∧
    (∀ earlier span start, pending? earlier span = some start ↔ Pending earlier span start) ∧
    ∀ (m : Mark) (kind : SpanKind),
      (m.toNode names kind).kind = kind ∧ (m.toNode names kind).Reflects names m := by
  have h := Pairing.matches_ofMarks names marks
  have defects : (ofMarks names marks).defects = (strayEnds marks).map .unmatchedEnd ++
      (Pairing.ofMarks names marks).opened.keys.map .unmatchedBegin ++
      (linkReports ((Pairing.ofMarks names marks).nodes names)).map Prod.snd := by
    rw [← h.strays]
    exact defects_ofNodes _ _
  obtain ⟨ascending, keys⟩ := h.keys
  refine ⟨bare_ofMarks names marks, ⟨_, _, defects, ascending, keys, fun d member span => ?_⟩,
    fun _ _ _ => pending?_eq_some_iff, Mark.reflects_toNode names⟩
  obtain ⟨⟨i, _⟩, reported, rfl⟩ := List.mem_map.mp member
  rcases linkReports_cases reported with ⟨_, _, rfl⟩ | ⟨_, _, _, rfl⟩ <;> simp

end Forest

end SpanWeave
