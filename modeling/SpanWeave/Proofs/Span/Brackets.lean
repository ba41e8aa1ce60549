import Mathlib.Data.List.Induction
import Mathlib.Order.Bounds.Basic
import SpanWeave.Proofs.Lists
import SpanWeave.Proofs.Span.Markers

set_option autoImplicit false

/-!
# Brackets

A recorder matches brackets, each track for itself. What it has finished, discarded and left open
follows from which begin every end and every discard takes: the latest one on its track that is
still open when it comes.
-/
namespace SpanWeave

/-! ## Places of markers -/

section Places

variable {ms : List Marker} {m : Marker} {track : Track} {i j k : Nat} {start : SpanStart}

def startAt (ms : List Marker) (i : Nat) : Option SpanStart := ms[i]?.bind (·.start?)

/-- What a marker with its number leaves open on a track, the latest begin first. -/
def reopen (track : Track) (opened : List (Nat × SpanStart)) (p : Marker × Nat) :
    List (Nat × SpanStart) :=
  if p.1.track = track then
    (p.1.start?.map (p.2, ·)).toList ++ if p.1.closes then opened.tail else opened
  else opened

def openings (track : Track) (ms : List Marker) : List (Nat × SpanStart) :=
  ms.zipIdx.foldl (reopen track) []

/-- The number of the begin that marker number `j` takes. -/
def partner (ms : List Marker) (j : Nat) : Option Nat :=
  ms[j]?.bind fun m => if m.closes then (openings m.track (ms.take j)).head?.map (·.1) else none

theorem openings_concat (track : Track) (ms : List Marker) (m : Marker) :
    openings track (ms ++ [m]) = reopen track (openings track ms) (m, ms.length) := by
  rw [openings, List.zipIdx_append, List.foldl_append, Nat.zero_add]
  rfl

theorem openings_concat_on (here : m.track = track) : openings track (ms ++ [m]) =
    (m.start?.map (ms.length, ·)).toList ++
      if m.closes then (openings track ms).tail else openings track ms := by
  rw [openings_concat]
  exact if_pos here

theorem openings_concat_of_ne (other : m.track ≠ track) :
    openings track (ms ++ [m]) = openings track ms := by
  rw [openings_concat]
  exact if_neg other

/-- The recorder holds them without their numbers. -/
theorem map_openings (track : Track) (ms : List Marker) :
    (openings track ms).map (·.2) = (Recorder.heard ms).openOn track := by
  induction ms using List.reverseRecOn with
  | nil => exact (Recorder.openOn_empty track).symm
  | append_singleton ms m ih =>
    rw [Recorder.heard, Recorder.hearAll_append]
    change _ = ((Recorder.heard ms).hear m).openOn track
    by_cases here : m.track = track
    · rw [openings_concat_on here, List.map_append, ← here, Recorder.openOn_hear, here, ← ih]
      cases m with
      | begins | completes => rfl
      | ends | discards => exact List.map_tail
    · rw [openings_concat_of_ne here, Recorder.openOn_hear_of_ne _ here, ih]

theorem startAt_lt (begun : startAt ms i = some start) : i < ms.length := by
  obtain ⟨m, here, _⟩ := Option.bind_eq_some_iff.mp begun
  exact (List.getElem?_eq_some_iff.mp here).choose

theorem startAt_concat (ms : List Marker) (m : Marker) (i : Nat) (start : SpanStart) :
    startAt (ms ++ [m]) i = some start ↔
      startAt ms i = some start ∨ i = ms.length ∧ m.start? = some start := by
  simp only [startAt, Option.bind_eq_some_iff, getElem?_concat_eq_some, or_and_right, exists_or]
  refine or_congr_right ⟨?_, ?_⟩
  · rintro ⟨_, ⟨last, rfl⟩, begun⟩
    exact ⟨last, begun⟩
  · rintro ⟨last, begun⟩
    exact ⟨m, ⟨last, rfl⟩, begun⟩

theorem startAt_take : startAt (ms.take j) i = some start ↔ i < j ∧ startAt ms i = some start := by
  unfold startAt
  by_cases earlier : i < j
  · rw [List.getElem?_take_of_lt earlier]
    exact ⟨fun begun => ⟨earlier, begun⟩, fun begun => begun.2⟩
  · rw [List.getElem?_take_eq_none (Nat.le_of_not_lt earlier)]
    exact ⟨nofun, fun begun => absurd begun.1 earlier⟩

theorem start?_track {m : Marker} (begun : m.start? = some start) : start.track = m.track := by
  cases m with
  | begins other => rw [← Option.some.inj begun, Marker.track]
  | ends | discards | completes => cases begun

theorem startAt_of_mem (opened : (i, start) ∈ openings track ms) :
    startAt ms i = some start ∧ start.track = track := by
  induction ms using List.reverseRecOn with
  | nil => cases opened
  | append_singleton ms m ih =>
    rw [startAt_concat]
    by_cases here : m.track = track
    · rw [openings_concat_on here, List.mem_append] at opened
      rcases opened with fresh | old
      · obtain ⟨start', begun, eq⟩ := Option.map_eq_some_iff.mp (Option.mem_toList.mp fresh)
        cases eq
        exact ⟨.inr ⟨rfl, begun⟩, (start?_track begun).trans here⟩
      · have before : (i, start) ∈ openings track ms := by
          split at old
          · exact List.mem_of_mem_tail old
          · exact old
        exact ⟨.inl (ih before).1, (ih before).2⟩
    · rw [openings_concat_of_ne here] at opened
      exact ⟨.inl (ih opened).1, (ih opened).2⟩

theorem partner_take (here : k < j) : partner (ms.take j) k = partner ms k := by
  rw [partner, partner, List.getElem?_take_of_lt here, List.take_take, min_eq_left here.le]

theorem partner_of_le (h : ms.length ≤ j) : partner ms j = none := by
  rw [partner, List.getElem?_eq_none h]
  rfl

theorem partner_concat (ms : List Marker) (m : Marker) (j : Nat) :
    partner (ms ++ [m]) j = if j = ms.length then
      (if m.closes then (openings m.track ms).head?.map (·.1) else none) else partner ms j := by
  split
  · rename_i last
    rw [partner, last, List.getElem?_concat_length, List.take_left]
    rfl
  · rename_i other
    by_cases earlier : j < ms.length
    · rw [← partner_take earlier, List.take_left]
    · have past : (ms ++ [m]).length ≤ j := by
        rw [List.length_append, List.length_singleton]
        omega
      rw [partner_of_le past, partner_of_le (Nat.le_of_not_lt earlier)]

/-- Of a list in falling order the first one is the greatest. -/
theorem head?_of_falling {opened : List (Nat × SpanStart)}
    (falling : opened.Pairwise fun a b => b.1 < a.1) :
    opened.head?.map (·.1) = some i ↔ IsGreatest {k | ∃ start, (k, start) ∈ opened} i := by
  cases opened with
  | nil => exact ⟨nofun, fun greatest => absurd greatest.1.choose_spec List.not_mem_nil⟩
  | cons first opened =>
    have below := (List.pairwise_cons.mp falling).1
    have least : ∀ k ∈ {k | ∃ start, (k, start) ∈ first :: opened}, k ≤ first.1 := by
      rintro k ⟨start, member⟩
      rcases List.mem_cons.mp member with rfl | member
      · exact Nat.le_refl _
      · exact (below _ member).le
    have greatest : IsGreatest {k | ∃ start, (k, start) ∈ first :: opened} first.1 :=
      ⟨⟨first.2, List.mem_cons_self⟩, least⟩
    constructor
    · intro head
      rw [← Option.some.inj head]
      exact greatest
    · exact fun other => congrArg some (greatest.unique other)

theorem mem_tail_of_falling {opened : List (Nat × SpanStart)}
    (falling : opened.Pairwise fun a b => b.1 < a.1) :
    (i, start) ∈ opened.tail ↔ (i, start) ∈ opened ∧ opened.head?.map (·.1) ≠ some i := by
  cases opened with
  | nil => exact ⟨nofun, fun member => member.1⟩
  | cons first opened =>
    have below := (List.pairwise_cons.mp falling).1
    constructor
    · intro member
      exact ⟨List.mem_cons_of_mem _ member, fun head =>
        absurd (Option.some.inj head) (below _ member).ne'⟩
    · rintro ⟨member, other⟩
      rcases List.mem_cons.mp member with rfl | member
      · exact absurd rfl other
      · exact member

/-- The first one was begun on the track. -/
theorem begun_of_head (head : (openings track ms).head?.map (·.1) = some i) :
    ∃ start, startAt ms i = some start ∧ start.track = track := by
  obtain ⟨⟨k, start⟩, first, rfl⟩ := Option.map_eq_some_iff.mp head
  exact ⟨start, startAt_of_mem (List.mem_of_mem_head? first)⟩

theorem head_lt (head : (openings track ms).head?.map (·.1) = some i) : i < ms.length :=
  startAt_lt (begun_of_head head).choose_spec.1

theorem partner_lt (takes : partner ms j = some i) : i < j := by
  obtain ⟨m, _, takes⟩ := Option.bind_eq_some_iff.mp takes
  split at takes
  · have bound := head_lt takes
    rw [List.length_take] at bound
    omega
  · cases takes

/-- No marker takes a begin that is still to come. -/
theorem partner_ne_length (ms : List Marker) (k : Nat) : partner ms k ≠ some ms.length := by
  intro takes
  by_cases past : ms.length ≤ k
  · rw [partner_of_le past] at takes
    cases takes
  · exact past (partner_lt takes).le

theorem untaken_concat : (∀ k, partner (ms ++ [m]) k ≠ some i) ↔ (∀ k, partner ms k ≠ some i) ∧
    (m.closes = true → (openings m.track ms).head?.map (·.1) ≠ some i) := by
  constructor
  · refine fun untaken => ⟨fun k => ?_, fun closes => ?_⟩
    · by_cases last : k = ms.length
      · rw [partner_of_le last.ge]
        exact nofun
      · have other := untaken k
        rwa [partner_concat, if_neg last] at other
    · have other := untaken ms.length
      rwa [partner_concat, if_pos rfl, if_pos closes] at other
  · rintro ⟨untaken, other⟩ k
    rw [partner_concat]
    split
    · split
      · rename_i closes
        exact other closes
      · exact nofun
    · exact untaken k

theorem falling_openings (track : Track) (ms : List Marker) :
    (openings track ms).Pairwise fun a b => b.1 < a.1 := by
  induction ms using List.reverseRecOn with
  | nil => exact .nil
  | append_singleton ms m ih =>
    by_cases here : m.track = track
    · rw [openings_concat_on here]
      cases m with
      | begins start =>
        exact List.pairwise_cons.mpr ⟨fun p member => startAt_lt (startAt_of_mem member).1, ih⟩
      | ends | discards => exact ih.tail
      | completes => exact ih
    · rw [openings_concat_of_ne here]
      exact ih

/-- After one more marker. -/
theorem mem_openings_concat (here : m.track = track) :
    (i, start) ∈ openings track (ms ++ [m]) ↔ i = ms.length ∧ m.start? = some start ∨
      (i, start) ∈ openings track ms ∧
        (m.closes = true → (openings track ms).head?.map (·.1) ≠ some i) := by
  rw [openings_concat_on here, List.mem_append]
  refine or_congr ?_ ?_
  · rw [Option.mem_toList, Option.map_eq_some_iff]
    constructor
    · rintro ⟨start', begun, eq⟩
      cases eq
      exact ⟨rfl, begun⟩
    · rintro ⟨rfl, begun⟩
      exact ⟨start, begun, rfl⟩
  · split
    · rename_i closes
      rw [mem_tail_of_falling (falling_openings track ms)]
      exact and_congr_right fun _ => ⟨fun other _ => other, fun other => other closes⟩
    · rename_i stays
      exact ⟨fun member => ⟨member, fun closes => absurd closes stays⟩, fun member => member.1⟩

/-- On a track those begins are open that no marker has taken. -/
theorem mem_openings : (i, start) ∈ openings track ms ↔
    startAt ms i = some start ∧ start.track = track ∧ ∀ k, partner ms k ≠ some i := by
  induction ms using List.reverseRecOn with
  | nil => exact ⟨nofun, nofun⟩
  | append_singleton ms m ih =>
    rw [startAt_concat, untaken_concat]
    by_cases here : m.track = track
    · rw [mem_openings_concat here, ih, here]
      constructor
      · rintro (⟨rfl, begun⟩ | ⟨⟨begun, on, untaken⟩, other⟩)
        · exact ⟨.inr ⟨rfl, begun⟩, (start?_track begun).trans here, partner_ne_length ms,
            fun _ head => (head_lt head).ne rfl⟩
        · exact ⟨.inl begun, on, untaken, other⟩
      · rintro ⟨begun | fresh, on, untaken, other⟩
        · exact .inr ⟨⟨begun, on, untaken⟩, other⟩
        · exact .inl fresh
    · rw [openings_concat_of_ne here, ih]
      constructor
      · rintro ⟨begun, on, untaken⟩
        refine ⟨.inl begun, on, untaken, fun _ head => here ?_⟩
        -- what the marker takes is on its own track
        obtain ⟨start', begun', on'⟩ := begun_of_head head
        rw [← on', ← on, Option.some.inj (begun.symm.trans begun')]
      · rintro ⟨begun | ⟨_, begun⟩, on, untaken, _⟩
        · exact ⟨begun, on, untaken⟩
        · exact absurd ((start?_track begun).symm.trans on) here

/-! ## Which begin is taken -/

structure StillOpen (ms : List Marker) (taker : Nat → Option Nat) (track : Track) (j i : Nat) :
    Prop where
  earlier : i < j
  begun : ∃ start, startAt ms i = some start ∧ start.track = track
  untaken : ∀ k < j, taker k ≠ some i

theorem stillOpen_iff (within : j ≤ ms.length) :
    StillOpen ms (partner ms) track j i ↔ ∃ start, (i, start) ∈ openings track (ms.take j) := by
  have length : (ms.take j).length = j := List.length_take_of_le within
  have taken : (∀ k, partner (ms.take j) k ≠ some i) ↔ ∀ k < j, partner ms k ≠ some i := by
    constructor
    · intro untaken k here
      rw [← partner_take here]
      exact untaken k
    · intro untaken k
      by_cases here : k < j
      · rw [partner_take here]
        exact untaken k here
      · rw [partner_of_le (by omega)]
        exact nofun
  constructor
  · rintro ⟨earlier, ⟨start, begun, on⟩, untaken⟩
    exact ⟨start, mem_openings.mpr ⟨startAt_take.mpr ⟨earlier, begun⟩, on, taken.mpr untaken⟩⟩
  · rintro ⟨start, member⟩
    obtain ⟨begun, on, untaken⟩ := mem_openings.mp member
    obtain ⟨earlier, begun⟩ := startAt_take.mp begun
    exact ⟨earlier, ⟨start, begun, on⟩, taken.mp untaken⟩

/-- An end or a discard takes the latest begin on its track that is still open. -/
theorem partner_eq_some_iff (ms : List Marker) (j i : Nat) :
    partner ms j = some i ↔ ∃ m, ms[j]? = some m ∧ m.closes = true ∧
      IsGreatest {k | StillOpen ms (partner ms) m.track j k} i := by
  have latest : ∀ m : Marker, j ≤ ms.length →
      ((openings m.track (ms.take j)).head?.map (·.1) = some i ↔
        IsGreatest {k | StillOpen ms (partner ms) m.track j k} i) := by
    intro m within
    rw [head?_of_falling (falling_openings _ _)]
    simp only [stillOpen_iff within]
  constructor
  · intro takes
    obtain ⟨m, here, takes⟩ := Option.bind_eq_some_iff.mp takes
    have within := (List.getElem?_eq_some_iff.mp here).choose.le
    split at takes
    · rename_i closes
      exact ⟨m, here, closes, (latest m within).mp takes⟩
    · cases takes
  · rintro ⟨m, here, closes, greatest⟩
    have within := (List.getElem?_eq_some_iff.mp here).choose.le
    rw [partner, here, Option.bind_some, if_pos closes]
    exact (latest m within).mpr greatest

end Places

/-! ## Brackets -/

def dealsBy (ms : List Marker) (taker : Nat → Option Nat) : List Deal :=
  ms.mapIdx fun j m => ⟨m, (taker j).bind (startAt ms)⟩

namespace Recorder

theorem getElem?_deals (r : Recorder) (ms : List Marker) (j : Nat) :
    (r.deals ms)[j]? = ms[j]?.map (r.hearAll (ms.take j)).deal := by
  induction ms generalizing r j with
  | nil => rfl
  | cons m ms ih =>
    cases j with
    | zero => rfl
    | succ j => exact ih (r.hear m) j

/-- A recorder deals with the markers as their numbers say. -/
theorem deals_eq (ms : List Marker) : ({} : Recorder).deals ms = dealsBy ms (partner ms) := by
  refine List.ext_getElem? fun j => ?_
  rw [getElem?_deals, dealsBy, List.getElem?_mapIdx, ← heard]
  cases here : ms[j]? with
  | none => rfl
  | some m =>
    rw [Option.map_some, Option.map_some, deal, partner, here, Option.bind_some, ← map_openings,
      List.head?_map]
    refine congrArg (fun taken => some (Deal.mk m taken)) ?_
    split
    · cases head : (openings m.track (ms.take j)).head? with
      | none => rfl
      | some p =>
        have begun := (startAt_of_mem (List.mem_of_mem_head? head)).1
        exact (startAt_take.mp begun).2.symm
    · rfl

structure Fits (ds : List Deal) (r : Recorder) : Prop where
  finished : r.finished.toList = ds.filterMap Deal.span?
  unmatched : r.unmatchedEnds = ds.countP (·.isUnmatched)
  discarded : r.discarded = ds.countP (·.isDiscarded)
  balanced : ds.countP (·.isBegun) = ds.countP (·.isEnded) + r.discarded + r.openCount

theorem fits_deals (ms : List Marker) :
    Fits (({} : Recorder).deals ms) (heard ms) := by
  have follows : Follows {} _ (heard ms) := follows_deals {} ms
  refine ⟨follows.finished, ?_, ?_, ?_⟩
  · exact follows.unmatched.trans (Nat.zero_add _)
  · exact follows.discarded.trans (Nat.zero_add _)
  · have discarded := follows.discarded.trans (Nat.zero_add _)
    have opened := follows.opened
    have none : ({} : Recorder).openCount = 0 := by rfl
    omega

/-- The markers are brackets, each track for itself, and the recorder has matched them; `taker`
gives the number of the begin that a marker takes. -/
structure Matched (ms : List Marker) (taker : Nat → Option Nat) (r : Recorder) : Prop where
  takes : ∀ j i, taker j = some i ↔ ∃ m, ms[j]? = some m ∧ m.closes = true ∧
    IsGreatest {k | StillOpen ms taker m.track j k} i
  fits : Fits (dealsBy ms taker) r
  opened : ∀ track, ∃ is : List Nat, is.Pairwise (· > ·) ∧
    (∀ i, i ∈ is ↔ StillOpen ms taker track ms.length i) ∧
    r.openOn track = is.filterMap (startAt ms)
  /-- A recorder that hears of one track only comes to the same on it. -/
  apart : ∀ track, (heard (ms.filter (·.isOn track))).openOn track = r.openOn track ∧
    Fits ((dealsBy ms taker).filter (·.isOn track)) (heard (ms.filter (·.isOn track)))
  trim : r.Trim

theorem matched_partner (ms : List Marker) :
    Matched ms (partner ms) (heard ms) where
  takes := partner_eq_some_iff ms
  fits := deals_eq ms ▸ fits_deals ms
  opened track := by
    have numbered : (openings track ms).filterMap (fun p => startAt ms p.1) =
        (openings track ms).map (·.2) := by
      rw [← List.filterMap_eq_map]
      exact List.filterMap_congr fun p member => (startAt_of_mem member).1
    refine ⟨(openings track ms).map (·.1), ?_, fun i => ?_, ?_⟩
    · exact List.pairwise_map.mpr (falling_openings track ms)
    · rw [stillOpen_iff le_rfl, List.take_length, List.mem_map]
      exact ⟨fun ⟨p, member, eq⟩ => ⟨p.2, eq ▸ member⟩, fun ⟨start, member⟩ => ⟨_, member, rfl⟩⟩
    · rw [List.filterMap_map, ← map_openings, ← numbered]
      rfl
  apart track := by
    have same : ({} : Recorder).openOn track = ({} : Recorder).openOn track := rfl
    obtain ⟨deals, opened⟩ := deals_on same ms
    refine ⟨opened, ?_⟩
    rw [← deals_eq, ← deals]
    exact fits_deals _
  trim := Trim.hearAll (fun _ => by simp) ms

/-- Whatever it hears, a recorder matches brackets; and a span that is complete at once always is as
good as one that begins and ends. -/
theorem matches_brackets (ms : List Marker) :
    (∃ taker, Matched ms taker (heard ms)) ∧
      ∀ start endsAt, (heard ms).completeSpan start endsAt =
        ((heard ms).beginSpan start).endSpan start.track endsAt :=
  ⟨⟨partner ms, matched_partner ms⟩, (matched_partner ms).trim.completeSpan⟩

end Recorder

end SpanWeave
