import SpanWeave.Proofs.Span.Balance

set_option autoImplicit false

/-!
# Markers

What a recorder makes of one marker, of a row of them, and of those of one track. Everything that it
counts and keeps follows from the begins that the markers take.
-/
namespace SpanWeave

inductive Marker where
  | begins (start : SpanStart)
  | ends (track : Track) (time : Nanos)
  | discards (track : Track)
  | completes (start : SpanStart) (endsAt : Nanos)

namespace Marker

def track : Marker → Track
  | begins start | completes start _ => start.track
  | ends track _ | discards track => track

def start? : Marker → Option SpanStart
  | begins start => some start
  | ends _ _ | discards _ | completes _ _ => none

def isOn (track : Track) (m : Marker) : Bool := m.track = track

def closes : Marker → Bool
  | ends _ _ | discards _ => true
  | begins _ | completes _ _ => false

end Marker

structure Deal where
  marker : Marker
  taken : Option SpanStart

namespace Deal

def isOn (track : Track) (d : Deal) : Bool := d.marker.isOn track

def span? : Deal → Option Span
  | ⟨.ends _ time, some start⟩ => some (start.finish time)
  | ⟨.completes start endsAt, _⟩ => some (start.finish endsAt)
  | _ => none

def isBegun (d : Deal) : Bool := d.marker.start?.isSome

def isEnded : Deal → Bool
  | ⟨.ends _ _, some _⟩ => true
  | _ => false

def isDiscarded : Deal → Bool
  | ⟨.discards _, some _⟩ => true
  | _ => false

def isUnmatched : Deal → Bool
  | ⟨.ends _ _, none⟩ => true
  | _ => false

end Deal

namespace Recorder

def hear (r : Recorder) : Marker → Recorder
  | .begins start => r.beginSpan start
  | .ends track time => r.endSpan track time
  | .discards track => r.discardSpan track
  | .completes start endsAt => r.completeSpan start endsAt

def hearAll (r : Recorder) (ms : List Marker) : Recorder := ms.foldl hear r

def heard (ms : List Marker) : Recorder := ({} : Recorder).hearAll ms

def deal (r : Recorder) (m : Marker) : Deal :=
  ⟨m, if m.closes then (r.openOn m.track).head? else none⟩

def deals (r : Recorder) : List Marker → List Deal
  | [] => []
  | m :: ms => r.deal m :: (r.hear m).deals ms

theorem hearAll_append (r : Recorder) (ms more : List Marker) :
    r.hearAll (ms ++ more) = (r.hearAll ms).hearAll more := List.foldl_append

/-! ## One marker -/

/-- All that a recorder can do with a marker, and the begin that the marker takes. -/
inductive Hears (r : Recorder) : Marker → Option SpanStart → Recorder → Prop
  | begins (start : SpanStart) : Hears r (.begins start) none (r.beginSpan start)
  | ends {track : Track} {start : SpanStart} {starts : List SpanStart} (time : Nanos)
      (opened : r.openOn track = start :: starts) :
      Hears r (.ends track time) (some start)
        { r.setOpen track starts with finished := r.finished.push (start.finish time) }
  | unmatched {track : Track} (time : Nanos) (opened : r.openOn track = []) :
      Hears r (.ends track time) none { r with unmatchedEnds := r.unmatchedEnds + 1 }
  | discards {track : Track} {start : SpanStart} {starts : List SpanStart}
      (opened : r.openOn track = start :: starts) :
      Hears r (.discards track) (some start)
        { r.setOpen track starts with discarded := r.discarded + 1 }
  | idle {track : Track} (opened : r.openOn track = []) : Hears r (.discards track) none r
  | completes (start : SpanStart) (endsAt : Nanos) :
      Hears r (.completes start endsAt) none (r.completeSpan start endsAt)

theorem hears (r : Recorder) (m : Marker) : Hears r m (r.deal m).taken (r.hear m) := by
  cases m with
  | begins start => exact .begins start
  | ends track time =>
    change Hears r _ (r.openOn track).head? (r.endSpan track time)
    cases opened : r.openOn track with
    | nil =>
      rw [endSpan, opened]
      exact .unmatched time opened
    | cons start starts =>
      rw [endSpan_eq opened]
      exact .ends time opened
  | discards track =>
    change Hears r _ (r.openOn track).head? (r.discardSpan track)
    rw [discardSpan]
    cases opened : r.openOn track with
    | nil => exact .idle opened
    | cons start starts =>
      simp only [discarded_setOpen]
      exact .discards opened
  | completes start endsAt => exact .completes start endsAt

structure Follows (r : Recorder) (ds : List Deal) (r' : Recorder) : Prop where
  finished : r'.finished.toList = r.finished.toList ++ ds.filterMap Deal.span?
  unmatched : r'.unmatchedEnds = r.unmatchedEnds + ds.countP (·.isUnmatched)
  discarded : r'.discarded = r.discarded + ds.countP (·.isDiscarded)
  opened : r'.openCount + ds.countP (·.isEnded) + ds.countP (·.isDiscarded) =
    r.openCount + ds.countP (·.isBegun)

theorem Follows.refl (r : Recorder) : Follows r [] r := ⟨by simp, rfl, rfl, rfl⟩

theorem Follows.trans {r r' r'' : Recorder} {ds more : List Deal} (first : Follows r ds r')
    (rest : Follows r' more r'') : Follows r (ds ++ more) r'' where
  finished := by
    rw [rest.finished, first.finished, List.filterMap_append, List.append_assoc]
  unmatched := by
    rw [rest.unmatched, first.unmatched, List.countP_append, Nat.add_assoc]
  discarded := by
    rw [rest.discarded, first.discarded, List.countP_append, Nat.add_assoc]
  opened := by
    have before := first.opened
    have after := rest.opened
    simp only [List.countP_append]
    omega

theorem Hears.follows {r r' : Recorder} {m : Marker} {taken : Option SpanStart}
    (h : Hears r m taken r') : Follows r [⟨m, taken⟩] r' := by
  cases h with
  | begins start =>
    have count := openCount_setOpen r start.track (start :: r.openOn start.track)
    rw [List.length_cons] at count
    refine ⟨?_, r.unmatchedEnds_beginSpan start, discarded_setOpen r _ _, ?_⟩
    · rw [finished_beginSpan]
      exact (List.append_nil _).symm
    · change (r.setOpen _ _).openCount = r.openCount + 1
      omega
  | @ends track start starts time opened =>
    have count := openCount_setOpen r track starts
    rw [opened, List.length_cons] at count
    refine ⟨Array.toList_push, unmatchedEnds_setOpen r _ _, discarded_setOpen r _ _, ?_⟩
    change (r.setOpen track starts).openCount + 1 = r.openCount
    omega
  | unmatched time opened => exact ⟨(List.append_nil _).symm, rfl, rfl, rfl⟩
  | @discards track start starts opened =>
    have count := openCount_setOpen r track starts
    rw [opened, List.length_cons] at count
    refine ⟨?_, unmatchedEnds_setOpen r _ _, rfl, ?_⟩
    · change (r.setOpen track starts).finished.toList = _
      rw [finished_setOpen]
      exact (List.append_nil _).symm
    · change (r.setOpen track starts).openCount + 1 = r.openCount
      omega
  | idle opened => exact ⟨(List.append_nil _).symm, rfl, rfl, rfl⟩
  | completes start endsAt => exact ⟨Array.toList_push, rfl, rfl, rfl⟩

theorem follows_deals (r : Recorder) (ms : List Marker) :
    Follows r (r.deals ms) (r.hearAll ms) := by
  induction ms generalizing r with
  | nil => exact .refl r
  | cons m ms ih => exact (r.hears m).follows.trans (ih (r.hear m))

/-! ## One track -/

/-- What is open on a track after a marker of that track. -/
theorem openOn_hear (r : Recorder) (m : Marker) : (r.hear m).openOn m.track =
    m.start?.toList ++ if m.closes then (r.openOn m.track).tail else r.openOn m.track := by
  cases m with
  | begins start => exact r.openOn_beginSpan start
  | ends track time => exact r.openOn_endSpan track time
  | discards track => exact r.openOn_discardSpan track
  | completes start endsAt => rfl

theorem openOn_hear_of_ne (r : Recorder) {m : Marker} {other : Track} (h : m.track ≠ other) :
    (r.hear m).openOn other = r.openOn other := by
  cases m with
  | begins start => exact r.openOn_beginSpan_of_ne start h
  | ends track time => exact r.openOn_endSpan_of_ne h time
  | discards track => exact r.openOn_discardSpan_of_ne h
  | completes start endsAt => rfl

/-- The markers of a track deal with each other as if there were no others. -/
theorem deals_on {r own : Recorder} {track : Track} (same : own.openOn track = r.openOn track)
    (ms : List Marker) :
    own.deals (ms.filter (·.isOn track)) = (r.deals ms).filter (·.isOn track) ∧
      (own.hearAll (ms.filter (·.isOn track))).openOn track = (r.hearAll ms).openOn track := by
  induction ms generalizing r own with
  | nil => exact ⟨rfl, same⟩
  | cons m ms ih =>
    by_cases here : m.track = track
    · have kept : m.isOn track = true := decide_eq_true here
      have dealt : own.deal m = r.deal m := by rw [deal, deal, here, same]
      have next : (own.hear m).openOn track = (r.hear m).openOn track := by
        rw [← here, openOn_hear, openOn_hear, here, same]
      obtain ⟨deals, opened⟩ := ih next
      rw [List.filter_cons_of_pos kept, Recorder.deals, Recorder.deals,
        List.filter_cons_of_pos (a := r.deal m) kept, dealt, deals]
      exact ⟨rfl, opened⟩
    · have left : ¬ m.isOn track = true := fun on => here (of_decide_eq_true on)
      have next : own.openOn track = (r.hear m).openOn track := by
        rw [same, r.openOn_hear_of_ne here]
      obtain ⟨deals, opened⟩ := ih next
      rw [List.filter_cons_of_neg left, Recorder.deals,
        List.filter_cons_of_neg (a := r.deal m) left, deals]
      exact ⟨rfl, opened⟩

/-! ## No track is empty -/

def Trim (r : Recorder) : Prop := ∀ track : Track, r.opened[track]? ≠ some []

theorem getElem?_setOpen (r : Recorder) (track other : Track) (starts : List SpanStart) :
    (r.setOpen track starts).opened[other]? =
      if track = other then (if starts = [] then none else some starts) else r.opened[other]? := by
  cases starts with
  | nil => simp [setOpen, Std.ExtTreeMap.getElem?_erase]
  | cons start starts => simp [setOpen, Std.ExtTreeMap.getElem?_insert]

theorem Trim.setOpen {r : Recorder} (trim : r.Trim) (track : Track) (starts : List SpanStart) :
    (r.setOpen track starts).Trim := by
  intro other
  rw [getElem?_setOpen]
  split
  · split
    · exact nofun
    · rename_i some
      exact fun eq => some (Option.some.inj eq)
  · exact trim other

theorem Trim.hear {r : Recorder} (trim : r.Trim) (m : Marker) : (r.hear m).Trim := by
  have step := r.hears m
  generalize r.hear m = r', (r.deal m).taken = taken at step
  cases step with
  | begins start => exact trim.setOpen _ _
  | ends time opened => exact trim.setOpen _ _
  | discards opened => exact trim.setOpen _ _
  | unmatched time opened => exact trim
  | idle opened => exact trim
  | completes start endsAt => exact trim

theorem Trim.hearAll {r : Recorder} (trim : r.Trim) (ms : List Marker) : (r.hearAll ms).Trim := by
  induction ms generalizing r with
  | nil => exact trim
  | cons m ms ih => exact ih (trim.hear m)

theorem Trim.setOpen_openOn {r : Recorder} (trim : r.Trim) (track : Track)
    (starts : List SpanStart) : ((r.setOpen track starts).setOpen track (r.openOn track)).opened =
      r.opened := by
  refine Std.ExtTreeMap.ext_getElem? fun other => ?_
  rw [getElem?_setOpen, getElem?_setOpen]
  by_cases same : track = other
  · rw [if_pos same, openOn, Std.ExtTreeMap.getD_eq_getD_getElem?, same]
    cases opened : r.opened[other]? with
    | none => rfl
    | some starts =>
      have some : starts ≠ [] := fun none => trim other (none ▸ opened)
      exact if_neg some
  · rw [if_neg same, if_neg same]

/-- A span that is complete at once is one that begins and ends. -/
theorem Trim.completeSpan {r : Recorder} (trim : r.Trim) (start : SpanStart) (endsAt : Nanos) :
    r.completeSpan start endsAt = (r.beginSpan start).endSpan start.track endsAt := by
  have opened := trim.setOpen_openOn start.track (start :: r.openOn start.track)
  rw [endSpan_eq (r.openOn_beginSpan start), finished_beginSpan, beginSpan]
  generalize left : (r.setOpen start.track (start :: r.openOn start.track)).setOpen start.track
    (r.openOn start.track) = r' at opened ⊢
  have discarded : r'.discarded = r.discarded := by
    rw [← left, discarded_setOpen, discarded_setOpen]
  have unmatched : r'.unmatchedEnds = r.unmatchedEnds := by
    rw [← left, unmatchedEnds_setOpen, unmatchedEnds_setOpen]
  dsimp only
  rw [opened, discarded, unmatched]
  rfl

end Recorder

end SpanWeave
