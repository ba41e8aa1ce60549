import SpanWeave.Proofs.Clock.Accuracy

set_option autoImplicit false

/-!
# The skew is settled once

The first question for the offset reads the clocks, in a fixed order and up to the first reading
that fails. What it leads to, a failure included, is the answer to every later question, for which
no clock is read.
-/
namespace SpanWeave

/-! ## Readings in order -/

namespace Clocks

def of (c : Clocks) : ClockSide → Clock
  | .host => c.host
  | .device => c.device

end Clocks

namespace Reads

def made (r : Reads) : ClockSide → Nat
  | .host => r.host
  | .device => r.device

def past (r : Reads) (sides : List ClockSide) : Reads where
  order := sides.reverse ++ r.order
  host := r.host + sides.count .host
  device := r.device + sides.count .device

theorem past_append (r : Reads) (sides more : List ClockSide) :
    r.past (sides ++ more) = (r.past sides).past more := by
  simp only [past, List.reverse_append, List.append_assoc, List.count_append, Nat.add_assoc]

theorem made_past (r : Reads) (sides : List ClockSide) (side : ClockSide) :
    (r.past sides).made side = r.made side + sides.count side := by
  cases side <;> rfl

end Reads

namespace Clocks

variable {c : Clocks} {r : Reads} {sides more : List ClockSide}

/-- No reading fails when the clocks are read in this order. -/
def Shows (c : Clocks) (r : Reads) (sides : List ClockSide) : Prop :=
  ∀ side, ∀ k < sides.count side, ∃ time, c.of side (r.made side + k) = .ok time

theorem shows_nil : c.Shows r [] := nofun

theorem Shows.append (first : c.Shows r sides) (rest : c.Shows (r.past sides) more) :
    c.Shows r (sides ++ more) := by
  intro side k here
  rw [List.count_append] at here
  by_cases early : k < sides.count side
  · exact first side k early
  · obtain ⟨time, shown⟩ := rest side (k - sides.count side) (by omega)
    rw [Reads.made_past] at shown
    exact ⟨time, by rw [← shown]; congr 1; omega⟩

/-- The program reads the clocks in this order and stops at the first reading that fails. -/
def Follows {α : Type} (c : Clocks) (x : Reading α) (sides : List ClockSide) : Prop :=
  ∀ r, (c.Shows r sides ∧ ∃ a, x r = (.ok a, r.past sides)) ∨
    ∃ before side fault, before ++ [side] <+: sides ∧ c.Shows r before ∧
      c.of side (r.made side + before.count side) = .error fault ∧
      x r = (.error fault, r.past (before ++ [side]))

theorem follows_pure {α : Type} (a : α) : c.Follows (pure a) [] :=
  fun _ => .inl ⟨shows_nil, a, rfl⟩

theorem follows_read (c : Clocks) (side : ClockSide) : c.Follows (c.read side) [side] := by
  intro r
  have read : c.read side r = (c.of side (r.made side), r.past [side]) := by cases side <;> rfl
  cases shown : c.of side (r.made side) with
  | ok time =>
    refine .inl ⟨fun other k here => ⟨time, ?_⟩, time, by rw [read, shown]⟩
    have bound : List.count other [side] ≤ 1 := List.count_le_length
    have same : other = side := (List.mem_singleton.mp
      (List.count_pos_iff.mp (Nat.zero_lt_of_lt here)))
    have first : k = 0 := by omega
    rw [same, first]
    exact shown
  | error fault =>
    exact .inr ⟨[], side, fault, List.prefix_refl _, shows_nil, shown, by rw [read, shown]; rfl⟩

theorem Follows.bind {α β : Type} {x : Reading α} {f : α → Reading β} (first : c.Follows x sides)
    (rest : ∀ a, c.Follows (f a) more) : c.Follows (x >>= f) (sides ++ more) := by
  intro r
  rcases first r with ⟨shown, a, read⟩ | ⟨before, side, fault, early, shown, fails, read⟩
  · rw [Reading.bind_of_ok read]
    rcases rest a (r.past sides) with
      ⟨shown', b, read'⟩ | ⟨before, side, fault, early, shown', fails, read'⟩
    · exact .inl ⟨shown.append shown', b, by rw [read', ← Reads.past_append]⟩
    · refine .inr ⟨sides ++ before, side, fault, ?_, shown.append shown', ?_, ?_⟩
      · rw [List.append_assoc]
        exact (List.prefix_append_right_inj sides).mpr early
      · rw [List.count_append, ← Nat.add_assoc, ← Reads.made_past]
        exact fails
      · rw [read', ← Reads.past_append, List.append_assoc]
  · refine .inr ⟨before, side, fault, early.trans (List.prefix_append _ _), shown, fails, ?_⟩
    change ExceptT.bindCont f (x r).1 (x r).2 = _
    rw [read]
    rfl

theorem follows_mapM {α β : Type} {f : α → Reading β} (each : ∀ a, c.Follows (f a) sides)
    (xs : List α) : c.Follows (xs.mapM f) (List.replicate xs.length sides).flatten := by
  induction xs with
  | nil => exact follows_pure _
  | cons x xs ih =>
    rw [List.mapM_cons, List.length_cons, List.replicate_succ, List.flatten_cons,
      ← List.append_nil (List.replicate xs.length sides).flatten]
    exact (each x).bind fun b => ih.bind fun bs => follows_pure _

theorem follows_bracket (c : Clocks) : c.Follows c.bracket [.host, .device, .host] :=
  (c.follows_read .host).bind fun _ => (c.follows_read .device).bind fun _ =>
    (c.follows_read .host).bind fun _ => follows_pure _

end Clocks

def readingOrder (n : Nat) : List ClockSide :=
  [.host, .device] ++ (List.replicate n [.host, .device, .host]).flatten

theorem count_host_readingOrder (n : Nat) : (readingOrder n).count .host = 2 * n + 1 := by
  simp [readingOrder, List.count_flatten]
  omega

theorem count_device_readingOrder (n : Nat) : (readingOrder n).count .device = n + 1 := by
  simp [readingOrder, List.count_flatten]

theorem Clocks.follows_calibrate (c : Clocks) {n : Nat} (measured : 1 ≤ n) :
    c.Follows (c.calibrate n) (readingOrder n) := by
  have brackets := c.follows_bracket
  unfold calibrate readingOrder
  rw [max_eq_left measured]
  have all := follows_mapM (fun _ => brackets) (List.range n)
  rw [List.length_range] at all
  rw [← List.append_nil (List.replicate n _).flatten]
  exact (c.follows_read .host).bind fun _ => (c.follows_read .device).bind fun _ =>
    all.bind fun _ => follows_pure _

/-! ## What the first question leads to -/

structure Dials where
  host : Nat → Except Fault UInt64
  device : Nat → Except Fault UInt64

namespace Dials

def clocks (d : Dials) : Clocks where
  host k := (d.host k).map UInt64.toNat
  device k := (d.device k).map UInt64.toNat

/-- All that a measurement with `n` brackets can come to: the offset, the clocks that were read and
the warnings. -/
inductive Measures (d : Dials) (n : Nat) (enabled : Bool) :
    Int → List ClockSide → List Warning → Prop
  | failed {before : List ClockSide} {side : ClockSide} {fault : Fault}
      (early : before ++ [side] <+: readingOrder n)
      (shown : ∀ other, ∀ k < before.count other, ∃ time, d.clocks.of other k = .ok time)
      (fails : d.clocks.of side (before.count side) = .error fault) :
      Measures d n enabled 0 (before ++ [side]) [.skewUnavailable fault]
  | taken {l : ClockLog} (shown : l.ShownBy d.clocks n) :
      Measures d n enabled (if enabled then (l.calibration n).offset else 0) (readingOrder n) []

variable {d : Dials} {n : Nat}

/-- Clocks that do not fail show the times of a log. -/
theorem exists_log (shown : d.clocks.Shows {} (readingOrder n)) :
    ∃ l : ClockLog, l.ShownBy d.clocks n := by
  have logged : ∀ x : Except Fault UInt64, (∃ time, x.map UInt64.toNat = .ok time) →
      x.map UInt64.toNat = .ok (x.toOption.getD 0).toNat := by
    rintro (fault | time) ⟨_, eq⟩
    · cases eq
    · rfl
  refine ⟨⟨fun k => (d.host k).toOption.getD 0, fun k => (d.device k).toOption.getD 0⟩,
    fun k here => logged _ ?_, fun k here => logged _ ?_⟩
  · obtain ⟨time, shown⟩ := shown .host k (by rw [count_host_readingOrder]; omega)
    rw [Reads.made, Nat.zero_add] at shown
    exact ⟨time, shown⟩
  · obtain ⟨time, shown⟩ := shown .device k (by rw [count_device_readingOrder]; omega)
    rw [Reads.made, Nat.zero_add] at shown
    exact ⟨time, shown⟩

end Dials

namespace Skew

variable {s : Skew} {clocks : Clocks} {reads : Reads}

theorem ask_of_ok {c : Calibration} (fresh : s.measured = none)
    (read : clocks.calibrate s.iterations {} = (.ok c, reads)) :
    s.ask clocks = { offset := if s.enabled then c.offset else 0,
                     skew := { s with measured := some (some c) }, reads } := by
  unfold ask
  rw [fresh, read]
  rfl

theorem ask_of_error {fault : Fault} (fresh : s.measured = none)
    (read : clocks.calibrate s.iterations {} = (.error fault, reads)) :
    s.ask clocks = { offset := 0, skew := { s with measured := some none }, reads,
                     warnings := [.skewUnavailable fault] } := by
  unfold ask
  rw [fresh, read]

/-- The first question is answered with what the clocks lead to, and this is kept. -/
theorem measures_ask (fresh : s.measured = none) (measured : 1 ≤ s.iterations) (d : Dials) :
    d.Measures s.iterations s.enabled (s.ask d.clocks).offset
        (s.ask d.clocks).reads.order.reverse (s.ask d.clocks).warnings ∧
      (s.ask d.clocks).skew.measured.isSome ∧
      (s.ask d.clocks).skew.current = (s.ask d.clocks).offset := by
  have order (sides : List ClockSide) : (({} : Reads).past sides).order.reverse = sides := by
    rw [Reads.past, List.append_nil, List.reverse_reverse]
  have none (side : ClockSide) (k : Nat) : ({} : Reads).made side + k = k := by
    cases side <;> exact Nat.zero_add k
  rcases d.clocks.follows_calibrate measured {} with
    ⟨shown, c, read⟩ | ⟨before, side, fault, early, shown, fails, read⟩
  · rw [ask_of_ok fresh read]
    refine ⟨?_, rfl, rfl⟩
    obtain ⟨l, shown⟩ := Dials.exists_log shown
    have value := Clocks.calibrate_eq measured shown
    rw [read, l.ofBrackets_eq] at value
    rw [Except.ok.inj value, order]
    exact .taken shown
  · rw [ask_of_error fresh read]
    refine ⟨?_, rfl, rfl⟩
    rw [order]
    refine .failed early (fun other k here => ?_) ?_
    · obtain ⟨time, shown⟩ := shown other k here
      rw [none] at shown
      exact ⟨time, shown⟩
    · rw [none] at fails
      exact fails

end Skew

/-! ## Whole histories -/

namespace Skew

/-- What a skew is asked; the clocks may be other ones every time. -/
inductive Question where
  | offset (dials : Dials)
  | apply (time : UInt64)

inductive Answer where
  /-- The offset, with the clocks that were read for it, in order, and the warnings. -/
  | offset (value : Int) (reads : List ClockSide) (warnings : List Warning)
  | time (time : Nanos)

def reply (s : Skew) : Question → Answer × Skew
  | .offset dials =>
    let asked := s.ask dials.clocks
    (.offset asked.offset asked.reads.order.reverse asked.warnings, asked.skew)
  | .apply time => (.time (s.apply time.toNat), s)

def replies (s : Skew) : List Question → List Answer
  | [] => []
  | q :: qs => (s.reply q).1 :: (s.reply q).2.replies qs

def saturated (i : Int) : Nat := (max 0 (min i 0xffffffffffffffff)).toNat

def settled (value : Int) : Question → Answer
  | .offset _ => .offset value [] []
  | .apply time => .time (saturated (time.toNat + value))

theorem shiftTime_eq_saturated (time : Nanos) (offset : Int) :
    shiftTime time offset = saturated (time + offset) := by
  change (_ : Nat) = _
  unfold shiftTime saturated timeLimit UInt64.size
  omega

theorem saturated_toNat (time : UInt64) : saturated time.toNat = time.toNat := by
  have bound := time.toNat_lt
  unfold saturated
  omega

theorem reply_settled {s : Skew} (measured : s.measured.isSome) (q : Question) :
    s.reply q = (settled s.current q, s) := by
  cases q with
  | offset dials =>
    obtain ⟨c, m⟩ := Option.isSome_iff_exists.mp measured
    unfold reply ask
    rw [m]
    rfl
  | apply time => rw [reply, Skew.apply, shiftTime_eq_saturated, settled]

theorem replies_settled {s : Skew} (measured : s.measured.isSome) (qs : List Question) :
    s.replies qs = qs.map (settled s.current) := by
  induction qs with
  | nil => rfl
  | cons q qs ih => rw [replies, reply_settled measured, ih, List.map_cons]

/-- Times are left as they are until the offset is asked for. -/
theorem replies_fresh {s : Skew} (fresh : s.measured = none) (times : List UInt64)
    (qs : List Question) : s.replies (times.map .apply ++ qs) =
      times.map (fun time => .time time.toNat) ++ s.replies qs := by
  have still : s.current = 0 := by
    unfold current calibration?
    rw [fresh]
    rfl
  induction times with
  | nil => rfl
  | cons time times ih =>
    have reply : s.reply (.apply time) = (.time time.toNat, s) := by
      rw [Skew.reply, Skew.apply, still, shiftTime_eq_saturated, Int.add_zero, saturated_toNat]
    rw [List.map_cons, List.cons_append, replies, reply, ih]
    rfl

theorem exists_first (qs : List Question) : ∃ times : List UInt64, qs = times.map .apply ∨
    ∃ dials later, qs = times.map .apply ++ .offset dials :: later := by
  induction qs with
  | nil => exact ⟨[], .inl rfl⟩
  | cons q qs ih =>
    cases q with
    | offset dials => exact ⟨[], .inr ⟨dials, qs, rfl⟩⟩
    | apply time =>
      obtain ⟨times, rfl | ⟨dials, later, rfl⟩⟩ := ih
      · exact ⟨time :: times, .inl rfl⟩
      · exact ⟨time :: times, .inr ⟨dials, later, rfl⟩⟩

/-- Only the first question for the offset reads clocks, and it may warn. The offset that it gives,
0 if a reading fails or the offset is not wanted, is given and applied ever after; before it times
are left as they are. -/
theorem settled_once (iterations : Nat) (enabled : Bool) (qs : List Question) :
    let answers := (start iterations enabled).replies qs
    ∃ times : List UInt64,
      (qs = times.map .apply ∧ answers = times.map fun time => .time time.toNat) ∨
      ∃ (dials : Dials) (later : List Question) (value : Int) (reads : List ClockSide)
        (warnings : List Warning),
        qs = times.map .apply ++ .offset dials :: later ∧
        dials.Measures (max iterations 1) enabled value reads warnings ∧
        answers = (times.map fun time => .time time.toNat) ++
          .offset value reads warnings :: later.map (settled value) := by
  intro answers
  have fresh : (start iterations enabled).measured = none := rfl
  obtain ⟨times, all | ⟨dials, later, split⟩⟩ := exists_first qs
  · refine ⟨times, .inl ⟨all, ?_⟩⟩
    have replied := replies_fresh fresh times []
    rw [List.append_nil, ← all] at replied
    exact replied.trans (List.append_nil _)
  · obtain ⟨measures, kept, same⟩ := measures_ask fresh (le_max_right iterations 1) dials
    refine ⟨times, .inr ⟨dials, later, _, _, _, split, measures, ?_⟩⟩
    have replied := replies_fresh fresh times (.offset dials :: later)
    rw [← split] at replied
    refine replied.trans (congrArg (_ ++ ·) ?_)
    rw [replies]
    refine congrArg _ ?_
    rw [← same]
    exact replies_settled kept later

end Skew

end SpanWeave
