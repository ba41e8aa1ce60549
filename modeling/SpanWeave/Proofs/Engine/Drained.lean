import SpanWeave.Proofs.Engine.Batches
import SpanWeave.Proofs.Engine.Sides

set_option autoImplicit false

/-!
# Drained threads

What a thread has drained so far tells the laps of what it drains next; with that, all that one
batch does.
-/
namespace SpanWeave

/-! ## Histories -/

/-- A thread that keeps all its counters, and the completions that took a lap on it. Engines may
change in between. -/
inductive ThreadState.Drained : ThreadState → List Completion → Prop
  | start (thread : ThreadId) : Drained (.start thread .unbounded) []
  | call {t : ThreadState} {past : List Completion} (e : Engine) (c : HostCall) (now : Nanos)
      (before : Drained t past) : Drained (e.onCall t c now).2.1 past
  | drain {t : ThreadState} {past : List Completion} (e : Engine) (clocks : Clocks)
      (batch : List Completion) (before : Drained t past) :
      Drained (e.drain clocks t batch).2.1 (past ++ batch.filter (·.isLooked e.activityFilter))

theorem ThreadState.Drained.counts {t : ThreadState} {past : List Completion}
    (h : t.Drained past) : t.laps.Counts past := by
  induction h with
  | start thread => exact ⟨rfl, fun id => Std.ExtTreeMap.getElem?_empty⟩
  | @call t past e c now before ih =>
    have base := e.setting.base_call t (e.entry c.correlation) (e.ids.allocated + 1) c now
    rw [e.onCall_decided]
    dsimp only
    rw [ThreadState.laps_of_base base]
    exact ih
  | @drain t past e clocks batch before ih =>
    obtain ⟨e', taken, _⟩ := e.takes_drain clocks t batch
    have filter : (e.askOffset clocks).2.activityFilter = e.activityFilter := rfl
    rw [taken.thread, filter]
    exact ih.after batch

/-! ## Sums -/

namespace Setting
variable {k : Setting} {launch? : CorrelationId → Option CallRecord} {t : ThreadState}

theorem length_marks (xs : List (Completion × Nat)) :
    (k.gain launch? t xs).marks.length = xs.countP fun x => (launch? x.1.correlation).isSome := by
  unfold gain markOf?
  rw [List.length_filterMap_eq_countP]
  simp only [Option.isSome_map]

theorem length_jobs (listens : k.listens = true) (xs : List (Completion × Nat)) :
    (k.gain launch? t xs).jobs.length = xs.countP fun x => (launch? x.1.correlation).isSome := by
  unfold gain jobOf?
  rw [List.length_filterMap_eq_countP]
  simp only [listens, ↓reduceIte, Option.isSome_map]

theorem span?_work (xs : List (Completion × Nat)) :
    ∀ d ∈ (k.gain launch? t xs).work, d.span? = none := by
  intro d due
  obtain ⟨job, given, rfl⟩ := List.mem_map.mp due
  obtain ⟨x, _, left⟩ := List.mem_filterMap.mp given
  unfold jobOf? at left
  split at left
  · obtain ⟨call, _, rfl⟩ := Option.map_eq_some_iff.mp left
    rfl
  · cases left

theorem length_emitted (l : Laps) (cs : List Completion) : (k.emitted l cs).length =
    cs.countP (·.isEmitted k.activityFilter k.offset) := by
  rw [List.countP_eq_length_filter, ← map_emitted_fst k l cs, List.length_map]

theorem timed_of_emitted {l : Laps} {cs : List Completion} {x : Completion × Nat}
    (h : x ∈ k.emitted l cs) : x.1.beginsAt < x.1.endsAt := by
  have timed : x.1.isTimed k.offset = true := (List.mem_filter.mp h).2
  refine UInt64.not_le.mp fun late => ?_
  rw [Completion.isTimed_of_le late] at timed
  cases timed

/-- An emitted completion is an orphan unless its call is registered. -/
theorem launched_add_orphans (l : Laps) (cs : List Completion) :
    ((k.emitted l cs).countP fun x => (launch? x.1.correlation).isSome) +
      (cs.countP fun c => c.isEmitted k.activityFilter k.offset &&
        (launch? c.correlation).isNone) =
      cs.countP (·.isEmitted k.activityFilter k.offset) := by
  let launched (c : Completion) : Bool := (launch? c.correlation).isSome
  let emitted (c : Completion) : Bool := c.isEmitted k.activityFilter k.offset
  have own : ((k.emitted l cs).countP fun x => launched x.1) =
      (cs.filter emitted).countP launched := by
    rw [← map_emitted_fst k l cs, List.countP_map]
    rfl
  have others : (cs.countP fun c => emitted c && (launch? c.correlation).isNone) =
      (cs.filter emitted).countP fun c => decide ¬launched c = true := by
    rw [List.countP_filter]
    refine List.countP_congr fun c _ => ?_
    cases found : launch? c.correlation <;> simp [launched, found]
  rw [own, others, ← List.length_eq_countP_add_countP, ← List.countP_eq_length_filter]

end Setting

namespace Engine

/-- What draining a batch does in the setting `k`; `xs` are the completions that become spans, each
with its lap, and `gain` is what they add. -/
structure DrainsBatch (e : Engine) (k : Setting) (t : ThreadState) (batch : List Completion)
    (recorder : Recorder) (log : MarkLog) (xs : List (Completion × Nat)) (gain : Gain)
    (report : DrainReport) (e' : Engine) : Prop where
  emitted : xs.map (·.1) = batch.filter (·.isEmitted k.activityFilter k.offset)
  timed : ∀ x ∈ xs, x.1.beginsAt < x.1.endsAt
  laps : ∀ past : List Completion, t.Drained past →
    xs = (Laps.numbered past (batch.filter (·.isLooked k.activityFilter))).filter
      (·.1.isTimed k.offset)
  tally : report = .tally k.activityFilter k.offset
    (fun c => (e.launch? c.correlation).isNone) batch
  advanced : report.advanced = batch.length
  fates : report.advanced =
    report.emitted + report.unsupported + report.filtered + report.anomalies
  orphans : report.orphans ≤ report.emitted
  spans : gain.spans.length = report.emitted
  devices : gain.spans.map (fun s => (s.kind, s.correlation, s.lap)) =
    xs.map fun x => (SpanKind.device, some x.1.correlation, some x.2)
  marks : gain.marks.length + report.orphans = report.emitted
  jobs : gain.jobs.length + report.orphans = report.emitted
  among : ∃ performed added, e.bench.Among e'.bench gain performed added
  /-- Work that is due already leaves no span. -/
  alone : (∀ d ∈ e.work.ledger, d.span? = none) →
    e'.sinks.spans = some (recorder.keep gain.spans.toArray)
  log : e'.sinks.marks = some (log.pushAll gain.marks)
  quiet : e.work.Quiet → e'.work.waiting = e.work.waiting ++ gain.parcels ∧
    e'.sinks.spans = some (recorder.keep gain.spans.toArray)

/-- What comes of one batch, and that it may as well be drained in two parts: once they were asked,
the clocks are not asked again. -/
theorem drain_batch (e : Engine) (clocks : Clocks) (t : ThreadState) (batch : List Completion)
    {recorder : Recorder} {log : MarkLog} (spans : e.sinks.spans = some recorder)
    (marks : e.sinks.marks = some log) (durations : e.sinks.durations.isSome = true) :
    let y := e.drain clocks t batch
    let k := { e.setting with offset := (e.askOffset clocks).1 }
    let xs := k.emitted t.laps batch
    e.DrainsBatch k t batch recorder log xs (k.gain e.launch? t xs) y.1 y.2.2 ∧
      ∀ (clocks' : Clocks) (more : List Completion),
        let one := e.drain clocks t (batch ++ more)
        let two := y.2.2.drain clocks' y.2.1 more
        one.1 = y.1.merge two.1 ∧ one.2.1 = two.2.1 ∧
          two.2.2 = { one.2.2 with
            drains := { one.2.2.drains with batches := one.2.2.drains.batches + 1 } } := by
  intro y k xs
  have report : y.1 = .tally k.activityFilter k.offset
      (fun c => (e.launch? c.correlation).isNone) batch := e.tally_drain clocks t batch
  have gains : e.bench.Gains y.2.2.bench (k.gain e.launch? t xs) := e.gains_drain clocks t batch
  have recorded {added : Array Span} (kept : y.2.2.sinks.spans = e.sinks.spans.map (·.keep added)) :
      y.2.2.sinks.spans = some (recorder.keep added) := by
    rw [kept, spans]
    rfl
  have logged : y.2.2.sinks.marks = e.sinks.marks.map (·.pushAll (k.gain e.launch? t xs).marks) :=
    gains.marks
  rw [marks] at logged
  refine ⟨?_, fun clocks' more => e.drain_parts clocks clocks' t batch more⟩
  rw [report]
  exact
    { emitted := k.map_emitted_fst t.laps batch
      timed := fun _ => Setting.timed_of_emitted
      laps := fun past before => by
        change (Laps.number k.activityFilter t.laps batch).filter _ = _
        rw [before.counts.number_eq batch]
      tally := rfl
      advanced := rfl
      fates := DrainReport.advanced_tally batch
      orphans := DrainReport.orphans_tally_le batch
      spans := (List.length_map _).trans (Setting.length_emitted t.laps batch)
      devices := by
        change (xs.map _).map _ = _
        rw [List.map_map]
        rfl
      marks := by
        rw [Setting.length_marks]
        exact Setting.launched_add_orphans t.laps batch
      jobs := by
        rw [Setting.length_jobs durations]
        exact Setting.launched_add_orphans t.laps batch
      among := gains.among
      alone := fun due => recorded (gains.alone due (Setting.span?_work xs))
      log := logged
      quiet := fun quiet =>
        have ⟨_, waiting, kept⟩ := gains.quiet quiet
        ⟨waiting, recorded kept⟩ }

theorem drain_batch_mixed :
    let e : Engine :=
      { activityFilter := { excludedNames := ["BARRIER"] }
        registry := ({} : Registry).register 7 ⟨"hipLaunchKernel", 1, .root 1⟩
        skew := .fixed 100
        sinks := { spans := some {}, durations := some {}, marks := some {} } }
    let t : ThreadState := .start 2 .unbounded
    let batch : List Completion :=
      [.ofOp 7 .dispatch 10 30, .ofOp 7 .copy 40 40, .ofOp 7 .barrier 50 60, .ofOp 8 .copy 60 70,
        { correlation := 7, code := 9, beginsAt := 0, endsAt := 1 }, .ofOp 7 .dispatch 70 90]
    let clocks : Clocks := ⟨.constant 0, .constant 0⟩
    let y := e.drain clocks t batch
    let k := { e.setting with offset := (e.askOffset clocks).1 }
    let xs := k.emitted t.laps batch
    e.DrainsBatch k t batch {} {} xs (k.gain e.launch? t xs) y.1 y.2.2 ∧
      t.Drained [] ∧
      y.1 =
        { advanced := 6, emitted := 3, unsupported := 1, filtered := 1, anomalies := 1,
          orphans := 1 } ∧
      xs = [(.ofOp 7 .dispatch 10 30, 1), (.ofOp 8 .copy 60 70, 1),
        (.ofOp 7 .dispatch 70 90, 3)] := by
  intro e t batch clocks y k xs
  have law : e.DrainsBatch k t batch {} {} xs (k.gain e.launch? t xs) y.1 y.2.2 :=
    (e.drain_batch clocks t batch rfl rfl rfl).1
  refine ⟨law, .start 2, ?_, ?_⟩
  · rw [law.tally]
    decide +kernel
  · have numbered := law.laps [] (.start 2)
    refine numbered.trans ?_
    decide +kernel

end Engine

end SpanWeave
