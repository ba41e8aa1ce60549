import SpanWeave.Proofs.Engine.Fates
import SpanWeave.Proofs.Engine.Gains
import SpanWeave.Proofs.Engine.Laps

set_option autoImplicit false

/-!
# Batches

What draining one batch reports and what it leaves in each sink, for any engine and any batch, and
that a batch may as well be drained in two parts.
-/
namespace SpanWeave

def Completion.op (c : Completion) : DeviceOp := c.op?.getD .dispatch

def Engine.launch? (e : Engine) (id : CorrelationId) : Option CallRecord := (e.entry id).record?

namespace Setting

variable (k : Setting) (launch? : CorrelationId → Option CallRecord) (t : ThreadState)

def emitted (l : Laps) (cs : List Completion) : List (Completion × Nat) :=
  (Laps.number k.activityFilter l cs).filter fun x => x.1.isTimed k.offset

def startOf (x : Completion × Nat) : SpanStart :=
  Engine.deviceStart t (launch? x.1.correlation) x.1 x.1.op (x.1.begins k.offset) x.2

def spanOf (x : Completion × Nat) : Span :=
  (k.startOf launch? t x).finish (x.1.ends k.offset)

def markOf? (x : Completion × Nat) : Option (String × Mark) :=
  (launch? x.1.correlation).map fun call =>
    let start := k.startOf launch? t x
    (start.name, .onDevice start.name call.thread call.identity x.1.correlation start.time
      (x.1.ends k.offset) x.1.queue x.2)

def jobOf? (x : Completion × Nat) : Option (ThreadId × Deferred) :=
  if k.listens then
    (launch? x.1.correlation).map fun call =>
      let start := k.startOf launch? t x
      (call.thread, .sample start.name (x.1.ends k.offset - start.time))
  else none

def gain (xs : List (Completion × Nat)) : Gain where
  spans := xs.map (k.spanOf launch? t)
  marks := xs.filterMap (k.markOf? launch? t)
  jobs := xs.filterMap (k.jobOf? launch? t)

theorem gain_append (xs ys : List (Completion × Nat)) :
    k.gain launch? t (xs ++ ys) = (k.gain launch? t xs).add (k.gain launch? t ys) := by
  simp only [gain, Gain.add, List.map_append, List.filterMap_append]

theorem emitted_append (l : Laps) (cs ds : List Completion) :
    k.emitted l (cs ++ ds) = k.emitted l cs ++ k.emitted (l.after k.activityFilter cs) ds := by
  rw [emitted, Laps.number_append, List.filter_append]
  rfl

theorem emitted_singleton (l : Laps) (c : Completion) : k.emitted l [c] =
    if c.isEmitted k.activityFilter k.offset then [(c, (l.next c.correlation).1)] else [] := by
  unfold emitted Completion.isEmitted
  rw [Laps.number, Laps.number]
  cases c.isLooked k.activityFilter with
  | false => rfl
  | true =>
    rw [if_pos rfl, List.filter_cons, List.filter_nil]
    rfl

theorem map_emitted_fst (l : Laps) (cs : List Completion) :
    (k.emitted l cs).map (·.1) = cs.filter (·.isEmitted k.activityFilter k.offset) := by
  have timed : (fun x : Completion × Nat => x.1.isTimed k.offset) =
      (fun c => Completion.isTimed k.offset c) ∘ Prod.fst := rfl
  rw [emitted, timed, ← List.filter_map, Laps.map_number_fst, List.filter_filter]
  exact List.filter_congr fun c _ => Bool.and_comm _ _

theorem gains_emission (b : Bench) (launch : Option CallRecord) (start : SpanStart)
    (c : Completion) (endsAt : Nanos) (lap : Nat) :
    b.Gains (b.actAll (k.emission launch start c endsAt lap))
      { spans := [start.finish endsAt]
        marks := (launch.map fun call => (start.name, Mark.onDevice start.name call.thread
          call.identity c.correlation start.time endsAt c.queue lap)).toList
        jobs := (if k.listens then launch.map fun call =>
          (call.thread, Deferred.sample start.name (endsAt - start.time)) else none).toList } := by
  have completed := Bench.Gains.completes b start endsAt
  unfold emission
  cases launch with
  | none =>
    rw [Option.map_none, Option.map_none, ite_self]
    exact completed
  | some call =>
    have marked := completed.trans (.marked _ start.name (.onDevice start.name call.thread
      call.identity c.correlation start.time endsAt c.queue lap))
    dsimp only
    cases k.listens with
    | false => exact marked
    | true => exact marked.trans (.submitted _ call.thread _)

theorem gain_singleton {c : Completion} {op : DeviceOp} (supported : c.op? = some op) (lap : Nat) :
    let start := Engine.deviceStart t (launch? c.correlation) c op (c.begins k.offset) lap
    k.gain launch? t [(c, lap)] =
      { spans := [start.finish (c.ends k.offset)]
        marks := ((launch? c.correlation).map fun call => (start.name, Mark.onDevice start.name
          call.thread call.identity c.correlation start.time (c.ends k.offset) c.queue lap)).toList
        jobs := (if k.listens then (launch? c.correlation).map fun call =>
          (call.thread, Deferred.sample start.name (c.ends k.offset - start.time))
          else none).toList } := by
  have same : c.op = op := by
    unfold Completion.op
    rw [supported]
    rfl
  subst same
  have one {α : Type} (f : Completion × Nat → Option α) :
      [(c, lap)].filterMap f = (f (c, lap)).toList := by
    rw [List.filterMap_cons]
    cases f (c, lap) <;> rfl
  unfold gain
  rw [one, one]
  rfl

variable {k launch? t}

theorem Fate.thread {x : Entry} {c : Completion} {y : Disposition × Move} (h : k.Fate t x c y) :
    y.2.thread = { t with laps := t.laps.after k.activityFilter [c] } := by
  unfold Laps.after
  rw [List.foldl_cons, List.foldl_nil]
  unfold Completion.isLooked
  cases h with
  | unsupported none => rw [none]; rfl
  | filtered supported rejected => rw [supported, Option.any_some, rejected]; rfl
  | anomaly supported passed => rw [supported, Option.any_some, passed]; rfl
  | emitted supported passed => rw [supported, Option.any_some, passed]; rfl

theorem Fate.gains {x : Entry} {c : Completion} {y : Disposition × Move} (h : k.Fate t x c y)
    (known : x.record? = launch? c.correlation) (b : Bench) :
    b.Gains (b.actAll y.2.deeds) (k.gain launch? t (k.emitted t.laps [c])) := by
  rw [emitted_singleton]
  unfold Completion.isEmitted Completion.isLooked
  cases h with
  | unsupported none =>
    rw [none]
    exact .refl b
  | filtered supported rejected =>
    rw [supported, Option.any_some, rejected]
    exact .refl b
  | anomaly supported passed late =>
    rw [late, Bool.and_false]
    exact .refl b
  | emitted supported passed timed =>
    rw [supported, Option.any_some, passed, timed, Bool.and_true, if_pos rfl,
      gain_singleton k launch? t supported, known]
    exact k.gains_emission b _ _ c _ _

end Setting

def DrainCounts.batch (d : DrainCounts) (report : DrainReport) : DrainCounts :=
  { d with
    batches := d.batches + 1
    records := d.records + report.advanced
    emitted := d.emitted + report.emitted
    orphans := d.orphans + report.orphans }

namespace Engine

/-- The completions were taken, and this is what came of it. -/
structure Takes (e : Engine) (t : ThreadState) (cs : List Completion) (report : DrainReport)
    (t' : ThreadState) (e' : Engine) : Prop where
  report : report = .tally e.activityFilter e.skew.current
    (fun c => (e.launch? c.correlation).isNone) cs
  thread : t' = { t with laps := t.laps.after e.activityFilter cs }
  gains : e.bench.Gains e'.bench
    (e.setting.gain e.launch? t (e.setting.emitted t.laps cs))
  setting : e'.setting = e.setting
  skew : e'.skew = e.skew
  launch : e'.launch? = e.launch?
  drains : e'.drains = e.drains

namespace Takes
variable {e e' e'' : Engine} {t t' t'' : ThreadState} {cs ds : List Completion}
  {report report' : DrainReport}

theorem nil (e : Engine) (t : ThreadState) : e.Takes t [] {} t e :=
  ⟨rfl, rfl, .refl e.bench, rfl, rfl, rfl, rfl⟩

theorem append (h : e.Takes t cs report t' e') (h' : e'.Takes t' ds report' t'' e'') :
    e.Takes t (cs ++ ds) (report.merge report') t'' e'' := by
  have filter : e'.activityFilter = e.activityFilter := congrArg Setting.activityFilter h.setting
  obtain rfl := h.thread
  have thread : t'' = _ := h'.thread
  have gains := h.gains.trans h'.gains
  refine ⟨?_, ?_, ?_, h'.setting.trans h.setting, h'.skew.trans h.skew, h'.launch.trans h.launch,
    h'.drains.trans h.drains⟩
  · rw [h'.report, h.report, filter, h.skew, h.launch, ← DrainReport.tally_append]
  · rw [thread, filter, Laps.after, Laps.after, Laps.after, List.foldl_append]
  · rw [h.setting, h.launch] at gains
    rw [Setting.emitted_append, Setting.gain_append]
    exact gains

end Takes

theorem takes_drainOne (e : Engine) (t : ThreadState) (c : Completion) :
    let y := e.drainOne t e.skew.current c
    e.Takes t [c] (({} : DrainReport).add y.1) y.2.1 y.2.2 := by
  intro y
  have decided : y = _ := e.drainOne_decided t c
  have fate := e.setting.fate t (e.entry c.correlation) c
  obtain ⟨record, _⟩ := completion_looked e.setting t (e.entry c.correlation) c
  let m := (e.setting.completion t (e.entry c.correlation) c).2
  obtain ⟨registry, _, _, setting, skew⟩ := (e.carry c.correlation m).books_actAll m.deeds
  have launch : ((e.carry c.correlation m).actAll m.deeds).launch? = e.launch? := by
    funext id
    unfold launch? entry
    rw [registry]
    unfold carry
    rw [record]
    rfl
  have gains : e.bench.Gains _ (e.setting.gain e.launch? t _) := fate.gains rfl e.bench
  rw [decided]
  refine ⟨?_, fate.thread, ?_, setting, skew, launch, drains_actAll _ m.deeds⟩
  · rw [fate.tally]
    rfl
  · dsimp only
    rw [bench_actAll]
    exact gains

theorem takes_drainEach (cs : List Completion) (e : Engine) (t : ThreadState)
    (report : DrainReport) :
    let y := drainEach e.skew.current cs (report, t, e)
    ∃ r, y.1 = report.merge r ∧ e.Takes t cs r y.2.1 y.2.2 := by
  induction cs generalizing e t report with
  | nil => exact ⟨{}, rfl, .nil e t⟩
  | cons c cs ih =>
    have first := e.takes_drainOne t c
    let y := e.drainOne t e.skew.current c
    obtain ⟨r, reported, rest⟩ := ih y.2.2 y.2.1 (report.add y.1)
    rw [first.skew] at reported rest
    refine ⟨(({} : DrainReport).add y.1).merge r, ?_, first.append rest⟩
    rw [← DrainReport.merge_assoc, ← DrainReport.add_eq_merge]
    exact reported

/-! ## One batch -/

theorem measured_askOffset (e : Engine) (clocks : Clocks) :
    (e.askOffset clocks).2.skew.measured.isSome = true := by
  unfold askOffset Skew.ask
  cases known : e.skew.measured with
  | some c =>
    dsimp only
    rw [known]
    rfl
  | none =>
    dsimp only
    split <;> rfl

theorem drain_eq (e : Engine) (clocks : Clocks) (t : ThreadState) (batch : List Completion) :
    let y := drainEach (e.askOffset clocks).2.skew.current batch
      ({}, t, (e.askOffset clocks).2)
    e.drain clocks t batch =
      (y.1, y.2.1, { y.2.2 with drains := y.2.2.drains.batch y.1 }) := by
  rw [← askOffset_current]
  rfl

theorem takes_drain (e : Engine) (clocks : Clocks) (t : ThreadState) (batch : List Completion) :
    let y := e.drain clocks t batch
    ∃ e', (e.askOffset clocks).2.Takes t batch y.1 y.2.1 e' ∧
      y.2.2 = { e' with drains := e.drains.batch y.1 } := by
  obtain ⟨r, reported, taken⟩ := takes_drainEach batch (e.askOffset clocks).2 t {}
  rw [DrainReport.empty_merge] at reported
  rw [drain_eq]
  dsimp only
  rw [reported]
  refine ⟨_, taken, ?_⟩
  rw [taken.drains]
  rfl

theorem setting_askOffset (e : Engine) (clocks : Clocks) :
    (e.askOffset clocks).2.setting = { e.setting with offset := (e.askOffset clocks).1 } := by
  rw [askOffset_current]
  rfl

theorem tally_drain (e : Engine) (clocks : Clocks) (t : ThreadState) (batch : List Completion) :
    (e.drain clocks t batch).1 = .tally e.activityFilter (e.askOffset clocks).1
      (fun c => (e.launch? c.correlation).isNone) batch := by
  obtain ⟨_, taken, _⟩ := e.takes_drain clocks t batch
  rw [askOffset_current]
  exact taken.report

theorem gains_drain (e : Engine) (clocks : Clocks) (t : ThreadState) (batch : List Completion) :
    let k := { e.setting with offset := (e.askOffset clocks).1 }
    e.bench.Gains (e.drain clocks t batch).2.2.bench
      (k.gain e.launch? t (k.emitted t.laps batch)) := by
  obtain ⟨e', taken, drained⟩ := e.takes_drain clocks t batch
  have gains := taken.gains
  rw [setting_askOffset] at gains
  rw [drained]
  exact gains

/-! ## Two batches -/

theorem actAll_drains (e : Engine) (drains : DrainCounts) (deeds : List Deed) :
    ({ e with drains } : Engine).actAll deeds = { e.actAll deeds with drains } := by
  induction deeds generalizing e with
  | nil => rfl
  | cons d deeds ih =>
    have first : ({ e with drains } : Engine).act d = { e.act d with drains } := by
      cases d <;> rfl
    change ({ e with drains }.act d).actAll deeds = _
    rw [first, ih]
    rfl

/-- The books of the drains are not read. -/
theorem drainOne_drains (e : Engine) (drains : DrainCounts) (t : ThreadState) (c : Completion) :
    let y := e.drainOne t e.skew.current c
    ({ e with drains } : Engine).drainOne t e.skew.current c =
      (y.1, y.2.1, { y.2.2 with drains }) := by
  have there := ({ e with drains } : Engine).drainOne_decided t c
  dsimp only at there ⊢
  rw [e.drainOne_decided t c, there]
  exact congrArg (fun e' => (_, _, e'))
    (actAll_drains (e.carry c.correlation (e.setting.completion t (e.entry c.correlation) c).2)
      drains _)

theorem drainEach_drains (drains : DrainCounts) (cs : List Completion) (report : DrainReport)
    (t : ThreadState) {e : Engine} {offset : Int} (current : e.skew.current = offset) :
    let y := drainEach offset cs (report, t, e)
    drainEach offset cs (report, t, { e with drains }) = (y.1, y.2.1, { y.2.2 with drains }) := by
  induction cs generalizing report t e with
  | nil => rfl
  | cons c cs ih =>
    let y := e.drainOne t offset c
    have first : ({ e with drains } : Engine).drainOne t offset c =
        (y.1, y.2.1, { y.2.2 with drains }) := by
      have one := e.drainOne_drains drains t c
      rw [current] at one
      exact one
    have still : y.2.2.skew.current = offset := by
      have taken := e.takes_drainOne t c
      rw [current] at taken
      rw [taken.skew, current]
    have unfolded : drainEach offset (c :: cs) (report, t, { e with drains }) =
        drainEach offset cs (report.add y.1, y.2.1, { y.2.2 with drains }) :=
      congrArg (fun z : Disposition × ThreadState × Engine =>
        drainEach offset cs (report.add z.1, z.2.1, z.2.2)) first
    exact unfolded.trans (ih (report.add y.1) y.2.1 still)

theorem drainEach_report (offset : Int) (cs : List Completion) (a b : DrainReport)
    (x : ThreadState × Engine) : drainEach offset cs (a.merge b, x) =
      (a.merge (drainEach offset cs (b, x)).1, (drainEach offset cs (b, x)).2) := by
  induction cs generalizing b x with
  | nil => rfl
  | cons c cs ih =>
    let y := x.2.drainOne x.1 offset c
    have added : (a.merge b).add y.1 = a.merge (b.add y.1) := by
      rw [DrainReport.merge_add, ← DrainReport.add_eq_merge]
    change drainEach offset cs ((a.merge b).add y.1, y.2) = _
    rw [added, ih]
    rfl

theorem drainEach_append (offset : Int) (cs ds : List Completion) (x : ThreadState × Engine) :
    let y := drainEach offset cs ({}, x)
    let z := drainEach offset ds ({}, y.2)
    drainEach offset (cs ++ ds) ({}, x) = (y.1.merge z.1, z.2) := by
  intro y z
  have rest := drainEach_report offset ds y.1 {} y.2
  have same : y.1.merge {} = y.1 := by simp only [DrainReport.merge, Nat.add_zero]
  rw [same] at rest
  refine Eq.trans ?_ rest
  unfold drainEach
  rw [List.foldl_append]
  rfl

/-- A batch may be drained in two parts; only the number of batches tells. -/
theorem drain_parts (e : Engine) (clocks clocks' : Clocks) (t : ThreadState)
    (xs ys : List Completion) :
    let one := e.drain clocks t (xs ++ ys)
    let first := e.drain clocks t xs
    let second := first.2.2.drain clocks' first.2.1 ys
    one.1 = first.1.merge second.1 ∧ one.2.1 = second.2.1 ∧
      second.2.2 = { one.2.2 with
        drains := { one.2.2.drains with batches := one.2.2.drains.batches + 1 } } := by
  let asked := (e.askOffset clocks).2
  let offset := asked.skew.current
  let y := drainEach offset xs ({}, t, asked)
  let z := drainEach offset ys ({}, y.2)
  obtain ⟨_, _, taken⟩ := takes_drainEach xs asked t {}
  have skew : y.2.2.skew = asked.skew := taken.skew
  have current : y.2.2.skew.current = offset := congrArg Skew.current skew
  obtain ⟨_, _, taken'⟩ := takes_drainEach ys y.2.2 y.2.1 {}
  rw [current] at taken'
  have kept : z.2.2.drains = asked.drains := taken'.drains.trans taken.drains
  let between : Engine := { y.2.2 with drains := y.2.2.drains.batch y.1 }
  have measured : between.skew.measured.isSome = true := by
    change y.2.2.skew.measured.isSome = true
    rw [skew]
    exact e.measured_askOffset clocks
  have one : e.drain clocks t (xs ++ ys) =
      (y.1.merge z.1, z.2.1, { z.2.2 with drains := z.2.2.drains.batch (y.1.merge z.1) }) := by
    rw [drain_eq, drainEach_append]
  have first : e.drain clocks t xs = (y.1, y.2.1, between) := drain_eq e clocks t xs
  have second : between.drain clocks' y.2.1 ys =
      (z.1, z.2.1, { z.2.2 with drains := (y.2.2.drains.batch y.1).batch z.1 }) := by
    have rest : drainEach offset ys ({}, y.2.1, between) =
        (z.1, z.2.1, { z.2.2 with drains := y.2.2.drains.batch y.1 }) :=
      drainEach_drains (y.2.2.drains.batch y.1) ys {} y.2.1 current
    have here : between.drain clocks' y.2.1 ys = _ := drain_eq between clocks' y.2.1 ys
    have still : between.skew.current = offset := current
    rw [askOffset_measured measured, still, rest] at here
    exact here
  have books : (asked.drains.batch y.1).batch z.1 = { asked.drains.batch (y.1.merge z.1) with
      batches := asked.drains.batches + 1 + 1 } := by
    simp only [DrainCounts.batch, DrainReport.merge, Nat.add_assoc]
  dsimp only
  rw [one, first]
  dsimp only
  rw [second, kept, taken.drains, books]
  exact ⟨rfl, rfl, rfl⟩

end Engine

end SpanWeave
