import SpanWeave.Proofs.Engine.Steps
import SpanWeave.Proofs.Engine.Telling

set_option autoImplicit false

/-!
# Samples

The samples that the operations of the engine are due. An event on the host is due one sample if it
ends a call or becomes a span of its own, a completion one if it has a call behind it, and one with
no call behind it one if it becomes a span. Nothing else is due any.
-/
namespace SpanWeave

namespace Engine

/-- What an operation on a thread gives, apart from the engine that it leaves behind. -/
def beside {α : Type} (x : α × ThreadState × Engine) : (α × ThreadState) × Engine :=
  ((x.1, x.2.1), x.2.2)

def callSample? (t : ThreadState) (c : HostCall) (now : Nanos) : Outcome → Option Sample
  | .exited identity =>
    (t.pop? identity.span).map fun (call, _) => (c.name, now - call.beganAt)
  | .untracked _ => t.untracked.head?.map fun beganAt =>
    (c.name, (if c.name = shutdownCall then beganAt else now) - beganAt)
  | _ => none

variable {e : Engine}

theorem tells_enterCall (h : e.Listening) (t : ThreadState) (c : HostCall) (now : Nanos) :
    e.Tells (fun e => beside (e.enterCall t c now)) [] := by
  have entered : e.Tells (fun e => ((Outcome.entered (t.nextIdentity e.ids).1,
      (t.push e.ids now).2.1), e.entered t c now)) [] := .quiet h (fun _ _ => rfl) rfl rfl rfl
  exact entered.andThen (fun out e => (out, e.flush t.thread))
    (.flush entered.listening t.thread _)

theorem tells_exitUnmatched (h : e.Listening) (t : ThreadState) (now : Nanos) :
    e.Tells (fun e => beside (e.exitUnmatched t now)) [] := by
  unfold exitUnmatched
  cases t.popTop? with
  | none => exact .quiet h (fun _ _ => rfl) rfl rfl rfl
  | some pair =>
    refine .now h (fun d scope => ?_) rfl rfl rfl
    by_cases late : now < pair.1.beganAt
    · simp only [late, ↓reduceIte]
      rfl
    · simp only [late, ↓reduceIte]
      rfl

theorem tells_exitMatched (h : e.Listening) (t rest : ThreadState) (c : HostCall)
    (identity : Identity) (beganAt : Nanos) (inner : Nat) (now : Nanos) :
    e.Tells (fun e => let x := e.exitMatched t c identity beganAt inner now; ((x.1, rest), x.2))
      (if now < beganAt then [] else [(c.name, now - beganAt)]) := by
  have discarded : e.Tells (fun e => ((), e.mapSinks
      (·.discardSpans (.thread t.thread) inner))) [] := by
    refine .now h (fun d scope => ?_) rfl rfl rfl
    exact congrArg (fun s => ((), { e with sinks := s }))
      (e.sinks.discardSpans_into d scope (.thread t.thread) inner)
  unfold exitMatched
  by_cases late : now < beganAt
  · simp only [late, ↓reduceIte]
    exact discarded.andThen (fun _ e => ((Outcome.clockAnomaly, rest),
      { e.mapSinks (·.discardSpan (.thread t.thread)) with
        calls := { e.calls with clockAnomalies := e.calls.clockAnomalies + 1 } }))
      (.now discarded.listening (fun _ _ => rfl) rfl rfl rfl)
  · simp only [late, ↓reduceIte]
    exact discarded.andThen (fun _ e => ((Outcome.exited identity, rest), e.mapSinks fun s =>
      ((s.endSpan (.thread t.thread) now).mark c.name
        (.hostEnd c.name t.thread identity now)).recordDuration c.name (now - beganAt)))
      (.now discarded.listening (fun _ _ => rfl) rfl rfl rfl)

def exitFound (e : Engine) (t : ThreadState) (c : HostCall) (now : Nanos) (identity : Identity) :
    Outcome × ThreadState × Engine :=
  match (if identity.isDegraded then none else t.pop? identity.span) with
  | none => e.exitUnmatched t now
  | some (call, rest) =>
    let x := e.exitMatched t c identity call.beganAt (t.depth - (rest.depth + 1)) now
    (x.1, rest, x.2)

theorem tells_exitFound (h : e.Listening) (t : ThreadState) (c : HostCall) (now : Nanos)
    (identity : Identity) : e.Tells (fun e => beside (e.exitFound t c now identity))
      (callSample? t c now (e.exitFound t c now identity).1).toList := by
  unfold exitFound
  split
  · have silent : callSample? t c now (e.exitUnmatched t now).1 = none := by
      unfold exitUnmatched
      cases t.popTop? <;> rfl
    rw [silent]
    exact tells_exitUnmatched h t now
  · rename_i call rest found
    have popped : t.pop? identity.span = some (call, rest) := by
      split at found
      · cases found
      · exact found
    have due : (callSample? t c now (e.exitMatched t c identity call.beganAt
        (t.depth - (rest.depth + 1)) now).1).toList =
          if now < call.beganAt then [] else [(c.name, now - call.beganAt)] := by
      unfold exitMatched
      by_cases late : now < call.beganAt
      · simp only [late, ↓reduceIte]
        rfl
      · simp only [late, ↓reduceIte, callSample?, popped]
        rfl
    rw [due]
    exact tells_exitMatched h t rest c identity call.beganAt (t.depth - (rest.depth + 1)) now

theorem tells_exitCall (h : e.Listening) (t : ThreadState) (c : HostCall) (now : Nanos) :
    e.Tells (fun e => beside (e.exitCall t c now))
      (callSample? t c now (e.exitCall t c now).1).toList := by
  have counted : e.Tells (fun e => ((), e.countExit)) [] := .quiet h (fun _ _ => rfl) rfl rfl rfl
  have flushed := counted.andThen (fun _ e => ((), e.flush t.thread))
    (.flush counted.listening t.thread ())
  have closed := flushed.andThen (fun _ e =>
    ((e.registry.close c.correlation).1, e.closed c.correlation))
    (.quiet flushed.listening (fun _ _ => rfl) rfl rfl rfl)
  exact closed.andThen (fun identity e => beside (e.exitFound t c now identity))
    (tells_exitFound closed.listening t c now _)

theorem tells_exitUntracked (h : e.Listening) (t : ThreadState) (c : HostCall) (now : Nanos) :
    e.Tells (fun e => beside (e.exitUntracked t c now))
      (callSample? t c now (e.exitUntracked t c now).1).toList := by
  unfold exitUntracked
  cases opened : t.untracked with
  | nil =>
    have top : t.popUntracked? = none := by simp only [ThreadState.popUntracked?, opened]
    rw [top]
    exact .refl h (Outcome.ignored, t)
  | cons beganAt untracked =>
    have top : t.popUntracked? = some (beganAt, { t with untracked }) := by
      simp only [ThreadState.popUntracked?, opened]
    rw [top]
    dsimp only
    generalize ended : (if c.name = shutdownCall then beganAt else now) = endsAt
    by_cases late : endsAt < beganAt
    · simp only [late, ↓reduceIte]
      exact .quiet h (fun _ _ => rfl) rfl rfl rfl
    · simp only [late, ↓reduceIte]
      have due : (callSample? t c now (.untracked (t.nextIdentity e.ids).1)).toList =
          [(c.name, endsAt - beganAt)] := by
        rw [callSample?, opened, List.head?_cons, Option.map_some, ended]
        rfl
      have made : e.Tells (fun e => ((Outcome.untracked (t.nextIdentity e.ids).1,
        { t with untracked }), e.leaf t c beganAt endsAt)) [] :=
          .quiet h (fun _ _ => rfl) rfl rfl rfl
      have told := made.andThen (fun out e => (out, if e.sinks.durations.isSome then
          e.spawn (.sample c.name (endsAt - beganAt)) else e))
        (.heard _ made.listening (.spawn made.listening _ _))
      exact told.due_eq due.symm

theorem onCall_traced {t : ThreadState} {c : HostCall} {now : Nanos}
    (traced : e.callFilter.accepts c.name = true) : e.onCall t c now =
      match c.domain, c.phase with
      | .correlated, .enter => e.enterCall t c now
      | .correlated, .exit => e.exitCall t c now
      | .untracked, .enter => (.ignored, t.pushUntracked now, e)
      | .untracked, .exit => e.exitUntracked t c now := by
  unfold onCall
  rw [traced]
  rfl

/-- An event on the host tells the sample of the call that it ends, and none otherwise. -/
theorem tells_onCall (h : e.Listening) (t : ThreadState) (c : HostCall) (now : Nanos) :
    e.Tells (fun e => beside (e.onCall t c now))
      (callSample? t c now (e.onCall t c now).1).toList := by
  cases traced : e.callFilter.accepts c.name with
  | false =>
    have skipped : ∀ {e : Engine}, e.callFilter.accepts c.name = false → e.onCall t c now =
        (.filtered, t, { e with calls := { e.calls with filtered := e.calls.filtered + 1 } }) := by
      intro e rejected
      unfold onCall
      rw [rejected]
      rfl
    rw [skipped traced]
    have counted : e.Tells (fun e => ((Outcome.filtered, t),
        { e with calls := { e.calls with filtered := e.calls.filtered + 1 } })) [] :=
      .quiet h (fun _ _ => rfl) rfl rfl rfl
    exact counted.of_eq (congrArg beside (skipped traced)) fun d scope =>
      congrArg beside (skipped (e := e.into d scope) traced)
  | true =>
    have dispatched : e.Tells (fun e => beside (match c.domain, c.phase with
        | .correlated, .enter => e.enterCall t c now
        | .correlated, .exit => e.exitCall t c now
        | .untracked, .enter => (.ignored, t.pushUntracked now, e)
        | .untracked, .exit => e.exitUntracked t c now))
        (callSample? t c now (e.onCall t c now).1).toList := by
      rw [onCall_traced traced]
      split
      · exact tells_enterCall h t c now
      · exact tells_exitCall h t c now
      · exact .refl h (Outcome.ignored, t.pushUntracked now)
      · exact tells_exitUntracked h t c now
    exact dispatched.of_eq (congrArg beside (onCall_traced traced)) fun d scope =>
      congrArg beside (onCall_traced (e := e.into d scope) traced)

theorem tells_emit {β : Type} (h : e.Listening) (launch : Option CallRecord) (start : SpanStart)
    (c : Completion) (endsAt : Nanos) (lap : Nat) (out : β) :
    e.Tells (fun e => (out, e.emit launch start c endsAt lap))
      (launch.toList.map fun _ => (start.name, endsAt - start.time)) := by
  have drawn : e.Tells (fun e => (out, e.mapSinks (·.completeSpan start endsAt))) [] :=
    .quiet h (fun _ _ => rfl) rfl rfl rfl
  cases launch with
  | none => exact drawn
  | some call =>
    have marked := drawn.andThen (fun out e => (out, e.mapSinks (·.mark start.name
      (.onDevice start.name call.thread call.identity c.correlation start.time endsAt c.queue
        lap))))
      (.quiet drawn.listening (fun _ _ => rfl) rfl rfl rfl)
    exact marked.andThen (fun out e => (out, if e.sinks.durations.isSome then
        e.submit call.thread (.sample start.name (endsAt - start.time)) else e))
      (.heard _ marked.listening (.submit marked.listening _ _ _))

def launchSample? (e : Engine) (offset : Int) (c : Completion) : Disposition → Option Sample
  | .emitted false => do
    let launch ← (e.registry.lookupRecord? c.correlation).1
    let op ← c.op?
    some (deviceName (some launch) c op,
      shiftTime c.endsAt.toNat offset - shiftTime c.beginsAt.toNat offset)
  | _ => none

def drainTraced (e : Engine) (t : ThreadState) (offset : Int) (c : Completion) (op : DeviceOp) :
    Disposition × ThreadState × Engine :=
  let beginsAt := shiftTime c.beginsAt.toNat offset
  let endsAt := shiftTime c.endsAt.toNat offset
  let (lap, t) := t.nextLap c.correlation
  let (launch, registry) := e.registry.lookupRecord? c.correlation
  let e := { e with registry }
  if endsAt ≤ beginsAt then (.anomaly, t, e)
  else
    (.emitted launch.isNone, t, e.emit launch (deviceStart t launch c op beginsAt lap) c endsAt lap)

theorem launchSample?_emitted (e : Engine) (offset : Int) {c : Completion} {op : DeviceOp}
    (supported : c.op? = some op) :
    (e.launchSample? offset c
      (.emitted (e.registry.lookupRecord? c.correlation).1.isNone)).toList =
      (e.registry.lookupRecord? c.correlation).1.toList.map fun _ =>
        (deviceName (e.registry.lookupRecord? c.correlation).1 c op,
          shiftTime c.endsAt.toNat offset - shiftTime c.beginsAt.toNat offset) := by
  cases known : (e.registry.lookupRecord? c.correlation).1 with
  | none => rfl
  | some launch =>
    change Option.toList ((e.registry.lookupRecord? c.correlation).1.bind _) = _
    rw [known, Option.bind_some]
    change Option.toList (c.op?.bind _) = _
    rw [supported]
    rfl

theorem tells_drainTraced (h : e.Listening) (t : ThreadState) (offset : Int) (c : Completion)
    {op : DeviceOp} (supported : c.op? = some op) :
    e.Tells (fun e => beside (e.drainTraced t offset c op))
      (e.launchSample? offset c (e.drainTraced t offset c op).1).toList := by
  have looked : e.Tells (fun e => ((e.registry.lookupRecord? c.correlation).1,
      { e with registry := (e.registry.lookupRecord? c.correlation).2 })) [] :=
    .quiet h (fun _ _ => rfl) rfl rfl rfl
  unfold drainTraced
  by_cases late : shiftTime c.endsAt.toNat offset ≤ shiftTime c.beginsAt.toNat offset
  · simp only [late, ↓reduceIte]
    exact looked.andThen (fun _ e => ((Disposition.anomaly, (t.nextLap c.correlation).2), e))
      (.refl looked.listening _)
  · simp only [late, ↓reduceIte]
    have told := looked.andThen (fun launch e =>
      ((Disposition.emitted launch.isNone, (t.nextLap c.correlation).2),
        e.emit launch (deviceStart (t.nextLap c.correlation).2 launch c op
          (shiftTime c.beginsAt.toNat offset) (t.nextLap c.correlation).1) c
          (shiftTime c.endsAt.toNat offset) (t.nextLap c.correlation).1))
      (tells_emit looked.listening _ _ _ _ _ _)
    exact told.due_eq (e.launchSample?_emitted offset supported).symm

theorem drainOne_traced {t : ThreadState} {offset : Int} {c : Completion} {op : DeviceOp}
    (supported : c.op? = some op) (traced : e.activityFilter.accepts op.name = true) :
    e.drainOne t offset c = e.drainTraced t offset c op := by
  unfold drainOne
  rw [supported]
  dsimp only
  rw [traced]
  rfl

/-- A completion of a batch tells one sample if it has a call behind it, and none otherwise. -/
theorem tells_drainOne (h : e.Listening) (t : ThreadState) (offset : Int) (c : Completion) :
    e.Tells (fun e => beside (e.drainOne t offset c))
      (e.launchSample? offset c (e.drainOne t offset c).1).toList := by
  cases supported : c.op? with
  | none =>
    have skipped : ∀ e : Engine, e.drainOne t offset c = (.unsupported, t, e) := by
      intro e
      unfold drainOne
      rw [supported]
    simp only [skipped]
    exact .refl h (Disposition.unsupported, t)
  | some op =>
    cases traced : e.activityFilter.accepts op.name with
    | false =>
      have skipped : ∀ {e : Engine}, e.activityFilter.accepts op.name = false →
          e.drainOne t offset c = (.filtered, t, e) := by
        intro e rejected
        unfold drainOne
        rw [supported]
        dsimp only
        rw [rejected]
        rfl
      rw [skipped traced]
      exact (Tells.refl h (Disposition.filtered, t)).of_eq (congrArg beside (skipped traced))
        fun d scope => congrArg beside (skipped (e := e.into d scope) traced)
    | true =>
      rw [drainOne_traced supported traced]
      exact (tells_drainTraced h t offset c supported).of_eq
        (congrArg beside (drainOne_traced supported traced))
        fun d scope => congrArg beside (drainOne_traced (e := e.into d scope) supported traced)

def launchSamples (offset : Int) : List Completion → ThreadState → Engine → List Sample
  | [], _, _ => []
  | c :: cs, t, e =>
    let x := e.drainOne t offset c
    (e.launchSample? offset c x.1).toList ++ launchSamples offset cs x.2.1 x.2.2

def drainEach (offset : Int) (cs : List Completion) (x : DrainReport × ThreadState × Engine) :
    DrainReport × ThreadState × Engine :=
  cs.foldl (fun (report, t, e) c =>
    let (d, t, e) := drainOne e t offset c
    (report.add d, t, e)) x

theorem tells_drainEach (h : e.Listening) (offset : Int) (cs : List Completion) (t : ThreadState)
    (report : DrainReport) : e.Tells (fun e => beside (drainEach offset cs (report, t, e)))
      (e.launchSamples offset cs t) := by
  induction cs generalizing e t report with
  | nil => exact .refl h (report, t)
  | cons c cs ih =>
    have one := tells_drainOne h t offset c
    exact one.andThen (fun out e => beside (drainEach offset cs (report.add out.1, out.2, e)))
      (ih one.listening _ _)

theorem tells_askOffset (h : e.Listening) (clocks : Clocks) :
    e.Tells (fun e => e.askOffset clocks) [] ∧ (e.askOffset clocks).1 = e.skew.current := by
  obtain ⟨known, found⟩ := Option.isSome_iff_exists.mp h.measured
  have asked : e.skew.ask clocks = { offset := e.skew.current, skew := e.skew } := by
    unfold Skew.ask
    rw [found]
  refine ⟨.quiet h (fun _ _ => rfl) rfl rfl ?_, ?_⟩
  · exact congrArg Skew.Asked.skew asked
  · exact congrArg Skew.Asked.offset asked

theorem tells_drain (h : e.Listening) (clocks : Clocks) (t : ThreadState) (cs : List Completion) :
    e.Tells (fun e => beside (e.drain clocks t cs))
      ((e.askOffset clocks).2.launchSamples e.skew.current cs t) := by
  obtain ⟨asked, offset⟩ := tells_askOffset h clocks
  rw [← offset]
  have taken := asked.andThen (fun offset e => beside (drainEach offset cs ({}, t, e)))
    (tells_drainEach asked.listening _ cs t {})
  have booked := taken.andThen (fun out e => (out, { e with drains := { e.drains with
    batches := e.drains.batches + 1
    records := e.drains.records + out.1.advanced
    emitted := e.drains.emitted + out.1.emitted
    orphans := e.drains.orphans + out.1.orphans } }))
    (.quiet taken.listening (fun _ _ => rfl) rfl rfl rfl)
  rw [List.append_nil] at booked
  exact booked

end Engine

def Completion.looseSample? (filter : NameFilter) (offset : Int) (c : Completion) :
    Option Sample := do
  let op ← c.op?
  let beginsAt := shiftTime c.beginsAt.toNat offset
  let endsAt := shiftTime c.endsAt.toNat offset
  if filter.accepts op.name = true ∧ beginsAt < endsAt then
    some (op.untrackedName, endsAt - beginsAt)
  else none

theorem Completion.looseSample?_supported {filter : NameFilter} {offset : Int} {c : Completion}
    {op : DeviceOp} (supported : c.op? = some op) : c.looseSample? filter offset =
      if filter.accepts op.name = true ∧
          shiftTime c.beginsAt.toNat offset < shiftTime c.endsAt.toNat offset then
        some (op.untrackedName,
          shiftTime c.endsAt.toNat offset - shiftTime c.beginsAt.toNat offset)
      else none := by
  rw [looseSample?, supported]
  rfl

namespace Engine
variable {e : Engine}

theorem drainOneUntracked_rejected {thread : ThreadId} {offset : Int} {c : Completion}
    {op : DeviceOp} (supported : c.op? = some op)
    (rejected : e.activityFilter.accepts op.name = false) :
    e.drainOneUntracked thread offset c = (.filtered, e) := by
  unfold drainOneUntracked
  rw [supported]
  dsimp only
  rw [rejected]
  rfl

theorem drainOneUntracked_traced {thread : ThreadId} {offset : Int} {c : Completion}
    {op : DeviceOp} (supported : c.op? = some op)
    (traced : e.activityFilter.accepts op.name = true) :
    e.drainOneUntracked thread offset c =
      if shiftTime c.endsAt.toNat offset ≤ shiftTime c.beginsAt.toNat offset then (.anomaly, e)
      else (.emitted false, e.spawn (.leaf (untrackedLeaf thread c op
        (shiftTime c.beginsAt.toNat offset)) (shiftTime c.endsAt.toNat offset))) := by
  unfold drainOneUntracked
  rw [supported]
  dsimp only
  rw [traced]
  rfl

theorem tells_drainOneUntracked (h : e.Listening) (thread : ThreadId) (offset : Int)
    (c : Completion) : e.Tells (fun e => e.drainOneUntracked thread offset c)
      (c.looseSample? e.activityFilter offset).toList := by
  cases supported : c.op? with
  | none =>
    have skipped : ∀ e : Engine, e.drainOneUntracked thread offset c = (.unsupported, e) := by
      intro e
      unfold drainOneUntracked
      rw [supported]
    have none : c.looseSample? e.activityFilter offset = none := by
      rw [Completion.looseSample?, supported]
      rfl
    rw [none]
    exact (Tells.refl h Disposition.unsupported).of_eq (skipped e) fun _ _ => skipped _
  | some op =>
    rw [Completion.looseSample?_supported supported]
    cases traced : e.activityFilter.accepts op.name with
    | false =>
      rw [if_neg fun both => Bool.false_ne_true both.1]
      exact (Tells.refl h Disposition.filtered).of_eq (drainOneUntracked_rejected supported traced)
        fun d scope => drainOneUntracked_rejected (e := e.into d scope) supported traced
    | true =>
      by_cases late : shiftTime c.endsAt.toNat offset ≤ shiftTime c.beginsAt.toNat offset
      · rw [if_neg fun both => Nat.not_lt.mpr late both.2]
        exact (Tells.refl h Disposition.anomaly).of_eq
          ((drainOneUntracked_traced supported traced).trans (if_pos late))
          fun d scope => (drainOneUntracked_traced (e := e.into d scope) supported traced).trans
            (if_pos late)
      · rw [if_pos ⟨rfl, Nat.lt_of_not_le late⟩]
        have spawned := Tells.spawn h (.leaf (untrackedLeaf thread c op
          (shiftTime c.beginsAt.toNat offset)) (shiftTime c.endsAt.toNat offset))
          (Disposition.emitted false)
        exact spawned.of_eq ((drainOneUntracked_traced supported traced).trans (if_neg late))
          fun d scope => (drainOneUntracked_traced (e := e.into d scope) supported traced).trans
            (if_neg late)

def drainEachUntracked (thread : ThreadId) (offset : Int) (cs : List Completion)
    (x : DrainReport × Engine) : DrainReport × Engine :=
  cs.foldl (fun (report, e) c =>
    let (d, e) := drainOneUntracked e thread offset c
    (report.add d, e)) x

theorem tells_drainEachUntracked (h : e.Listening) (thread : ThreadId) (offset : Int)
    (cs : List Completion) (report : DrainReport) :
    e.Tells (fun e => drainEachUntracked thread offset cs (report, e))
      (cs.filterMap (·.looseSample? e.activityFilter offset)) := by
  induction cs generalizing e report with
  | nil => exact .refl h report
  | cons c cs ih =>
    have one := tells_drainOneUntracked h thread offset c
    have others := one.andThen (fun d e => drainEachUntracked thread offset cs (report.add d, e))
      (ih one.listening _)
    rw [one.activityFilter] at others
    have due : (c :: cs).filterMap (·.looseSample? e.activityFilter offset) =
        (c.looseSample? e.activityFilter offset).toList ++
          cs.filterMap (·.looseSample? e.activityFilter offset) := by
      rw [List.filterMap_cons]
      cases c.looseSample? e.activityFilter offset <;> rfl
    rw [due]
    exact others

theorem tells_drainUntracked (h : e.Listening) (clocks : Clocks) (thread : ThreadId)
    (cs : List Completion) : e.Tells (fun e => e.drainUntracked clocks thread cs)
      (cs.filterMap (·.looseSample? e.activityFilter e.skew.current)) := by
  obtain ⟨asked, offset⟩ := tells_askOffset h clocks
  have taken := asked.andThen (fun offset e => drainEachUntracked thread offset cs ({}, e))
    (tells_drainEachUntracked asked.listening thread _ cs {})
  have booked := taken.andThen (fun report e => (report,
    { e with drains := { e.drains with untracked := e.drains.untracked + report.emitted } }))
    (.quiet taken.listening (fun _ _ => rfl) rfl rfl rfl)
  rw [List.append_nil, offset] at booked
  exact booked

/-- When the queue is stopped, all that the engine still owes is told. -/
theorem told_stopWork (h : e.Listening) : ∃ told, told.Perm e.owed ∧
    ∀ d scope, (e.into d scope).stopWork = e.stopWork.into (d.recordAll scope told) scope := by
  refine ⟨e.work.stop.started.toList.map Deferred.toSample, ?_, e.settle_into e.work.stop⟩
  have kept := (WorkQueue.started_stop h.running).1.map Deferred.toSample
  have before : e.work.ledger = e.work.outstanding := by rw [WorkQueue.ledger, h.settled]; rfl
  rw [before] at kept
  exact kept

end Engine

end SpanWeave
