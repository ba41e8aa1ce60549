import SpanWeave.Engine.Drain
import SpanWeave.Engine.HostCalls

set_option autoImplicit false

/-!
# Moves and deeds

An event on the host, and each completion of a batch, first decides what to do and then does it.
What it decides depends on its thread, on what the registry has under its id, and on the next span
id, but not on the sinks and not on the queue of deferred work. What it does to these two is a list
of deeds.
-/
namespace SpanWeave

inductive Notice where
  | begins (start : SpanStart)
  | ends (track : Track) (time : Nanos)
  | discards (track : Track)
  | completes (start : SpanStart) (endsAt : Nanos)
  | marks (name : String) (mark : Mark)
  | records (name : String) (duration : Nanos)

def Sinks.take (s : Sinks) : Notice → Sinks
  | .begins start => s.beginSpan start
  | .ends track time => s.endSpan track time
  | .discards track => s.discardSpan track
  | .completes start endsAt => s.completeSpan start endsAt
  | .marks name mark => s.mark name mark
  | .records name duration => s.recordDuration name duration

/-- What an event does beside its books. -/
inductive Deed where
  | notice (notice : Notice)
  | flush (owner : ThreadId)
  | submit (owner : ThreadId) (work : Deferred)
  | spawn (work : Deferred)

structure Counts where
  calls : CallCounts := {}
  registry : RegistryCounts := {}
  drains : DrainReport := {}

def CallCounts.add (a b : CallCounts) : CallCounts where
  enters := a.enters + b.enters
  exits := a.exits + b.exits
  filtered := a.filtered + b.filtered
  missingRecords := a.missingRecords + b.missingRecords
  clockAnomalies := a.clockAnomalies + b.clockAnomalies
  untrackedSpans := a.untrackedSpans + b.untrackedSpans

def RegistryCounts.add (a b : RegistryCounts) : RegistryCounts where
  registered := a.registered + b.registered
  overwritten := a.overwritten + b.overwritten
  closed := a.closed + b.closed
  missingOnClose := a.missingOnClose + b.missingOnClose
  lookups := a.lookups + b.lookups
  lookupMisses := a.lookupMisses + b.lookupMisses

structure Entry where
  owner : Option (String × ThreadId)
  identity : Option Identity

def Entry.record? (x : Entry) : Option CallRecord :=
  x.owner.bind fun owner => x.identity.map fun identity => ⟨owner.1, owner.2, identity⟩

structure Setting where
  callFilter : NameFilter
  activityFilter : NameFilter
  offset : Int
  /-- There is a sink for durations. -/
  listens : Bool

structure Move where
  thread : ThreadState
  /-- What the registry has under the id of the event afterwards, if that changes. -/
  record : Option (Option CallRecord) := none
  /-- A span id is handed out. -/
  draws : Bool := false
  counts : Counts := {}
  deeds : List Deed := []

/-! ## What is decided -/

def ThreadState.identityOf (t : ThreadState) (span : SpanId) : Identity :=
  match t.current? with
  | some parent => Identity.child span parent
  | none => Identity.root span

theorem ThreadState.nextIdentity_eq (t : ThreadState) (ids : SpanIds) :
    t.nextIdentity ids = (t.identityOf (ids.allocated + 1), ⟨ids.allocated + 1⟩) := by
  unfold nextIdentity identityOf
  cases t.current? <;> rfl

namespace Setting
open Engine

def enter (t : ThreadState) (entry : Entry) (fresh : SpanId) (c : HostCall) (now : Nanos) :
    Outcome × Move :=
  let identity := t.identityOf fresh
  (.entered identity,
    { thread := { t with calls := ⟨identity, now⟩ :: t.calls }
      record := some (some ⟨c.displayName, t.thread, identity⟩)
      draws := true
      counts :=
        { calls := { enters := 1 }
          registry := { registered := 1, overwritten := if entry.owner.isSome then 1 else 0 } }
      deeds := [.notice (.begins (callStart t c identity now)),
        .notice (.marks c.name
          (.hostBegin c.name t.thread identity (some c.correlation) now c.queue)),
        .flush t.thread] })

/-- How a call that is left ends, and what the sinks hear of it. -/
structure Ending where
  outcome : Outcome
  thread : ThreadState
  calls : CallCounts
  notices : List Notice

def endInnermost (t : ThreadState) (now : Nanos) : Ending :=
  let calls : CallCounts := { exits := 1, missingRecords := 1 }
  match t.popTop? with
  | none => ⟨.missingRecord, t, calls, []⟩
  | some (call, rest) => ⟨.missingRecord, rest, calls,
      [if now < call.beganAt then .discards (.thread t.thread) else .ends (.thread t.thread) now]⟩

/-- The registered call is open on the thread, which is `rest` without it. -/
def endRegistered (t rest : ThreadState) (c : HostCall) (identity : Identity)
    (beganAt now : Nanos) : Ending :=
  let inner := List.replicate (t.depth - (rest.depth + 1)) (Notice.discards (.thread t.thread))
  if now < beganAt then ⟨.clockAnomaly, rest, { exits := 1, clockAnomalies := 1 },
    inner ++ [.discards (.thread t.thread)]⟩
  else ⟨.exited identity, rest, { exits := 1 },
    inner ++ [.ends (.thread t.thread) now, .marks c.name (.hostEnd c.name t.thread identity now),
      .records c.name (now - beganAt)]⟩

def ending (t : ThreadState) (entry : Entry) (c : HostCall) (now : Nanos) : Ending :=
  let identity := entry.identity.getD Identity.degraded
  match (if identity.isDegraded then none else t.pop? identity.span) with
  | none => endInnermost t now
  | some (call, rest) => endRegistered t rest c identity call.beganAt now

def exit (t : ThreadState) (entry : Entry) (c : HostCall) (now : Nanos) : Outcome × Move :=
  let x := ending t entry c now
  (x.outcome,
    { thread := x.thread
      record := some none
      counts :=
        { calls := x.calls
          registry := if entry.identity.isSome then { closed := 1 } else { missingOnClose := 1 } }
      deeds := .flush t.thread :: x.notices.map .notice })

variable (k : Setting)

def exitUntracked (t : ThreadState) (fresh : SpanId) (c : HostCall) (now : Nanos) :
    Outcome × Move :=
  match t.popUntracked? with
  | none => (.ignored, { thread := t })
  | some (beganAt, rest) =>
    let endsAt := if c.name = shutdownCall then beganAt else now
    if endsAt < beganAt then
      (.clockAnomaly, { thread := rest, counts := { calls := { clockAnomalies := 1 } } })
    else
      let identity := rest.identityOf fresh
      (.untracked identity,
        { thread := rest
          draws := true
          counts := { calls := { untrackedSpans := 1 } }
          deeds := .notice (.begins (untrackedStart rest c identity beganAt)) ::
            .notice (.ends (.thread rest.thread) endsAt) ::
            if k.listens then [.spawn (.sample c.name (endsAt - beganAt))] else [] })

def call (t : ThreadState) (entry : Entry) (fresh : SpanId) (c : HostCall) (now : Nanos) :
    Outcome × Move :=
  if !k.callFilter.accepts c.name then
    (.filtered, { thread := t, counts := { calls := { filtered := 1 } } })
  else
    match c.domain, c.phase with
    | .correlated, .enter => enter t entry fresh c now
    | .correlated, .exit => exit t entry c now
    | .untracked, .enter => (.ignored, { thread := t.pushUntracked now })
    | .untracked, .exit => k.exitUntracked t fresh c now

def emission (launch : Option CallRecord) (start : SpanStart) (c : Completion) (endsAt : Nanos)
    (lap : Nat) : List Deed :=
  .notice (.completes start endsAt) ::
    match launch with
    | none => []
    | some call =>
      .notice (.marks start.name (.onDevice start.name call.thread call.identity c.correlation
          start.time endsAt c.queue lap)) ::
        if k.listens then [.submit call.thread (.sample start.name (endsAt - start.time))] else []

def completion (t : ThreadState) (entry : Entry) (c : Completion) : Disposition × Move :=
  match c.op? with
  | none => (.unsupported, { thread := t })
  | some op =>
    if !k.activityFilter.accepts op.name then (.filtered, { thread := t })
    else
      let beginsAt := shiftTime c.beginsAt.toNat k.offset
      let endsAt := shiftTime c.endsAt.toNat k.offset
      let (lap, t) := t.nextLap c.correlation
      let counts : Counts :=
        { registry := { lookups := 1, lookupMisses := if entry.record?.isSome then 0 else 1 } }
      if endsAt ≤ beginsAt then (.anomaly, { thread := t, counts })
      else
        (.emitted entry.record?.isNone,
          { thread := t
            counts
            deeds := k.emission entry.record? (deviceStart t entry.record? c op beginsAt lap) c
              endsAt lap })

def loose (t : ThreadState) (c : Completion) : Disposition × Move :=
  match c.op? with
  | none => (.unsupported, { thread := t })
  | some op =>
    if !k.activityFilter.accepts op.name then (.filtered, { thread := t })
    else
      let beginsAt := shiftTime c.beginsAt.toNat k.offset
      let endsAt := shiftTime c.endsAt.toNat k.offset
      if endsAt ≤ beginsAt then (.anomaly, { thread := t })
      else
        (.emitted false,
          { thread := t, deeds := [.spawn (.leaf (untrackedLeaf t.thread c op beginsAt) endsAt)] })

end Setting

/-! ## What is done -/

def Registry.put (r : Registry) (id : CorrelationId) : Option (Option CallRecord) → Registry
  | none => r
  | some none => { r with owners := r.owners.erase id, identities := r.identities.erase id }
  | some (some record) =>
    { r with
      owners := r.owners.insert id (record.name, record.thread)
      identities := r.identities.insert id record.identity }

namespace Engine

def act (e : Engine) : Deed → Engine
  | .notice n => e.mapSinks (·.take n)
  | .flush owner => e.flush owner
  | .submit owner work => e.submit owner work
  | .spawn work => e.spawn work

def actAll (e : Engine) (deeds : List Deed) : Engine := deeds.foldl act e

def carry (e : Engine) (id : CorrelationId) (m : Move) : Engine :=
  { e with
    registry := { e.registry.put id m.record with
      counts := e.registry.counts.add m.counts.registry }
    ids := ⟨e.ids.allocated + if m.draws then 1 else 0⟩
    calls := e.calls.add m.counts.calls }

def setting (e : Engine) : Setting where
  callFilter := e.callFilter
  activityFilter := e.activityFilter
  offset := e.skew.current
  listens := e.sinks.durations.isSome

def entry (e : Engine) (id : CorrelationId) : Entry :=
  ⟨e.registry.owners[id]?, e.registry.identities[id]?⟩

theorem enterCall_decided (e : Engine) (t : ThreadState) (c : HostCall) (now : Nanos) :
    let x := Setting.enter t (e.entry c.correlation) (e.ids.allocated + 1) c now
    e.enterCall t c now = (x.1, x.2.thread, (e.carry c.correlation x.2).actAll x.2.deeds) := by
  unfold enterCall ThreadState.push
  rw [ThreadState.nextIdentity_eq]
  have overwritten : e.registry.owners.contains c.correlation =
      e.registry.owners[c.correlation]?.isSome := Std.ExtTreeMap.contains_eq_isSome_getElem?
  unfold Registry.register
  rw [overwritten]
  rfl

theorem actAll_notices (e : Engine) (ns : List Notice) :
    e.actAll (ns.map .notice) = e.mapSinks fun s => ns.foldl Sinks.take s := by
  induction ns generalizing e with
  | nil => rfl
  | cons n ns ih => exact ih (e.mapSinks (·.take n))

theorem discardSpans_eq (s : Sinks) (track : Track) (n : Nat) :
    s.discardSpans track n = (List.replicate n (Notice.discards track)).foldl Sinks.take s := by
  induction n generalizing s with
  | zero => rfl
  | succ n ih => exact ih (s.discardSpan track)

theorem exitUnmatched_decided (e : Engine) (t : ThreadState) (now : Nanos) :
    let x := Setting.endInnermost t now
    { e with calls := { e.calls with exits := e.calls.exits + 1 } }.exitUnmatched t now =
      (x.outcome, x.thread, { e.mapSinks fun s => x.notices.foldl Sinks.take s with
        calls := e.calls.add x.calls }) := by
  unfold exitUnmatched Setting.endInnermost
  cases t.popTop? with
  | none => rfl
  | some pair =>
    dsimp only
    split
    · rfl
    · rfl

theorem exitMatched_decided (e : Engine) (t rest : ThreadState) (c : HostCall) (identity : Identity)
    (beganAt now : Nanos) :
    let x := Setting.endRegistered t rest c identity beganAt now
    let y := { e with calls := { e.calls with exits := e.calls.exits + 1 } }.exitMatched t c
      identity beganAt (t.depth - (rest.depth + 1)) now
    (y.1, rest, y.2) = (x.outcome, x.thread, { e.mapSinks fun s => x.notices.foldl Sinks.take s with
      calls := e.calls.add x.calls }) := by
  unfold exitMatched Setting.endRegistered
  dsimp only
  split
  · simp only [List.foldl_append, ← discardSpans_eq]
    rfl
  · simp only [List.foldl_append, ← discardSpans_eq]
    rfl

theorem close_eq (r : Registry) (id : CorrelationId) :
    r.close id = (r.identities[id]?.getD Identity.degraded,
      { r.put id (some none) with
        counts := r.counts.add
          (if r.identities[id]?.isSome then { closed := 1 } else { missingOnClose := 1 }) }) := by
  unfold Registry.close
  cases r.identities[id]? <;> rfl

theorem exitCall_decided (e : Engine) (t : ThreadState) (c : HostCall) (now : Nanos) :
    let x := Setting.exit t (e.entry c.correlation) c now
    e.exitCall t c now = (x.1, x.2.thread, (e.carry c.correlation x.2).actAll x.2.deeds) := by
  intro x
  let identity := e.registry.identities[c.correlation]?.getD Identity.degraded
  let closed : Engine :=
    { e.flush t.thread with
      registry :=
        { e.registry.put c.correlation (some none) with
          counts := e.registry.counts.add
            (if e.registry.identities[c.correlation]?.isSome then { closed := 1 }
              else { missingOnClose := 1 }) } }
  -- both do the deferred work first; that the id is closed before or after it makes no difference
  have acted : (e.carry c.correlation x.2).actAll x.2.deeds =
      { closed.mapSinks fun s =>
          (Setting.ending t (e.entry c.correlation) c now).notices.foldl Sinks.take s with
        calls := e.calls.add (Setting.ending t (e.entry c.correlation) c now).calls } :=
    actAll_notices ((e.carry c.correlation x.2).flush t.thread) _
  have closes : ({ e with calls := { e.calls with exits := e.calls.exits + 1 } }.flush
      t.thread).registry.close c.correlation = (identity, closed.registry) :=
    close_eq e.registry c.correlation
  have exited : e.exitCall t c now =
      match (if identity.isDegraded then none else t.pop? identity.span) with
      | none =>
        { closed with calls := { e.calls with exits := e.calls.exits + 1 } }.exitUnmatched t now
      | some (call, rest) =>
        let y := { closed with calls := { e.calls with exits := e.calls.exits + 1 } }.exitMatched t
          c identity call.beganAt (t.depth - (rest.depth + 1)) now
        (y.1, rest, y.2) := by
    unfold exitCall
    dsimp only
    rw [closes]
    rfl
  have ended : Setting.ending t (e.entry c.correlation) c now =
      match (if identity.isDegraded then none else t.pop? identity.span) with
      | none => Setting.endInnermost t now
      | some (call, rest) => Setting.endRegistered t rest c identity call.beganAt now := rfl
  rw [exited, acted]
  change _ = ((Setting.ending t (e.entry c.correlation) c now).outcome,
    (Setting.ending t (e.entry c.correlation) c now).thread, _)
  cases found : (if identity.isDegraded then none else t.pop? identity.span) with
  | none =>
    rw [found] at ended
    rw [ended]
    exact exitUnmatched_decided closed t now
  | some pair =>
    rw [found] at ended
    rw [ended]
    exact exitMatched_decided closed t pair.2 c identity pair.1.beganAt now

theorem exitUntracked_decided (e : Engine) (t : ThreadState) (c : HostCall) (now : Nanos) :
    let x := e.setting.exitUntracked t (e.ids.allocated + 1) c now
    e.exitUntracked t c now = (x.1, x.2.thread, (e.carry c.correlation x.2).actAll x.2.deeds) := by
  unfold exitUntracked Setting.exitUntracked
  cases t.popUntracked? with
  | none => rfl
  | some pair =>
    dsimp only
    generalize (if c.name = shutdownCall then pair.1 else now) = endsAt
    rw [ThreadState.nextIdentity_eq]
    split
    · rfl
    · change (_, _, if e.sinks.durations.isSome = true then _ else _) =
        (_, _, actAll _ (_ :: _ :: if e.sinks.durations.isSome = true then _ else _))
      split
      · rfl
      · rfl

/-- A call on the host does what it decides to do. -/
theorem onCall_decided (e : Engine) (t : ThreadState) (c : HostCall) (now : Nanos) :
    let x := e.setting.call t (e.entry c.correlation) (e.ids.allocated + 1) c now
    e.onCall t c now = (x.1, x.2.thread, (e.carry c.correlation x.2).actAll x.2.deeds) := by
  unfold onCall Setting.call
  have same : e.setting.callFilter = e.callFilter := rfl
  rw [same]
  cases e.callFilter.accepts c.name with
  | false => rfl
  | true =>
    cases c.domain with
    | correlated =>
      cases c.phase with
      | enter => exact enterCall_decided e t c now
      | exit => exact exitCall_decided e t c now
    | untracked =>
      cases c.phase with
      | enter => rfl
      | exit => exact exitUntracked_decided e t c now

theorem lookupRecord?_eq (r : Registry) (id : CorrelationId) :
    let x : Entry := ⟨r.owners[id]?, r.identities[id]?⟩
    r.lookupRecord? id = (x.record?, { r with
      counts := r.counts.add
        { lookups := 1, lookupMisses := if x.record?.isSome then 0 else 1 } }) := by
  unfold Registry.lookupRecord? Entry.record?
  cases r.owners[id]? with
  | none => rfl
  | some owner => cases r.identities[id]? <;> rfl

theorem emit_decided (e : Engine) (launch : Option CallRecord) (start : SpanStart) (c : Completion)
    (endsAt : Nanos) (lap : Nat) :
    e.emit launch start c endsAt lap = e.actAll (e.setting.emission launch start c endsAt lap) := by
  unfold emit Setting.emission
  cases launch with
  | none => rfl
  | some call =>
    change (if e.sinks.durations.isSome = true then _ else _) =
      actAll _ (_ :: _ :: if e.sinks.durations.isSome = true then _ else _)
    split
    · rfl
    · rfl

theorem drainOne_decided (e : Engine) (t : ThreadState) (c : Completion) :
    let x := e.setting.completion t (e.entry c.correlation) c
    e.drainOne t e.skew.current c =
      (x.1, x.2.thread, (e.carry c.correlation x.2).actAll x.2.deeds) := by
  unfold drainOne Setting.completion
  have same : e.setting.activityFilter = e.activityFilter := rfl
  rw [same]
  cases c.op? with
  | none => rfl
  | some op =>
    dsimp only
    cases e.activityFilter.accepts op.name with
    | false => rfl
    | true =>
      have looked := lookupRecord?_eq e.registry c.correlation
      dsimp only at looked ⊢
      rw [looked]
      have offset : e.setting.offset = e.skew.current := rfl
      rw [offset]
      by_cases late : shiftTime c.endsAt.toNat e.skew.current ≤
          shiftTime c.beginsAt.toNat e.skew.current
      · simp only [late, ↓reduceIte]
        rfl
      · simp only [late, ↓reduceIte, emit_decided]
        rfl

theorem drainOneUntracked_decided (e : Engine) (t : ThreadState) (c : Completion) :
    let x := e.setting.loose t c
    e.drainOneUntracked t.thread e.skew.current c =
      (x.1, (e.carry c.correlation x.2).actAll x.2.deeds) ∧ x.2.thread = t := by
  unfold drainOneUntracked Setting.loose
  have same : e.setting.activityFilter = e.activityFilter := rfl
  have offset : e.setting.offset = e.skew.current := rfl
  rw [same, offset]
  cases c.op? with
  | none => exact ⟨rfl, rfl⟩
  | some op =>
    dsimp only
    cases e.activityFilter.accepts op.name with
    | false => exact ⟨rfl, rfl⟩
    | true =>
      by_cases late : shiftTime c.endsAt.toNat e.skew.current ≤
          shiftTime c.beginsAt.toNat e.skew.current
      · simp only [late, ↓reduceIte]
        exact ⟨rfl, rfl⟩
      · simp only [late, ↓reduceIte]
        exact ⟨rfl, rfl⟩

end Engine

end SpanWeave
