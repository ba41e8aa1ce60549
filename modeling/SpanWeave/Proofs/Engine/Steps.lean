import SpanWeave.Engine.HostCalls
import SpanWeave.Proofs.Engine.Background

set_option autoImplicit false

/-!
# Steps of the engine

All that one event on the host, or one completion of a batch, can do to a thread and the engine,
said once and with the condition under which it happens. Deferred work that is done on the way is
left to the background.
-/
namespace SpanWeave

def Outcome.isEntered : Outcome → Bool
  | .entered _ => true
  | _ => false

namespace Engine

/-- The engine after a call was entered, before deferred work is done. -/
def entered (e : Engine) (t : ThreadState) (c : HostCall) (now : Nanos) : Engine :=
  let identity := (t.nextIdentity e.ids).1
  { e with
    ids := (t.nextIdentity e.ids).2
    calls := { e.calls with enters := e.calls.enters + 1 }
    registry := e.registry.register c.correlation ⟨c.displayName, t.thread, identity⟩
    sinks := (e.sinks.beginSpan (callStart t c identity now)).mark c.name
      (.hostBegin c.name t.thread identity (some c.correlation) now c.queue) }

def countExit (e : Engine) : Engine :=
  { e with calls := { e.calls with exits := e.calls.exits + 1 } }

def closed (e : Engine) (id : CorrelationId) : Engine :=
  { e with registry := (e.registry.close id).2 }

def countMissing (e : Engine) : Engine :=
  { e with calls := { e.calls with missingRecords := e.calls.missingRecords + 1 } }

def leaf (e : Engine) (t : ThreadState) (c : HostCall) (beganAt endsAt : Nanos) : Engine :=
  { e with
    ids := (t.nextIdentity e.ids).2
    calls := { e.calls with untrackedSpans := e.calls.untrackedSpans + 1 }
    sinks := (e.sinks.beginSpan
      (untrackedStart t c (t.nextIdentity e.ids).1 beganAt)).endSpan (.thread t.thread) endsAt }

inductive HostStep (e : Engine) (t : ThreadState) (c : HostCall) (now : Nanos) :
    Outcome → ThreadState → Engine → Prop
  | filtered (rejected : e.callFilter.accepts c.name = false) :
      HostStep e t c now .filtered t
        { e with calls := { e.calls with filtered := e.calls.filtered + 1 } }
  | entered {e' : Engine} (traced : e.callFilter.accepts c.name = true)
      (domain : c.domain = .correlated) (phase : c.phase = .enter)
      (later : (e.entered t c now).Background e') :
      HostStep e t c now (.entered (t.nextIdentity e.ids).1) (t.push e.ids now).2.1 e'
  /-- The registered call is open on the thread; the `inner` ones are given up. -/
  | exited {e' : Engine} {identity : Identity} {inner calls : List OpenCall} {call : OpenCall}
      (traced : e.callFilter.accepts c.name = true)
      (domain : c.domain = .correlated) (phase : c.phase = .exit)
      (earlier : e.countExit.Background e')
      (registered : e.registry.identities[c.correlation]? = some identity)
      (opened : t.calls = inner ++ call :: calls) (same : call.identity.span = identity.span)
      (others : ∀ k ∈ inner, k.identity.span ≠ identity.span) (ordered : call.beganAt ≤ now) :
      HostStep e t c now (.exited identity) { t with calls }
        (((e'.closed c.correlation).mapSinks
          (·.discardSpans (.thread t.thread) inner.length)).mapSinks
          fun s => ((s.endSpan (.thread t.thread) now).mark c.name
            (.hostEnd c.name t.thread identity now)).recordDuration c.name (now - call.beganAt))
  | anomaly {e' : Engine} {identity : Identity} {inner calls : List OpenCall} {call : OpenCall}
      (traced : e.callFilter.accepts c.name = true)
      (domain : c.domain = .correlated) (phase : c.phase = .exit)
      (earlier : e.countExit.Background e')
      (registered : e.registry.identities[c.correlation]? = some identity)
      (opened : t.calls = inner ++ call :: calls) (same : call.identity.span = identity.span)
      (others : ∀ k ∈ inner, k.identity.span ≠ identity.span) (late : now < call.beganAt) :
      HostStep e t c now .clockAnomaly { t with calls }
        { ((e'.closed c.correlation).mapSinks
            (·.discardSpans (.thread t.thread) inner.length)).mapSinks
            (·.discardSpan (.thread t.thread)) with
          calls := { e'.calls with clockAnomalies := e'.calls.clockAnomalies + 1 } }
  /-- The exit ends no registered call of the thread, and no call is open there. -/
  | stray {e' : Engine} (traced : e.callFilter.accepts c.name = true)
      (domain : c.domain = .correlated) (phase : c.phase = .exit)
      (earlier : e.countExit.Background e') (empty : t.calls = []) :
      HostStep e t c now .missingRecord t (e'.closed c.correlation).countMissing
  /-- The exit ends no registered call of the thread, so it ends the innermost one. -/
  | missing {e' : Engine} {calls : List OpenCall} {call : OpenCall}
      (traced : e.callFilter.accepts c.name = true)
      (domain : c.domain = .correlated) (phase : c.phase = .exit)
      (earlier : e.countExit.Background e') (opened : t.calls = call :: calls)
      (unknown : ∀ identity, e.registry.identities[c.correlation]? = some identity →
        identity.span = 0 ∨ ∀ k ∈ t.calls, k.identity.span ≠ identity.span) :
      HostStep e t c now .missingRecord { t with calls }
        ((e'.closed c.correlation).countMissing.mapSinks fun s =>
          if now < call.beganAt then s.discardSpan (.thread t.thread)
          else s.endSpan (.thread t.thread) now)
  | untrackedEnter (traced : e.callFilter.accepts c.name = true)
      (domain : c.domain = .untracked) (phase : c.phase = .enter) :
      HostStep e t c now .ignored (t.pushUntracked now) e
  | untrackedStray (traced : e.callFilter.accepts c.name = true)
      (domain : c.domain = .untracked) (phase : c.phase = .exit) (empty : t.untracked = []) :
      HostStep e t c now .ignored t e
  | untrackedAnomaly {beganAt endsAt : Nanos} {untracked : List Nanos}
      (traced : e.callFilter.accepts c.name = true)
      (domain : c.domain = .untracked) (phase : c.phase = .exit)
      (opened : t.untracked = beganAt :: untracked)
      (ended : (if c.name = shutdownCall then beganAt else now) = endsAt)
      (late : endsAt < beganAt) :
      HostStep e t c now .clockAnomaly { t with untracked }
        { e with calls := { e.calls with clockAnomalies := e.calls.clockAnomalies + 1 } }
  | leaf {e' : Engine} {beganAt endsAt : Nanos} {untracked : List Nanos}
      (traced : e.callFilter.accepts c.name = true)
      (domain : c.domain = .untracked) (phase : c.phase = .exit)
      (opened : t.untracked = beganAt :: untracked)
      (ended : (if c.name = shutdownCall then beganAt else now) = endsAt)
      (ordered : beganAt ≤ endsAt) (later : (e.leaf t c beganAt endsAt).Background e') :
      HostStep e t c now (.untracked (t.nextIdentity e.ids).1) { t with untracked } e'

variable {e : Engine} {t : ThreadState} {c : HostCall} {now : Nanos}

/-- The open call that an exit ends, if one is registered, and the thread without it. -/
def found? (e : Engine) (t : ThreadState) (c : HostCall) : Option (OpenCall × ThreadState) :=
  let identity := e.registry.identities[c.correlation]?.getD Identity.degraded
  if identity.isDegraded then none else t.pop? identity.span

theorem exitCall_eq (ready : e.Ready) : e.exitCall t c now =
    match e.found? t c with
    | none => ((e.countExit.flush t.thread).closed c.correlation).exitUnmatched t now
    | some (call, rest) =>
      let x := ((e.countExit.flush t.thread).closed c.correlation).exitMatched t c
        (e.registry.identities[c.correlation]?.getD Identity.degraded) call.beganAt
        (t.depth - (rest.depth + 1)) now
      (x.1, rest, x.2) := by
  have earlier := (Background.flush (e := e.countExit) ready t.thread).1
  have same : ((e.countExit.flush t.thread).registry.close c.correlation).1 =
      e.registry.identities[c.correlation]?.getD Identity.degraded := by
    rw [Registry.fst_close, earlier.identities]
    rfl
  unfold found?
  rw [← same]
  rfl

theorem exitUnmatched_step (traced : e.callFilter.accepts c.name = true)
    (domain : c.domain = .correlated) (phase : c.phase = .exit) {e' : Engine}
    (earlier : e.countExit.Background e') (none : e.found? t c = none) :
    HostStep e t c now ((e'.closed c.correlation).exitUnmatched t now).1
      ((e'.closed c.correlation).exitUnmatched t now).2.1
      ((e'.closed c.correlation).exitUnmatched t now).2.2 := by
  have unknown : ∀ identity, e.registry.identities[c.correlation]? = some identity →
      identity.span = 0 ∨ ∀ k ∈ t.calls, k.identity.span ≠ identity.span := by
    intro identity registered
    simp only [found?, registered, Option.getD_some] at none
    split at none
    · rename_i degraded
      exact .inl (by simpa [Identity.isDegraded] using degraded)
    · exact .inr (ThreadState.pop?_eq_none none)
  cases opened : t.calls with
  | nil =>
    have top : t.popTop? = .none := by simp only [ThreadState.popTop?, opened]
    simp only [exitUnmatched, top]
    exact .stray traced domain phase earlier opened
  | cons call calls =>
    have top : t.popTop? = some (call, { t with calls }) := by
      simp only [ThreadState.popTop?, opened]
    simp only [exitUnmatched, top]
    exact .missing traced domain phase earlier opened unknown

theorem exitMatched_step (traced : e.callFilter.accepts c.name = true)
    (domain : c.domain = .correlated) (phase : c.phase = .exit) {e' : Engine}
    (earlier : e.countExit.Background e') {call : OpenCall} {rest : ThreadState}
    (found : e.found? t c = some (call, rest)) :
    let x := (e'.closed c.correlation).exitMatched t c
      (e.registry.identities[c.correlation]?.getD Identity.degraded) call.beganAt
      (t.depth - (rest.depth + 1)) now
    HostStep e t c now x.1 rest x.2 := by
  intro x
  unfold found? at found
  dsimp only at found
  cases registered : e.registry.identities[c.correlation]? with
  | none =>
    rw [registered] at found
    cases found
  | some identity =>
    rw [registered, Option.getD_some] at found
    split at found
    · cases found
    · obtain ⟨inner, opened, eq, same, others⟩ := ThreadState.pop?_eq_some found
      have given : t.depth - (rest.depth + 1) = inner.length := by
        simp only [ThreadState.depth, opened, List.length_append, List.length_cons]
        omega
      subst x
      rw [registered, Option.getD_some, given, eq]
      unfold exitMatched
      split
      · rename_i late
        exact .anomaly traced domain phase earlier registered opened same others late
      · rename_i ordered
        exact .exited traced domain phase earlier registered opened same others
          (Nat.le_of_not_lt ordered)

theorem exitCall_step (ready : e.Ready) (traced : e.callFilter.accepts c.name = true)
    (domain : c.domain = .correlated) (phase : c.phase = .exit) :
    HostStep e t c now (e.exitCall t c now).1 (e.exitCall t c now).2.1
      (e.exitCall t c now).2.2 := by
  have earlier := (Background.flush (e := e.countExit) ready t.thread).1
  rw [exitCall_eq ready]
  cases found : e.found? t c with
  | none => exact exitUnmatched_step traced domain phase earlier found
  | some x => exact exitMatched_step traced domain phase earlier found

theorem exitUnmatched_work (e : Engine) (t : ThreadState) (now : Nanos) :
    (e.exitUnmatched t now).2.2.work = e.work := by
  unfold exitUnmatched
  dsimp only
  split <;> rfl

theorem exitMatched_work (e : Engine) (t : ThreadState) (c : HostCall) (identity : Identity)
    (beganAt : Nanos) (inner : Nat) (now : Nanos) :
    (e.exitMatched t c identity beganAt inner now).2.work = e.work := by
  unfold exitMatched
  dsimp only
  split <;> rfl

theorem exitCall_ready (ready : e.Ready) : (e.exitCall t c now).2.2.Ready := by
  have flushed : (e.countExit.flush t.thread).Ready := (Background.flush ready t.thread).2
  unfold Ready
  rw [exitCall_eq ready]
  split
  · rw [exitUnmatched_work]
    exact flushed
  · dsimp only
    rw [exitMatched_work]
    exact flushed

theorem exitUntracked_step (ready : e.Ready) (traced : e.callFilter.accepts c.name = true)
    (domain : c.domain = .untracked) (phase : c.phase = .exit) :
    HostStep e t c now (e.exitUntracked t c now).1 (e.exitUntracked t c now).2.1
        (e.exitUntracked t c now).2.2 ∧ (e.exitUntracked t c now).2.2.Ready := by
  unfold exitUntracked
  cases opened : t.untracked with
  | nil =>
    have top : t.popUntracked? = none := by simp only [ThreadState.popUntracked?, opened]
    rw [top]
    exact ⟨.untrackedStray traced domain phase opened, ready⟩
  | cons beganAt untracked =>
    have top : t.popUntracked? = some (beganAt, { t with untracked }) := by
      simp only [ThreadState.popUntracked?, opened]
    rw [top]
    dsimp only
    generalize ended : (if c.name = shutdownCall then beganAt else now) = endsAt
    split
    · rename_i late
      exact ⟨.untrackedAnomaly traced domain phase opened ended late, ready⟩
    · rename_i ordered
      have ordered := Nat.le_of_not_lt ordered
      split
      · obtain ⟨later, ready'⟩ := Background.spawn (e := e.leaf t c beganAt endsAt) ready
          (d := .sample c.name (endsAt - beganAt)) trivial
        exact ⟨.leaf traced domain phase opened ended ordered later, ready'⟩
      · exact ⟨.leaf traced domain phase opened ended ordered (.refl _), ready⟩

/-- Every event on the host is one of these steps. -/
theorem onCall_step (ready : e.Ready) (t : ThreadState) (c : HostCall) (now : Nanos) :
    HostStep e t c now (e.onCall t c now).1 (e.onCall t c now).2.1 (e.onCall t c now).2.2 ∧
      (e.onCall t c now).2.2.Ready := by
  unfold onCall
  cases traced : e.callFilter.accepts c.name with
  | false => exact ⟨.filtered traced, ready⟩
  | true =>
    simp only [Bool.not_true, Bool.false_eq_true, ↓reduceIte]
    split
    · rename_i domain phase
      obtain ⟨later, ready'⟩ := Background.flush (e := e.entered t c now) ready t.thread
      exact ⟨.entered traced domain phase later, ready'⟩
    · rename_i domain phase
      exact ⟨exitCall_step ready traced domain phase, exitCall_ready ready⟩
    · rename_i domain phase
      exact ⟨.untrackedEnter traced domain phase, ready⟩
    · rename_i domain phase
      exact exitUntracked_step ready traced domain phase

theorem HostStep.thread_eq {outcome : Outcome} {t' : ThreadState} {e' : Engine}
    (h : HostStep e t c now outcome t' e') : t'.thread = t.thread := by
  cases h <;> rfl

theorem HostStep.calls_suffix {outcome : Outcome} {t' : ThreadState} {e' : Engine}
    (h : HostStep e t c now outcome t' e') (silent : ∀ identity, outcome ≠ .entered identity) :
    t'.calls <:+ t.calls := by
  cases h with
  | entered => exact absurd rfl (silent _)
  | exited _ _ _ _ _ opened | anomaly _ _ _ _ _ opened =>
    rw [opened]
    exact (List.suffix_cons _ _).trans (List.suffix_append _ _)
  | missing _ _ _ _ opened =>
    rw [opened]
    exact List.suffix_cons _ _
  | filtered | stray | untrackedEnter | untrackedStray | untrackedAnomaly | leaf =>
    exact List.suffix_rfl

theorem HostStep.old_or_new {outcome : Outcome} {t' : ThreadState} {e' : Engine}
    (h : HostStep e t c now outcome t' e') {call : OpenCall} (member : call ∈ t'.calls) :
    call ∈ t.calls ∨ e.ids.allocated < call.identity.span := by
  by_cases entered : ∃ identity, outcome = .entered identity
  · obtain ⟨identity, rfl⟩ := entered
    cases h with
    | entered =>
      rw [ThreadState.calls_push] at member
      rcases List.mem_cons.mp member with rfl | old
      · right
        rw [ThreadState.span_nextIdentity]
        exact Nat.lt_succ_self _
      · exact .inl old
  · have suffix := h.calls_suffix fun identity eq => entered ⟨identity, eq⟩
    exact .inl (suffix.subset member)

theorem HostStep.calls_eq {outcome : Outcome} {t' : ThreadState} {e' : Engine}
    (h : HostStep e t c now outcome t' e')
    (other : ¬ (c.domain = .correlated ∧ e.callFilter.accepts c.name = true)) :
    t'.calls = t.calls := by
  cases h with
  | entered traced domain | exited traced domain | anomaly traced domain | stray traced domain
  | missing traced domain => exact absurd ⟨domain, traced⟩ other
  | filtered | untrackedEnter | untrackedStray | untrackedAnomaly | leaf => rfl

theorem HostStep.enter_eq {outcome : Outcome} {t' : ThreadState} {e' : Engine}
    (h : HostStep e t c now outcome t' e') (domain : c.domain = .correlated)
    (traced : e.callFilter.accepts c.name = true) (phase : c.phase = .enter) :
    outcome = .entered (t.nextIdentity e.ids).1 ∧ t' = (t.push e.ids now).2.1 := by
  cases h with
  | entered => exact ⟨rfl, rfl⟩
  | filtered rejected =>
    rw [traced] at rejected
    cases rejected
  | exited _ _ exit | anomaly _ _ exit | stray _ _ exit | missing _ _ exit =>
    rw [phase] at exit
    cases exit
  | untrackedEnter _ other | untrackedStray _ other | untrackedAnomaly _ other | leaf _ other =>
    rw [domain] at other
    cases other

theorem HostStep.ids_untracked {identity : Identity} {t' : ThreadState} {e' : Engine}
    (h : HostStep e t c now (.untracked identity) t' e') :
    e'.ids.allocated = e.ids.allocated + 1 := by
  cases h with
  | leaf _ _ _ _ _ _ later =>
    rw [later.ids]
    exact t.allocated_nextIdentity e.ids

theorem HostStep.callFilter_eq {outcome : Outcome} {t' : ThreadState} {e' : Engine}
    (h : HostStep e t c now outcome t' e') : e'.callFilter = e.callFilter := by
  cases h with
  | entered _ _ _ later => exact later.callFilter
  | exited _ _ _ earlier => exact earlier.callFilter
  | anomaly _ _ _ earlier => exact earlier.callFilter
  | stray _ _ _ earlier => exact earlier.callFilter
  | missing _ _ _ earlier => exact earlier.callFilter
  | leaf _ _ _ _ _ _ later => exact later.callFilter
  | filtered | untrackedEnter | untrackedStray | untrackedAnomaly => rfl

theorem HostStep.enters_eq {outcome : Outcome} {t' : ThreadState} {e' : Engine}
    (h : HostStep e t c now outcome t' e') :
    e'.calls.enters = e.calls.enters + if outcome.isEntered then 1 else 0 := by
  cases h with
  | entered _ _ _ later => rw [later.calls]; rfl
  | exited _ _ _ earlier | anomaly _ _ _ earlier | stray _ _ _ earlier | missing _ _ _ earlier =>
    have same := congrArg CallCounts.enters earlier.calls
    exact same
  | leaf _ _ _ _ _ _ later => rw [later.calls]; rfl
  | filtered | untrackedEnter | untrackedStray | untrackedAnomaly => rfl

theorem HostStep.ids_le {outcome : Outcome} {t' : ThreadState} {e' : Engine}
    (h : HostStep e t c now outcome t' e') : e.ids.allocated ≤ e'.ids.allocated := by
  cases h with
  | entered _ _ _ later =>
    rw [later.ids]
    exact Nat.le.intro (t.allocated_nextIdentity e.ids).symm
  | exited _ _ _ earlier => exact Nat.le_of_eq (congrArg SpanIds.allocated earlier.ids.symm)
  | anomaly _ _ _ earlier => exact Nat.le_of_eq (congrArg SpanIds.allocated earlier.ids.symm)
  | stray _ _ _ earlier => exact Nat.le_of_eq (congrArg SpanIds.allocated earlier.ids.symm)
  | missing _ _ _ earlier => exact Nat.le_of_eq (congrArg SpanIds.allocated earlier.ids.symm)
  | leaf _ _ _ _ _ _ later =>
    rw [later.ids]
    exact Nat.le.intro (t.allocated_nextIdentity e.ids).symm
  | filtered | untrackedEnter | untrackedStray | untrackedAnomaly => exact Nat.le_refl _

def launched (e : Engine) (t : ThreadState) (launch : CallRecord) (c : Completion) (op : DeviceOp)
    (beginsAt endsAt : Nanos) (lap : Nat) : Engine :=
  let start := deviceStart t (some launch) c op beginsAt lap
  { e with
    registry := (e.registry.lookupRecord? c.correlation).2
    sinks := (e.sinks.completeSpan start endsAt).mark start.name (.onDevice start.name launch.thread
      launch.identity c.correlation beginsAt endsAt c.queue lap) }

def orphaned (e : Engine) (t : ThreadState) (c : Completion) (op : DeviceOp)
    (beginsAt endsAt : Nanos) (lap : Nat) : Engine :=
  { e with
    registry := (e.registry.lookupRecord? c.correlation).2
    sinks := e.sinks.completeSpan (deviceStart t none c op beginsAt lap) endsAt }

inductive DrainStep (e : Engine) (t : ThreadState) (offset : Int) (c : Completion) :
    Disposition → ThreadState → Engine → Prop
  | unsupported (other : c.op? = none) : DrainStep e t offset c .unsupported t e
  | filtered {op : DeviceOp} (supported : c.op? = some op)
      (rejected : e.activityFilter.accepts op.name = false) :
      DrainStep e t offset c .filtered t e
  | anomaly {op : DeviceOp} (supported : c.op? = some op)
      (traced : e.activityFilter.accepts op.name = true)
      (late : shiftTime c.endsAt.toNat offset ≤ shiftTime c.beginsAt.toNat offset) :
      DrainStep e t offset c .anomaly (t.nextLap c.correlation).2
        { e with registry := (e.registry.lookupRecord? c.correlation).2 }
  | orphaned {op : DeviceOp} (supported : c.op? = some op)
      (traced : e.activityFilter.accepts op.name = true)
      (ordered : shiftTime c.beginsAt.toNat offset < shiftTime c.endsAt.toNat offset)
      (unknown : (e.registry.lookupRecord? c.correlation).1 = none) :
      DrainStep e t offset c (.emitted true) (t.nextLap c.correlation).2
        (e.orphaned (t.nextLap c.correlation).2 c op (shiftTime c.beginsAt.toNat offset)
          (shiftTime c.endsAt.toNat offset) (t.nextLap c.correlation).1)
  | launched {op : DeviceOp} {launch : CallRecord} {e' : Engine} (supported : c.op? = some op)
      (traced : e.activityFilter.accepts op.name = true)
      (ordered : shiftTime c.beginsAt.toNat offset < shiftTime c.endsAt.toNat offset)
      (known : (e.registry.lookupRecord? c.correlation).1 = some launch)
      (later : (e.launched (t.nextLap c.correlation).2 launch c op
        (shiftTime c.beginsAt.toNat offset) (shiftTime c.endsAt.toNat offset)
        (t.nextLap c.correlation).1).Background e') :
      DrainStep e t offset c (.emitted false) (t.nextLap c.correlation).2 e'

theorem DrainStep.thread_eq {offset : Int} {c : Completion} {d : Disposition} {t' : ThreadState}
    {e' : Engine} (h : DrainStep e t offset c d t' e') : t'.thread = t.thread := by
  cases h <;> rfl

theorem DrainStep.calls_eq {offset : Int} {c : Completion} {d : Disposition} {t' : ThreadState}
    {e' : Engine} (h : DrainStep e t offset c d t' e') : t'.calls = t.calls := by
  cases h <;> rfl

theorem DrainStep.callFilter_eq {offset : Int} {c : Completion} {d : Disposition}
    {t' : ThreadState} {e' : Engine} (h : DrainStep e t offset c d t' e') :
    e'.callFilter = e.callFilter := by
  cases h with
  | launched _ _ _ _ later => exact later.callFilter
  | unsupported | filtered | anomaly | orphaned => rfl

theorem DrainStep.enters_eq {offset : Int} {c : Completion} {d : Disposition} {t' : ThreadState}
    {e' : Engine} (h : DrainStep e t offset c d t' e') : e'.calls.enters = e.calls.enters := by
  cases h with
  | launched _ _ _ _ later => exact congrArg CallCounts.enters later.calls
  | unsupported | filtered | anomaly | orphaned => rfl

theorem DrainStep.ids_eq {offset : Int} {c : Completion} {d : Disposition} {t' : ThreadState}
    {e' : Engine} (h : DrainStep e t offset c d t' e') : e'.ids = e.ids := by
  cases h with
  | launched _ _ _ _ later => exact later.ids
  | unsupported | filtered | anomaly | orphaned => rfl

/-- Every completion of a batch is one of these steps. -/
theorem drainOne_step (ready : e.Ready) (t : ThreadState) (offset : Int) (c : Completion) :
    DrainStep e t offset c (e.drainOne t offset c).1 (e.drainOne t offset c).2.1
        (e.drainOne t offset c).2.2 ∧ (e.drainOne t offset c).2.2.Ready := by
  unfold drainOne
  cases supported : c.op? with
  | none => exact ⟨.unsupported supported, ready⟩
  | some op =>
    dsimp only
    cases traced : e.activityFilter.accepts op.name with
    | false => exact ⟨.filtered supported traced, ready⟩
    | true =>
      simp only [Bool.not_true, Bool.false_eq_true, ↓reduceIte]
      split
      · rename_i late
        exact ⟨.anomaly supported traced late, ready⟩
      · rename_i ordered
        have ordered := Nat.lt_of_not_le ordered
        cases known : (e.registry.lookupRecord? c.correlation).1 with
        | none => exact ⟨.orphaned supported traced ordered known, ready⟩
        | some launch =>
          unfold emit
          dsimp only
          split
          · obtain ⟨later, ready'⟩ := Background.submit (e := e.launched
              (t.nextLap c.correlation).2 launch c op (shiftTime c.beginsAt.toNat offset)
              (shiftTime c.endsAt.toNat offset) (t.nextLap c.correlation).1) ready launch.thread
              (d := .sample _ _) trivial
            exact ⟨.launched supported traced ordered known later, ready'⟩
          · exact ⟨.launched supported traced ordered known (.refl _), ready⟩

end Engine

end SpanWeave
