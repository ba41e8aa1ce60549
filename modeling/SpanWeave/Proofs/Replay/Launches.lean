import SpanWeave.Proofs.Replay.Registered
import SpanWeave.Proofs.Replay.Stacks

set_option autoImplicit false

/-!
# Launches

A completion is put under the call on the host that used its id last, whichever thread made that
call and whatever other threads have done with the id before. If that call has ended, or there was
none, the span of the completion is an orphan.
-/
namespace SpanWeave

/-- A completion that became a span, after the calls before it. -/
structure Emission where
  before : List Answer
  thread : ThreadId
  completion : Completion

def emissionsAfter (before : List Answer) : List Happening → List Emission
  | [] => []
  | .call answer :: rest => emissionsAfter (before ++ [answer]) rest
  | .completion thread completion (.emitted _) :: rest =>
    ⟨before, thread, completion⟩ :: emissionsAfter before rest
  | .completion _ _ _ :: rest => emissionsAfter before rest

def emissions (history : List Happening) : List Emission := emissionsAfter [] history

theorem emissionsAfter_append (before : List Answer) (past later : List Happening) :
    emissionsAfter before (past ++ later) =
      emissionsAfter before past ++ emissionsAfter (before ++ answers past) later := by
  induction past generalizing before with
  | nil => rw [List.nil_append, answers, List.filterMap_nil, List.append_nil]; rfl
  | cons happening past ih =>
    cases happening with
    | call answer =>
      have ih := ih (before ++ [answer])
      rw [List.append_assoc] at ih
      exact ih
    | completion thread c d =>
      cases d with
      | emitted orphan => exact congrArg (⟨before, thread, c⟩ :: ·) (ih before)
      | unsupported | filtered | anomaly => exact ih before

theorem emissions_call (past : List Happening) (a : Answer) :
    emissions (past ++ [.call a]) = emissions past := by
  unfold emissions
  rw [emissionsAfter_append]
  exact List.append_nil _

theorem emissions_emitted (past : List Happening) (thread : ThreadId) (c : Completion)
    (orphan : Bool) : emissions (past ++ [.completion thread c (.emitted orphan)]) =
      emissions past ++ [⟨answers past, thread, c⟩] := by
  unfold emissions
  rw [emissionsAfter_append]
  rfl

theorem emissions_silent (past : List Happening) (thread : ThreadId) (c : Completion)
    {d : Disposition} (silent : ∀ orphan, d ≠ .emitted orphan) :
    emissions (past ++ [.completion thread c d]) = emissions past := by
  unfold emissions
  rw [emissionsAfter_append]
  cases d with
  | emitted orphan => exact absurd rfl (silent orphan)
  | unsupported | filtered | anomaly => exact List.append_nil _

def Completion.ownName (c : Completion) (op : DeviceOp) : String := c.opName.getD op.name

/-- The span of a completion, as the last call with its id has it. -/
structure Emission.Describes (m : Emission) (filter : NameFilter) (op : DeviceOp) (span : Span) :
    Prop where
  kind : span.kind = .device
  correlation : span.correlation = some m.completion.correlation
  device : span.device = some m.completion.device
  queue : span.queue = some m.completion.queue
  launched : ∀ a, lastCall? filter m.completion.correlation m.before = some a →
    a.call.phase = .enter → ∃ identity, a.outcome = .entered identity ∧
      span.span = identity.span ∧ span.parent = some identity.span ∧
      span.depth = min (identity.depth + 1) 65535 ∧ span.thread = a.thread ∧
      span.name = (let name := a.call.kernel.getD a.call.name
        if name = "" then m.completion.ownName op else name)
  orphaned : (∀ a, lastCall? filter m.completion.correlation m.before = some a →
    a.call.phase = .exit) → span.span = 0 ∧ span.parent = none ∧ span.depth = 0 ∧
      span.thread = m.thread ∧ span.name = m.completion.ownName op

def Span.isDrained (s : Span) : Bool := s.kind == .device && s.correlation.isSome

theorem Span.isDrained_of_cpu {s : Span} (kind : s.kind = .cpu) : s.isDrained = false := by
  simp only [isDrained, kind]
  rfl

theorem Span.IsLoose.not_isDrained {s : Span} (loose : s.IsLoose) : s.isDrained = false := by
  simp only [isDrained, loose.correlation, Option.isSome_none, Bool.and_false]

theorem Engine.deviceName_some (launch : CallRecord) (c : Completion) (op : DeviceOp) :
    deviceName (some launch) c op = if launch.name = "" then c.ownName op else launch.name := by
  unfold deviceName
  by_cases empty : launch.name = ""
  · rw [if_pos empty, Option.map_some, empty]
    rfl
  · rw [if_neg empty, Option.map_some]
    have named : (!launch.name.isEmpty) = true := by
      rw [Bool.not_eq_true', ← Bool.not_eq_true, String.isEmpty_iff]
      exact empty
    rw [Option.filter_some, if_pos named]
    rfl

namespace Replay

/-- How the finished spans of devices stand to the emitted completions. -/
structure Linked (filter : NameFilter) (past : List Happening) (recorder : Recorder) : Prop where
  emitted : List.Forall₂ (fun m span => ∃ op, m.completion.op? = some op ∧
      m.Describes filter op span)
    (emissions past) (recorder.finished.toList.filter (·.isDrained))
  /-- No other span of a device has a parent. -/
  others : ∀ span ∈ recorder.finished, span.kind = .device → span.correlation = none →
    span.parent = none

namespace Linked
variable {filter : NameFilter} {past past' : List Happening} {recorder recorder' : Recorder}

theorem keep (h : Linked filter past recorder) (same : emissions past' = emissions past)
    (more : Array Span) (finished : recorder'.finished = recorder.finished ++ more)
    (beside : ∀ span ∈ more, span.kind = .cpu ∨ span.IsLoose) : Linked filter past' recorder' := by
  have none : more.toList.filter (·.isDrained) = [] := by
    rw [List.filter_eq_nil_iff]
    intro span member
    rcases beside span (Array.mem_toList_iff.mp member) with cpu | loose
    · rw [Span.isDrained_of_cpu cpu]
      exact Bool.false_ne_true
    · rw [loose.not_isDrained]
      exact Bool.false_ne_true
  refine ⟨?_, fun span member device => ?_⟩
  · rw [same, finished, Array.toList_append, List.filter_append, none, List.append_nil]
    exact h.emitted
  · rw [finished] at member
    rcases Array.mem_append.mp member with old | new
    · exact h.others span old device
    · rcases beside span new with cpu | loose
      · rw [cpu] at device
        cases device
      · exact fun _ => loose.parent

theorem emit (h : Linked filter past recorder) {thread : ThreadId} {c : Completion} (orphan : Bool)
    {op : DeviceOp} {span : Span} (supported : c.op? = some op)
    (describes : Emission.Describes ⟨answers past, thread, c⟩ filter op span)
    (finished : recorder'.finished = recorder.finished.push span) :
    Linked filter (past ++ [.completion thread c (.emitted orphan)]) recorder' := by
  have drained : span.isDrained = true := by
    simp only [Span.isDrained, describes.kind, describes.correlation]
    rfl
  refine ⟨?_, fun other member device => ?_⟩
  · rw [emissions_emitted, finished, Array.toList_push, List.filter_append, List.filter_cons,
      if_pos drained, List.filter_nil]
    exact List.rel_append h.emitted (.cons ⟨op, supported, describes⟩ .nil)
  · rw [finished] at member
    rcases Array.mem_push.mp member with old | rfl
    · exact h.others other old device
    · intro none
      rw [describes.correlation] at none
      cases none

end Linked

/-- The span that a completion is given is the one that the calls before it determine. -/
theorem Registered.describes {filter : NameFilter} {past : List Happening} {e : Engine}
    (h : Registered filter past e) (fits : ∀ a ∈ answers past, a.Fits filter) {t : ThreadState}
    {thread : ThreadId} (known : t.thread = thread) (offset : Int) (c : Completion)
    (op : DeviceOp) :
    Emission.Describes ⟨answers past, thread, c⟩ filter op (e.deviceSpan t offset c op) := by
  have found := h.holds.lookupRecord c.correlation
  refine ⟨rfl, rfl, rfl, rfl, fun a last enter => ?_, fun exits => ?_⟩
  · obtain ⟨member, traced, _⟩ := lastCall?_eq_some last
    obtain ⟨identity, outcome⟩ := (fits a member).entered.mpr ⟨traced, enter⟩
    have record : registered filter (answers past) c.correlation =
        some ⟨a.call.displayName, a.thread, identity⟩ := by
      rw [registered, last, Option.bind_some, Answer.record?, outcome]
    rw [record] at found
    unfold Engine.deviceSpan
    rw [found]
    exact ⟨identity, outcome, rfl, rfl, rfl, rfl, Engine.deviceName_some _ c op⟩
  · have record : registered filter (answers past) c.correlation = none := by
      unfold registered
      cases last : lastCall? filter c.correlation (answers past) with
      | none => rfl
      | some a =>
        obtain ⟨member, traced, _⟩ := lastCall?_eq_some last
        have silent : ∀ identity, a.outcome ≠ .entered identity := by
          intro identity outcome
          have enter := ((fits a member).entered.mp ⟨identity, outcome⟩).2
          exact absurd (enter.symm.trans (exits a last)) (by decide)
        rw [Option.bind_some, Answer.record?]
        cases outcome : a.outcome with
        | entered identity => exact absurd outcome (silent identity)
        | _ => rfl
    rw [record] at found
    unfold Engine.deviceSpan
    rw [found]
    exact ⟨rfl, rfl, rfl, known, rfl⟩

def Launched (filter : NameFilter) (past : List Happening) (ts : ThreadId → ThreadState)
    (e : Engine) : Prop :=
  Numbered filter past ts e ∧ Registered filter past e ∧
    ∃ recorder, Recorded past ts e recorder ∧ Linked filter past recorder

theorem kept_launched (filter : NameFilter) : Kept (Launched filter) where
  background := by
    rintro past ts e e' ⟨numbered, registered, recorder, recorded, linked⟩ quiet
    obtain ⟨loose, allLoose, recorded⟩ := recorded.background quiet
    exact ⟨(kept_numbered filter).background numbered quiet, registered.background quiet, _,
      recorded, linked.keep rfl _ rfl fun span member => .inr (allLoose span member)⟩
  host := by
    rintro past ts e thread now c outcome t e' ⟨numbered, registered, recorder, recorded, linked⟩
      known step
    obtain ⟨recorder', drawn, recorded'⟩ := recorded.host known step
    obtain ⟨more, finished, beside, _⟩ := recorded.finished_host known drawn
    exact ⟨(kept_numbered filter).host numbered known step, registered.host known step, recorder',
      recorded', linked.keep (emissions_call past _) more finished beside⟩
  completion := by
    rintro past ts e thread offset c d t e' ⟨numbered, registered, recorder, recorded, linked⟩
      known step
    obtain ⟨recorder', emitted, recorded'⟩ := recorded.completion step
    refine ⟨(kept_numbered filter).completion numbered known step, registered.completion step,
      recorder', recorded', ?_⟩
    cases emitted with
    | nothing silent =>
      exact linked.keep (emissions_silent past thread c silent) _ (Array.append_empty).symm
        fun span member => absurd member (Array.not_mem_empty span)
    | @span op loose supported ordered allLoose =>
      have describes := registered.describes numbered.fits known offset c op
      have finished : (recorder.keep #[e.deviceSpan (ts thread) offset c op]).finished =
          recorder.finished.push (e.deviceSpan (ts thread) offset c op) := rfl
      have emit := linked.emit (e.registry.lookupRecord? c.correlation).1.isNone supported describes
        finished
      refine emit.keep rfl loose ?_ fun span member => .inr (allLoose span member)
      rw [Recorder.finished_keep, Recorder.finished_keep, Array.append_assoc]

/-- Whatever the events, the spans of devices are linked to the last calls with their ids. -/
theorem Started.launches {s : Settings} {r : Replay} (started : r.Started s)
    (wanted : s.recordSpans = true) (events : List RecordedEvent) :
    ∃ recorder, (r.all events).session.engine.sinks.spans = some recorder ∧
      Linked r.session.engine.callFilter (r.history events) recorder := by
  have fresh := started.fresh
  have linked : Linked r.session.engine.callFilter [] {} :=
    ⟨.nil, fun span member => absurd member (Array.not_mem_empty span)⟩
  obtain ⟨⟨_, _, recorder, recorded, linked⟩, _⟩ := (kept_launched r.session.engine.callFilter).all
    fresh.running ⟨fresh.numbered, fresh.registered, {}, fresh.recorded wanted, linked⟩ events
  exact ⟨recorder, recorded.spans, linked⟩

/-- One completion comes while its call is open, and one when it has ended. -/
theorem launches_and_late_orphan : ∃ r : Replay, r.Started {} ∧
    ({} : Settings).recordSpans = true ∧
    let events : List RecordedEvent :=
      [.call 1 10 { HostCall.enter "hipLaunchKernel" 7 with kernel := some "sgemm" },
        .batch 2 [.ofOp 7 .dispatch 100 200], .call 1 300 (.exit "hipLaunchKernel" 7),
        .batch 2 [.ofOp 7 .dispatch 400 500]]
    ∃ recorder, (r.all events).session.engine.sinks.spans = some recorder ∧
      Linked r.session.engine.callFilter (r.history events) recorder := by
  obtain ⟨r, start⟩ : ∃ r, Replay.start {} none = .ok r := ⟨_, rfl⟩
  have started := Started.of_start start
  exact ⟨r, started, rfl, started.launches rfl _⟩

end Replay

end SpanWeave
