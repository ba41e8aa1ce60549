import SpanWeave.Proofs.Engine.Marking
import SpanWeave.Proofs.Replay.Paired
import SpanWeave.Proofs.Session.Shutdown

set_option autoImplicit false

/-!
# Agreement

One run is written down twice: as spans that the recorder finishes track by track, and as marks
that are paired by span id. The forest built from the marks has a host node for every call whose
exit ended it and a device node for every span of a device with a parent, and each is the
recorder's span.
-/
namespace SpanWeave

namespace Replay

/-- How the marks stand to the calls so far, the threads and the recorder. -/
structure Marked (filter : NameFilter) (past : List Happening) (ts : ThreadId → ThreadState)
    (e : Engine) (recorder : Recorder) (log : MarkLog) : Prop where
  numbered : Numbered filter past ts e
  recorded : Recorded past ts e recorder
  distinct : Distinct ts e recorder
  marks : e.sinks.marks = some log
  paired : ∀ names, Paired names (answers past) ts recorder
    (Pairing.ofMarks names log.marks.toList)
  knows : log.names.Knows (usedNames (answers past) recorder)

namespace Marked
variable {filter : NameFilter} {past : List Happening} {ts : ThreadId → ThreadState}
  {e e' : Engine} {recorder : Recorder} {log : MarkLog}

theorem unmarked (h : Marked filter past ts e recorder log) {past' : List Happening}
    {ts' : ThreadId → ThreadState} {recorder' : Recorder} {more : Array Span}
    (numbered : Numbered filter past' ts' e') (recorded : Recorded past' ts' e' recorder')
    (marks : e'.sinks.marks = some log) (history : answers past' = answers past)
    (calls : ∀ thread, (ts' thread).calls = (ts thread).calls)
    (ids : e.ids.allocated ≤ e'.ids.allocated)
    (finished : recorder'.finished = recorder.finished ++ more)
    (device : ∀ span ∈ more, span.kind = .device ∧ span.parent = none) :
    Marked filter past' ts' e' recorder' log := by
  have hosts := Recorder.hostSpans_of_device finished fun span new => (device span new).1
  have linked := Recorder.linkedSpans_append finished fun span new => .inr (device span new).2
  refine ⟨numbered, recorded, ?_, marks, fun names => ?_, ?_⟩
  · exact h.distinct.quiet hosts ids fun thread call held => .inl (calls thread ▸ held)
  · rw [history]
    exact (h.paired names).grow (List.Subset.refl _) (fun thread call held => calls thread ▸ held)
      rfl (List.Subset.refl _) (hosts ▸ List.Subset.refl _) linked
  · rw [history, usedNames, linked]
    exact h.knows

theorem background (h : Marked filter past ts e recorder log) (quiet : e.Background e') :
    ∃ recorder', Marked filter past ts e' recorder' log := by
  obtain ⟨loose, allLoose, recorded⟩ := h.recorded.background quiet
  exact ⟨recorder.keep loose, h.unmarked ((kept_numbered filter).background h.numbered quiet)
    recorded (quiet.sinks.marks.trans h.marks) rfl (fun _ => rfl)
    (Nat.le_of_eq (congrArg SpanIds.allocated quiet.ids.symm)) (recorder.finished_keep loose)
    fun span old => ⟨(allLoose span old).kind, (allLoose span old).parent⟩⟩

theorem unregistered (h : Marked filter past ts e recorder log) (registry : Registry) :
    Marked filter past ts { e with registry } recorder log where
  numbered := ⟨h.numbered.callFilter, h.numbered.fits, h.numbered.increasing,
    h.numbered.allocated, h.numbered.opened, h.numbered.descending⟩
  recorded := ⟨h.recorded.spans, h.recorded.mirrors, h.recorded.matched, h.recorded.balance,
    h.recorded.enters, h.recorded.timed⟩
  distinct := ⟨h.distinct.nodup, h.distinct.allocated, h.distinct.closed⟩
  marks := h.marks
  paired := h.paired
  knows := h.knows

theorem paired_host (h : Marked filter past ts e recorder log) {a : Answer} {t : ThreadState}
    {recorder' : Recorder} {log' : MarkLog} {own : List Span}
    (known : (ts a.thread).thread = a.thread)
    (noted : Engine.Noted e (ts a.thread) a.call a.time log a.outcome t log')
    (spans : HostSpans past e (ts a.thread) a.call a.time a.outcome t own)
    (hosts : recorder'.hostSpans = recorder.hostSpans ++ own)
    (linked : recorder'.linkedSpans = recorder.linkedSpans) (names : HashNames) :
    Paired names (answers past ++ [a]) (Function.update ts a.thread t) recorder'
      (Pairing.ofMarks names log'.marks.toList) := by
  have paired := h.paired names
  generalize result : a.outcome = outcome at noted spans
  cases noted with
  | nothing entered exited calls =>
    have silent : exitedSpans [a] = [] := by
      rw [exitedSpans, List.filterMap_cons, result]
      cases outcome with
      | exited identity => exact absurd rfl (exited identity)
      | _ => rfl
    refine paired.grow (List.subset_append_left _ _) (fun other call held => ?_) ?_ ?_ ?_ linked
    · rcases mem_calls_update held with ⟨rfl, now⟩ | before
      · exact calls.subset now
      · exact before
    · rw [exitedSpans_append, silent, List.append_nil]
    · rw [callNames_append]
      exact List.subset_append_left _ _
    · rw [hosts]
      exact List.subset_append_left _ _
  | entered =>
    rw [spans.eq_nil_of_entered (Nat.le_succ _), List.append_nil] at hosts
    rw [MarkLog.push, Array.toList_push, Pairing.ofMarks_append, known]
    refine paired.enter result (ThreadState.calls_push _ _ _) (fun other call held => ?_) hosts
      linked
    rw [ThreadState.span_nextIdentity]
    exact Nat.ne_of_lt (Nat.lt_succ_of_le (h.numbered.span_pos held).2)
  | @exited identity inner calls call opened same ordered =>
    rw [MarkLog.push, Array.toList_push, Pairing.ofMarks_append, known]
    cases spans with
    | none _ exited => exact absurd rfl (exited identity)
    | @ended _ _ inner' call' start b split member opens begins =>
      -- the span is that of the call which the mark ends: both are split off at one height
      obtain ⟨-, eq⟩ := List.append_inj' (opened.symm.trans split) rfl
      obtain ⟨rfl, -⟩ := List.cons.inj eq
      rw [known] at opens
      rw [if_neg (Nat.not_lt.mpr ordered)] at hosts
      have held : call ∈ (ts a.thread).calls := by
        rw [opened]
        exact List.mem_append_right _ List.mem_cons_self
      refine paired.exit result held same member begins opens (fun c earlier opens' => ?_)
        (fun old finished => ?_) (fun other call' left => ?_) hosts linked
      · exact h.numbered.unique earlier member opens'.numbers opens.numbers
      · rw [← same]
        exact (h.distinct.closed old finished a.thread call held).symm
      · rw [← same]
        exact h.numbered.left opened left

theorem knows_host (h : Marked filter past ts e recorder log) {a : Answer} {t : ThreadState}
    {recorder' : Recorder} {log' : MarkLog}
    (noted : Engine.Noted e (ts a.thread) a.call a.time log a.outcome t log')
    (linked : recorder'.linkedSpans = recorder.linkedSpans) :
    log'.names.Knows (usedNames (answers past ++ [a]) recorder') := by
  generalize result : a.outcome = outcome at noted
  cases noted with
  | nothing entered exited =>
    have silent : callNames [a] = [] := by
      rw [callNames, List.filterMap_cons, result]
      cases outcome with
      | entered identity => exact absurd rfl (entered identity)
      | exited identity => exact absurd rfl (exited identity)
      | _ => rfl
    rw [usedNames, callNames_append, silent, List.append_nil, linked]
    exact h.knows
  | entered | exited =>
    refine h.knows.insert (mem_usedNames_append ?_ linked)
    rw [callNames, List.filterMap_cons, result]
    rfl

theorem host (h : Marked filter past ts e recorder log) {thread : ThreadId} {now : Nanos}
    {c : HostCall} {outcome : Outcome} {t : ThreadState} (known : (ts thread).thread = thread)
    (step : Engine.HostStep e (ts thread) c now outcome t e') :
    ∃ recorder' log', Marked filter (past ++ [.call ⟨thread, now, c, outcome⟩])
      (Function.update ts thread t) e' recorder' log' := by
  obtain ⟨recorder', drawn, recorded⟩ := h.recorded.host known step
  obtain ⟨more, finished, beside, spans⟩ := h.recorded.finished_host known drawn
  obtain ⟨log', marks, noted⟩ := step.noted h.marks
  have hosts := Recorder.hostSpans_append finished
  have linked := Recorder.linkedSpans_append finished
    fun span new => (beside span new).imp_right (·.parent)
  refine ⟨recorder', log', (kept_numbered filter).host h.numbered known step, recorded,
    h.distinct.host h.recorded h.numbered known step drawn, marks, fun names => ?_, ?_⟩
  · rw [answers_append, answers_call]
    exact h.paired_host (a := ⟨thread, now, c, outcome⟩) known noted spans hosts linked names
  · rw [answers_append, answers_call]
    exact h.knows_host (a := ⟨thread, now, c, outcome⟩) noted linked

/-- A completion with a call behind it has one span and one mark. -/
theorem launched (h : Marked filter past ts e recorder log) {past' : List Happening}
    {ts' : ThreadId → ThreadState} {t : ThreadState} {offset : Int} {c : Completion}
    {op : DeviceOp} {launch : CallRecord} {loose : Array Span}
    (known : (e.registry.lookupRecord? c.correlation).1 = some launch)
    (numbered : Numbered filter past' ts' e')
    (recorded : Recorded past' ts' e'
      (recorder.keep (#[e.deviceSpan t offset c op] ++ loose)))
    (marks : e'.sinks.marks = some
      (log.push (e.deviceSpan t offset c op).name (e.deviceMark t offset c op launch)))
    (history : answers past' = answers past)
    (calls : ∀ thread, (ts' thread).calls = (ts thread).calls)
    (ids : e.ids.allocated ≤ e'.ids.allocated) (allLoose : ∀ span ∈ loose, span.IsLoose) :
    Marked filter past' ts' e' (recorder.keep (#[e.deviceSpan t offset c op] ++ loose))
      (log.push (e.deviceSpan t offset c op).name (e.deviceMark t offset c op launch)) := by
  have parent : (e.deviceSpan t offset c op).parent = some launch.identity.span := by
    rw [Engine.deviceSpan, known]
    rfl
  have agrees : ∀ names, ((e.deviceMark t offset c op launch).toNode names .device).Agrees
      (e.deviceSpan t offset c op) := by
    intro names
    rw [Engine.deviceMark, Engine.deviceSpan, known]
    exact ⟨rfl, rfl, rfl, rfl, rfl, rfl, rfl⟩
  have device : ∀ span ∈ #[e.deviceSpan t offset c op] ++ loose, span.kind = .device :=
    Array.forall_mem_append.mpr ⟨Array.forall_mem_singleton.mpr rfl,
      fun span old => (allLoose span old).kind⟩
  have hosts := Recorder.hostSpans_of_device (recorder.finished_keep _) device
  have linked : (recorder.keep (#[e.deviceSpan t offset c op] ++ loose)).linkedSpans =
      recorder.linkedSpans ++ [e.deviceSpan t offset c op] := by
    rw [← Recorder.keep_keep, Recorder.linkedSpans_append (Recorder.finished_keep _ loose)
      fun span old => .inr (allLoose span old).parent]
    exact Recorder.linkedSpans_push (recorder.finished_keep #[e.deviceSpan t offset c op]) rfl
      (by rw [parent]; rfl)
  refine ⟨numbered, recorded, ?_, marks, fun names => ?_, ?_⟩
  · exact h.distinct.quiet hosts ids fun thread call held => .inl (calls thread ▸ held)
  · rw [history, MarkLog.push, Array.toList_push, Pairing.ofMarks_append, Engine.deviceMark,
      Pairing.add_onDevice]
    exact (h.paired names).launch (agrees names) rfl rfl calls hosts linked
  · rw [history]
    refine h.knows.insert fun name => ?_
    rw [usedNames, usedNames, linked, List.map_append, List.mem_append, List.mem_append,
      List.mem_append, List.map_cons, List.map_nil, List.mem_singleton, or_assoc]

theorem completion (h : Marked filter past ts e recorder log) {thread : ThreadId} {offset : Int}
    {c : Completion} {d : Disposition} {t : ThreadState} (known : (ts thread).thread = thread)
    (step : Engine.DrainStep e (ts thread) offset c d t e') :
    ∃ recorder' log', Marked filter (past ++ [.completion thread c d])
      (Function.update ts thread t) e' recorder' log' := by
  obtain ⟨recorder', emitted, recorded⟩ := h.recorded.completion step
  obtain ⟨log', marks, tagged⟩ := step.tagged h.marks
  have numbered := (kept_numbered filter).completion h.numbered known step
  have history := answers_append_completion past thread c d
  have calls := step.calls_update
  have ids := Nat.le_of_eq (congrArg SpanIds.allocated step.ids_eq.symm)
  have none : ∀ span ∈ (#[] : Array Span), span.kind = .device ∧ span.parent = none :=
    fun span member => absurd member (Array.not_mem_empty span)
  cases emitted with
  | nothing silent =>
    cases tagged with
    | launch => exact absurd rfl (silent false)
    | nothing =>
      exact ⟨recorder, log, h.unmarked numbered recorded marks history calls ids
        (Array.append_empty).symm none⟩
  | @span op loose supported ordered allLoose =>
    generalize result : Disposition.emitted _ = d at numbered recorded history tagged ⊢
    cases tagged with
    | nothing other =>
      have unknown : (e.registry.lookupRecord? c.correlation).1 = Option.none := by
        cases found : (e.registry.lookupRecord? c.correlation).1 with
        | none => rfl
        | some launch =>
          rw [found] at result
          exact absurd result.symm other
      refine ⟨_, log, h.unmarked numbered recorded marks history calls ids
        (recorder.finished_keep _) (Array.forall_mem_append.mpr
          ⟨Array.forall_mem_singleton.mpr ?_, fun span old => ?_⟩)⟩
      · rw [Engine.deviceSpan, unknown]
        exact ⟨rfl, rfl⟩
      · exact ⟨(allLoose span old).kind, (allLoose span old).parent⟩
    | launch supported' found =>
      cases supported.symm.trans supported'
      exact ⟨_, _, h.launched found numbered recorded marks history calls ids allLoose⟩

end Marked

theorem kept_marked (filter : NameFilter) :
    Kept fun past ts e => ∃ recorder log, Marked filter past ts e recorder log where
  background := by
    rintro past ts e e' ⟨recorder, log, h⟩ quiet
    obtain ⟨recorder', h⟩ := h.background quiet
    exact ⟨recorder', log, h⟩
  host := by
    rintro past ts e thread now c outcome t e' ⟨recorder, log, h⟩ known step
    exact h.host known step
  completion := by
    rintro past ts e thread offset c d t e' ⟨recorder, log, h⟩ known step
    exact h.completion known step

theorem Fresh.marked {s : Settings} {r : Replay} (fresh : r.Fresh s) (spans : s.recordSpans = true)
    (marks : s.recordMarks = true) :
    Marked r.session.engine.callFilter [] r.threadState r.session.engine {} {} := by
  refine ⟨fresh.numbered, fresh.recorded spans, ⟨List.nodup_nil, ?_, ?_⟩, ?_, fun names => ?_,
    .empty⟩
  · exact fun span member => absurd member List.not_mem_nil
  · exact fun span member => absurd member List.not_mem_nil
  · rw [fresh.marks, marks]
    rfl
  · refine ⟨fun thread call held => ?_, rfl, List.nodup_nil, fun n member => ?_, .nil⟩
    · rw [fresh.threadState] at held
      exact absurd held List.not_mem_nil
    · exact absurd member (Array.not_mem_empty n)

/-- What a forest and a recorder of the same run have in common. -/
structure ForestAgrees (past : List Answer) (forest : Forest) (recorder : Recorder) : Prop where
  /-- There is one host node for each call whose exit ended it. -/
  exited : (forest.nodes.toList.filter (·.kind == .cpu)).map (·.span) = exitedSpans past
  distinct : (exitedSpans past).Nodup
  hosts : ∀ n ∈ forest.nodes, n.kind = .cpu → ∃ s,
    recorder.hostSpans.filter (·.span == n.span) = [s] ∧ n.Agrees s
  devices : List.Forall₂ (fun n s => n.Agrees s ∧ s.lap = some n.priority)
    (forest.nodes.toList.filter (·.kind == .device)) recorder.linkedSpans
  /-- The names agree too, unless two of them share a hash. -/
  names : (∀ a ∈ usedNames past recorder, ∀ b ∈ usedNames past recorder,
      nameHash a = nameHash b → a = b) →
    (∀ n ∈ forest.nodes, n.kind = .cpu → ∀ s ∈ recorder.hostSpans, s.span = n.span →
      n.name = s.name) ∧
    (forest.nodes.toList.filter (·.kind == .device)).map (·.name) =
      recorder.linkedSpans.map (·.name)

theorem map_resolve {names : HashNames} {marks : List Mark} {spans : List Span}
    (h : List.Forall₂ (fun m s => Mark.nameHash m = nameHash (Span.name s)) marks spans)
    (resolve : ∀ s ∈ spans, names.resolve (nameHash s.name) = s.name) :
    marks.map (fun m => (m.toNode names .device).name) = spans.map (·.name) := by
  induction h with
  | nil => rfl
  | @cons m s marks spans hash _ ih =>
    have first : (m.toNode names .device).name = s.name := by
      rw [← resolve s List.mem_cons_self, ← hash]
      rfl
    rw [List.map_cons, List.map_cons, first,
      ih fun s member => resolve s (List.mem_cons_of_mem _ member)]

/-- A host node of the forest is one of the pairing, so it has a span of the recorder. -/
theorem Paired.found {past : List Answer} {ts : ThreadId → ThreadState}
    {recorder : Recorder} {log : MarkLog}
    (h : Paired log.names past ts recorder (Pairing.ofMarks log.names log.marks.toList))
    (hosts : (log.forest.nodes.toList.filter (·.kind == .cpu)).map Node.bare =
      (Pairing.ofMarks log.names log.marks.toList).hosts.toList.map Node.bare)
    {n : Node} (member : n ∈ log.forest.nodes) (kind : n.kind = .cpu) :
    ∃ s ∈ recorder.hostSpans, n.Agrees s ∧ n.name = log.names.resolve (nameHash s.name) ∧
      s.name ∈ callNames past := by
  have bare : n.bare ∈ (log.forest.nodes.toList.filter (·.kind == .cpu)).map Node.bare :=
    List.mem_map_of_mem (List.mem_filter.mpr
      ⟨Array.mem_toList_iff.mpr member, beq_iff_eq.mpr kind⟩)
  rw [hosts] at bare
  obtain ⟨n', member', same⟩ := List.mem_map.mp bare
  obtain ⟨_, s, finished, agrees, name, used⟩ := h.hosts n' (Array.mem_toList_iff.mp member')
  exact ⟨s, finished, agrees.of_bare same.symm, (congrArg Node.name same.symm).trans name, used⟩

theorem Marked.forestAgrees {filter : NameFilter} {past : List Happening}
    {ts : ThreadId → ThreadState} {e : Engine} {recorder : Recorder} {log : MarkLog}
    (h : Marked filter past ts e recorder log) :
    ForestAgrees (answers past) log.forest recorder := by
  have paired := h.paired log.names
  have cpu : ∀ n ∈ (Pairing.ofMarks log.names log.marks.toList).hosts, n.kind = .cpu :=
    fun n member => (paired.hosts n member).1
  have hosts : (log.forest.nodes.toList.filter (·.kind == .cpu)).map Node.bare =
      (Pairing.ofMarks log.names log.marks.toList).hosts.toList.map Node.bare :=
    Pairing.bare_hosts cpu
  have devices : (log.forest.nodes.toList.filter (·.kind == .device)).map Node.bare =
      ((Pairing.ofMarks log.names log.marks.toList).devices.toList.map
        (Mark.toNode log.names .device)).map Node.bare := Pairing.bare_devices cpu
  refine ⟨?_, paired.nodup, fun n member kind => ?_, ?_, fun injective => ⟨?_, ?_⟩⟩
  · have spans := congrArg (List.map Node.span) hosts
    rw [List.map_map, List.map_map] at spans
    exact spans.trans paired.exited
  · obtain ⟨s, finished, agrees, _⟩ := paired.found hosts member kind
    refine ⟨s, ?_, agrees⟩
    rw [agrees.span]
    exact h.distinct.only finished
  · have linked : List.Forall₂ (fun n s => Node.Agrees n s ∧ s.lap = some n.priority)
        ((Pairing.ofMarks log.names log.marks.toList).devices.toList.map
          (Mark.toNode log.names .device)) recorder.linkedSpans :=
      List.forall₂_map_left_iff.mpr (paired.devices.imp fun m s both => ⟨both.1, both.2.1⟩)
    have bare : List.Forall₂ (fun n s => Node.Agrees n s ∧ s.lap = some n.priority)
        ((log.forest.nodes.toList.filter (·.kind == .device)).map Node.bare)
        recorder.linkedSpans := by
      rw [devices]
      exact List.forall₂_map_left_iff.mpr
        (linked.imp fun n s both => ⟨both.1.of_bare rfl, both.2⟩)
    exact (List.forall₂_map_left_iff.mp bare).imp fun n s both => ⟨both.1.of_bare rfl, both.2⟩
  · intro n member kind s finished same
    obtain ⟨s', finished', agrees, name, used⟩ := paired.found hosts member kind
    have only := h.distinct.only finished'
    have both : s ∈ recorder.hostSpans.filter (·.span == s'.span) :=
      List.mem_filter.mpr ⟨finished, beq_iff_eq.mpr (same.trans agrees.span)⟩
    rw [only] at both
    rw [List.mem_singleton.mp both, name]
    exact h.knows.resolve injective (List.mem_append_left _ used)
  · have names := congrArg (List.map Node.name) devices
    rw [List.map_map, List.map_map, List.map_map] at names
    refine names.trans
      (map_resolve (paired.devices.imp fun m s both => both.2.2) fun s member => ?_)
    exact h.knows.resolve injective
      (List.mem_append_right _ (List.mem_map_of_mem member))

/-- Over every list of events the forest and the recorder of a run agree, before and after the
session is shut down. -/
theorem Started.forest_and_recorder {s : Settings} {r : Replay} (started : r.Started s)
    (spans : s.recordSpans = true) (marks : s.recordMarks = true) (events : List RecordedEvent)
    {session : Session} (at_end : session = (r.all events).session ∨
      session = (r.all events).session.shutdown.2) :
    ∃ recorder log, session.engine.sinks.spans = some recorder ∧
      session.engine.sinks.marks = some log ∧
      ForestAgrees (answers (r.history events)) log.forest recorder := by
  have fresh := started.fresh
  obtain ⟨⟨recorder, log, marked⟩, running⟩ := (kept_marked r.session.engine.callFilter).all
    fresh.running ⟨{}, {}, fresh.marked spans marks⟩ events
  rcases at_end with rfl | rfl
  · exact ⟨recorder, log, marked.recorded.spans, marked.marks, marked.forestAgrees⟩
  · have stopped : ∃ recorder', Marked r.session.engine.callFilter (r.history events)
        (r.all events).threadState (r.all events).session.stopped recorder' log :=
      (marked.unregistered _).background (Session.background_stopped running.ready)
    obtain ⟨recorder', stopped⟩ := stopped
    rw [Session.sinks_shutdown running.active]
    exact ⟨recorder', log, stopped.recorded.spans, stopped.marks, stopped.forestAgrees⟩

/-- A call that launches work on a device, looked at after the session was shut down. -/
theorem forest_and_recorder_of_launch : ∃ r : Replay, r.Started {} ∧
    ({} : Settings).recordSpans = true ∧ ({} : Settings).recordMarks = true ∧
    let events : List RecordedEvent :=
      [.call 1 10 (.enter "hipLaunchKernel" 7), .batch 2 [.ofOp 7 .dispatch 100 200],
        .call 1 300 (.exit "hipLaunchKernel" 7)]
    ∃ recorder log, (r.all events).session.shutdown.2.engine.sinks.spans = some recorder ∧
      (r.all events).session.shutdown.2.engine.sinks.marks = some log ∧
      ForestAgrees (answers (r.history events)) log.forest recorder := by
  obtain ⟨r, start⟩ : ∃ r, Replay.start {} none = .ok r := ⟨_, rfl⟩
  have started := Started.of_start start
  exact ⟨r, started, rfl, rfl, started.forest_and_recorder rfl rfl _ (.inr rfl)⟩

end Replay

end SpanWeave
