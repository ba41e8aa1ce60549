import SpanWeave.Proofs.Engine.Background
import SpanWeave.Session

set_option autoImplicit false

/-!
# Start and shutdown

What a session does when it starts and when it ends besides the work of its engine, which is to ask
the tracer and to run routines: warnings may come of it, but no sink is told. Whatever the tracer
refuses and however routines end, every domain is asked for and every routine is run.
-/
namespace SpanWeave.Session

/-- A session is built of filters that can be read. -/
theorem build_filters {settings : Settings} {tracer : Tracer} {hostClock : Clock}
    {skew : Option Skew} {spans : Option Recorder} {durations : Option Durations}
    {language : PatternLanguage} {s : Session}
    (built : build settings tracer hostClock skew spans durations language = .ok s) :
    ∃ callFilter activityFilter, callFilterOf settings language = .ok callFilter ∧
      settings.activityFilter.mapM (NameFilter.ofExpression · language) = .ok activityFilter := by
  unfold build at built
  cases calls : callFilterOf settings language with
  | error fault => simp [calls, bind, Except.bind] at built
  | ok callFilter =>
    cases activities : settings.activityFilter.mapM (NameFilter.ofExpression · language) with
    | error fault => simp [calls, activities, bind, Except.bind] at built
    | ok activityFilter => exact ⟨callFilter, activityFilter, rfl, rfl⟩

theorem runRoutines_eq (s : Session) (routines : List Routine) : ∃ warnings,
    s.runRoutines routines = { s with
      routines := s.routines ++ routines.toArray
      engine := { s.engine with warnings } } := by
  induction routines generalizing s with
  | nil => exact ⟨s.engine.warnings, by rw [Array.append_empty]; rfl⟩
  | cons r routines ih =>
    have first : ∃ warnings, s.runRoutines [r] = { s with
        routines := s.routines.push r
        engine := { s.engine with warnings } } := by
      rcases r with ⟨name, done | cause | aborted⟩
      · exact ⟨s.engine.warnings, rfl⟩
      · exact ⟨s.engine.warnings.push (.routineFailed cause), rfl⟩
      · exact ⟨s.engine.warnings.push .routineAborted, rfl⟩
    obtain ⟨warnings, first⟩ := first
    obtain ⟨later, rest⟩ := ih (s.runRoutines [r])
    refine ⟨later, rest.trans ?_⟩
    rw [first, List.push_append_toArray]

theorem enableDomain_eq (s : Session) (d : Domain) : ∃ warnings,
    s.enableDomain d =
      { s with tracer := (s.tracer.enable d).2, engine := { s.engine with warnings } } ∧
      (s.tracer.enable d).2.calls = s.tracer.calls.push (.enable d) := by
  unfold enableDomain
  by_cases refused : s.tracer.refusedEnable = some d
  · have asked : s.tracer.enable d = (.error (.enableFailed d.name Tracer.refusal),
        { s.tracer with calls := s.tracer.calls.push (.enable d) }) := if_pos refused
    rw [asked]
    exact ⟨_, rfl, rfl⟩
  · have asked : s.tracer.enable d = (.ok (), { s.tracer with
        calls := s.tracer.calls.push (.enable d)
        reported := s.tracer.reported.insert d }) := if_neg refused
    rw [asked]
    exact ⟨s.engine.warnings, rfl, rfl⟩

theorem enableAll_eq (s : Session) (domains : List Domain) : ∃ tracer warnings,
    domains.foldl enableDomain s = { s with tracer, engine := { s.engine with warnings } } ∧
      tracer.calls = s.tracer.calls ++ (domains.map TracerCall.enable).toArray := by
  induction domains generalizing s with
  | nil => exact ⟨s.tracer, s.engine.warnings, rfl, (Array.append_empty).symm⟩
  | cons d domains ih =>
    obtain ⟨warnings, first, asked⟩ := s.enableDomain_eq d
    obtain ⟨tracer, later, rest, calls⟩ := ih (s.enableDomain d)
    refine ⟨tracer, later, rest.trans ?_, calls.trans ?_⟩
    · rw [first]
    · rw [first, asked, List.map_cons, List.push_append_toArray]

theorem disableDomain_eq (sn : Session × Nat) (d : Domain) : ∃ warnings failures,
    disableDomain sn d = ({ sn.1 with
      tracer := (sn.1.tracer.disable d).2
      engine := { sn.1.engine with warnings } }, failures) ∧
      (sn.1.tracer.disable d).2.calls = sn.1.tracer.calls.push (.disable d) := by
  unfold disableDomain Tracer.disable
  cases refuses : sn.1.tracer.refusesDisable with
  | true => exact ⟨_, _, rfl, rfl⟩
  | false => exact ⟨sn.1.engine.warnings, _, rfl, rfl⟩

theorem disableAll_eq (sn : Session × Nat) (domains : List Domain) : ∃ tracer warnings failures,
    domains.foldl disableDomain sn =
      ({ sn.1 with tracer, engine := { sn.1.engine with warnings } }, failures) ∧
      tracer.calls = sn.1.tracer.calls ++ (domains.map TracerCall.disable).toArray := by
  induction domains generalizing sn with
  | nil => exact ⟨sn.1.tracer, sn.1.engine.warnings, sn.2, rfl, (Array.append_empty).symm⟩
  | cons d domains ih =>
    obtain ⟨warnings, failures, first, asked⟩ := disableDomain_eq sn d
    obtain ⟨tracer, later, all, rest, calls⟩ := ih (disableDomain sn d)
    refine ⟨tracer, later, all, rest.trans ?_, calls.trans ?_⟩
    · rw [first]
    · rw [first, asked, List.map_cons, List.push_append_toArray]

theorem start_eq {s : Session} (inactive : s.state = .inactive) : ∃ tracer warnings,
    s.start = (.ok (), { s with
      state := .active
      tracer
      engine := { s.engine with warnings }
      setup := []
      routines := s.routines ++ s.setup.toArray }) ∧
      tracer.calls = s.tracer.calls ++ (Domain.all.map TracerCall.enable).toArray := by
  obtain ⟨tracer, warnings, enabled, asked⟩ :=
    ({ s with state := .active } : Session).enableAll_eq Domain.all
  have ran := fun t : Session => { t with setup := [] }.runRoutines_eq s.setup
  unfold start
  rw [inactive]
  dsimp only
  rw [enabled]
  obtain ⟨later, ran⟩ :=
    ran { s with state := .active, tracer, engine := { s.engine with warnings } }
  exact ⟨tracer, later, congrArg (Prod.mk _) ran, asked⟩

def stopped (s : Session) : Engine :=
  { s.engine with registry := s.engine.registry.drain.2 }.stopWork

theorem background_stopped {s : Session} (ready : s.engine.Ready) :
    { s.engine with registry := s.engine.registry.drain.2 }.Background s.stopped := by
  have unregistered : { s.engine with registry := s.engine.registry.drain.2 }.Ready := ready
  exact (Engine.Background.stopWork unregistered).1

theorem shutdown_eq {s : Session} (unfinished : s.state ≠ .finalized) : ∃ tracer warnings,
    s.shutdown.2 = { s with
      state := .finalized
      tracer
      engine := { s.stopped with warnings }
      teardown := []
      routines := s.routines ++ s.teardown.toArray
      own? := none } ∧
      tracer.calls = s.tracer.calls ++ (Domain.all.map TracerCall.disable).toArray ∧
      s.shutdown.1.discarded = s.engine.registry.owners.toList.length := by
  obtain ⟨tracer, warnings, failures, disabled, asked⟩ :=
    disableAll_eq ({ s with state := .finalized, engine := s.stopped }, 0) Domain.all
  have ended : s.shutdown =
      let x :=
        Domain.all.foldl disableDomain ({ s with state := .finalized, engine := s.stopped }, 0)
      ({ discarded := s.engine.registry.drain.1.length
         flushed := s.stopped.work.executed - s.engine.work.executed
         disableFailures := x.2 },
        { { x.1 with teardown := [] }.runRoutines x.1.teardown with own? := none }) :=
    if_neg unfinished
  obtain ⟨later, ran⟩ := runRoutines_eq { s with
    state := .finalized
    tracer
    engine := { s.stopped with warnings }
    teardown := [] } s.teardown
  rw [ended, disabled]
  refine ⟨tracer, later, ?_, asked, List.length_map _⟩
  exact congrArg (fun t : Session => { t with own? := none }) ran

theorem disableAll_refused (sn : Session × Nat) (domains : List Domain) :
    (domains.foldl disableDomain sn).2 =
      sn.2 + if sn.1.tracer.refusesDisable then domains.length else 0 := by
  induction domains generalizing sn with
  | nil => simp only [List.foldl_nil, List.length_nil, ite_self, Nat.add_zero]
  | cons d domains ih =>
    have first : (disableDomain sn d).2 = sn.2 + (if sn.1.tracer.refusesDisable then 1 else 0) ∧
        (disableDomain sn d).1.tracer.refusesDisable = sn.1.tracer.refusesDisable := by
      unfold disableDomain Tracer.disable
      cases sn.1.tracer.refusesDisable <;> exact ⟨rfl, rfl⟩
    obtain ⟨counted, same⟩ := first
    rw [List.foldl_cons, ih, counted, same, List.length_cons]
    split <;> omega

/-- What a shutdown reports: the open calls, the work that was left, and the refusals. -/
theorem report_shutdown {s : Session} (unfinished : s.state ≠ .finalized) : s.shutdown.1 =
    { discarded := s.engine.registry.owners.toList.length
      flushed := s.stopped.work.executed - s.engine.work.executed
      disableFailures := if s.tracer.refusesDisable then Domain.all.length else 0 } := by
  have refused :=
    disableAll_refused ({ s with state := .finalized, engine := s.stopped }, 0) Domain.all
  rw [Nat.zero_add] at refused
  have reported : s.shutdown.1 =
      { discarded := s.engine.registry.drain.1.length
        flushed := s.stopped.work.executed - s.engine.work.executed
        disableFailures := (Domain.all.foldl disableDomain
          ({ s with state := .finalized, engine := s.stopped }, 0)).2 } := by
    unfold shutdown
    rw [if_neg unfinished]
    rfl
  rw [reported, refused]
  exact congrArg (ShutdownReport.mk · _ _) (List.length_map _)

/-- A shutdown does the deferred work, and that is all that the sinks see of it. -/
theorem sinks_shutdown {s : Session} (active : s.state = .active) :
    s.shutdown.2.engine.sinks = s.stopped.sinks := by
  obtain ⟨_, _, ended, _⟩ := shutdown_eq (s := s) (by rw [active]; decide)
  rw [ended]

end SpanWeave.Session
