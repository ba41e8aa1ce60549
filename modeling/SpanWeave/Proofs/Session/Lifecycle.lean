import Mathlib.Data.List.TakeWhile
import SpanWeave.Proofs.Session.Dealings

set_option autoImplicit false

/-!
# Lifecycle

What becomes of a session that is dealt with in any way, told by the dealings alone: it never goes
back, it asks the tracer for every domain when it first starts and again when it first shuts down,
and at each of the two it runs the routines that it was left with by then. While it is not active
no report changes anything, and once it was shut down it holds no calls and no work.
-/
namespace SpanWeave

inductive SessionState.Goes : SessionState → SessionState → Prop
  | stays (state : SessionState) : Goes state state
  | starts : Goes .inactive .active
  | ends : Goes .active .finalized
  | givenUp : Goes .inactive .finalized

/-! ## What the dealings say -/

namespace Dealing

/-- What comes before the first `d`, or everything. -/
def before (d : Dealing) (dealings : List Dealing) : List Dealing := dealings.takeWhile (· ≠ d)

theorem before_first {d : Dealing} {first : List Dealing} (absent : d ∉ first)
    (later : List Dealing) : before d (first ++ d :: later) = first := by
  have passed : ∀ x ∈ first, decide (x ≠ d) = true := fun _ member =>
    decide_eq_true fun same => absent (same ▸ member)
  rw [before, List.takeWhile_append_of_pos passed, List.takeWhile_cons_of_neg, List.append_nil]
  exact fun differs => of_decide_eq_true differs rfl

theorem before_append {d : Dealing} {dealings : List Dealing} (present : d ∈ dealings)
    (more : List Dealing) : before d (dealings ++ more) = before d dealings := by
  obtain ⟨first, later, rfl, absent⟩ := List.eq_append_cons_of_mem present
  rw [before_first absent, List.append_assoc, List.cons_append, before_first absent]

theorem before_of_absent {d : Dealing} {dealings : List Dealing} (absent : d ∉ dealings) :
    before d dealings = dealings :=
  List.takeWhile_eq_self_iff.mpr fun _ member => decide_eq_true fun same => absent (same ▸ member)

def setups (dealings : List Dealing) : List Routine :=
  dealings.filterMap fun
    | .onSetup r => some r
    | _ => none

def teardowns (dealings : List Dealing) : List Routine :=
  dealings.filterMap fun
    | .onShutdown r => some r
    | _ => none

def Opens (dealings : List Dealing) : Prop := .start ∈ before .shutdown dealings

def Closes (dealings : List Dealing) : Prop := .shutdown ∈ dealings

instance (dealings : List Dealing) : Decidable (Opens dealings) :=
  inferInstanceAs (Decidable (_ ∈ _))

instance (dealings : List Dealing) : Decidable (Closes dealings) :=
  inferInstanceAs (Decidable (_ ∈ _))

def outcome (dealings : List Dealing) : SessionState :=
  if Closes dealings then .finalized else if Opens dealings then .active else .inactive

def calls (dealings : List Dealing) : List TracerCall :=
  (if Opens dealings then Domain.all.map .enable else []) ++
    if Closes dealings then Domain.all.map .disable else []

def routines (dealings : List Dealing) : List Routine :=
  (if Opens dealings then setups (before .start dealings) else []) ++
    if Closes dealings then teardowns (before .shutdown dealings) else []

end Dealing

namespace Life
open Dealing

theorem after_append (l : Life) (dealings more : List Dealing) :
    l.after (dealings ++ more) = (l.after dealings).after more := List.foldl_append

/-- Starts and shutdowns that come too late change nothing. -/
theorem after_quiet (l : Life) (dealings : List Dealing)
    (unstarted : .start ∈ dealings → l.state ≠ .inactive)
    (unended : .shutdown ∈ dealings → l.state = .finalized) :
    l.after dealings = { l with
      setup := l.setup ++ setups dealings
      teardown := l.teardown ++ teardowns dealings } := by
  induction dealings generalizing l with
  | nil => simp [after, setups, teardowns]
  | cons d dealings ih =>
    have rest := fun (l' : Life) (same : l'.state = l.state) => ih l'
      (fun later => same ▸ unstarted (List.mem_cons_of_mem d later))
      (fun later => same ▸ unended (List.mem_cons_of_mem d later))
    change (l.deal d).after dealings = _
    cases d with
    | start =>
      have kept : l.deal .start = l := if_neg (unstarted List.mem_cons_self)
      rw [kept, rest l rfl]
      rfl
    | shutdown =>
      have kept : l.deal .shutdown = l := if_pos (unended List.mem_cons_self)
      rw [kept, rest l rfl]
      rfl
    | onSetup r =>
      rw [rest (l.deal (.onSetup r)) rfl]
      simp only [deal, setups, teardowns, List.filterMap_cons, List.append_assoc, List.cons_append,
        List.nil_append]
    | onShutdown r =>
      rw [rest (l.deal (.onShutdown r)) rfl]
      simp only [deal, setups, teardowns, List.filterMap_cons, List.append_assoc, List.cons_append,
        List.nil_append]
    | report context callback =>
      rw [rest (l.deal (.report context callback)) rfl]
      rfl

def fresh (earlier : Array TracerCall) : Life := ⟨.inactive, earlier, #[], [], []⟩

theorem after_unended (earlier : Array TracerCall) {dealings : List Dealing}
    (unended : .shutdown ∉ dealings) : ∃ setup, (fresh earlier).after dealings =
      { state := if .start ∈ dealings then .active else .inactive
        asked := earlier ++
          (if .start ∈ dealings then Domain.all.map TracerCall.enable else []).toArray
        ran := (if .start ∈ dealings then setups (before .start dealings) else []).toArray
        setup
        teardown := teardowns dealings } := by
  by_cases started : .start ∈ dealings
  · obtain ⟨first, later, rfl, unstarted⟩ := List.eq_append_cons_of_mem started
    have opening := after_quiet (fresh earlier) first
      (fun late => absurd late unstarted) fun late => absurd (List.mem_append_left _ late) unended
    let opened : Life := ⟨.active, earlier ++ (Domain.all.map TracerCall.enable).toArray,
      #[] ++ (setups first).toArray, [], teardowns first⟩
    have rest := after_quiet opened later (fun _ => nofun)
      fun late => absurd (List.mem_append_right _ (List.mem_cons_of_mem _ late)) unended
    refine ⟨setups later, ?_⟩
    rw [after_append, opening, if_pos started, if_pos started, if_pos started,
      before_first unstarted]
    refine rest.trans ?_
    simp only [opened, teardowns, List.filterMap_append, List.filterMap_cons, List.nil_append,
      Array.empty_append]
  · exact ⟨setups dealings, by
      rw [after_quiet _ _ (fun late => absurd late started) fun late => absurd late unended]
      simp [started, fresh]⟩

/-- The life of a session is told by the dealings with it. -/
theorem after_fresh (earlier : Array TracerCall) (dealings : List Dealing) : ∃ setup teardown,
    (fresh earlier).after dealings = ⟨outcome dealings, earlier ++ (calls dealings).toArray,
      (routines dealings).toArray, setup, teardown⟩ := by
  -- the first shutdown divides the dealings: none comes before it, and nothing happens after it
  by_cases closes : Closes dealings
  · obtain ⟨first, later, rfl, unended⟩ := List.eq_append_cons_of_mem closes
    have opened : before .shutdown (first ++ .shutdown :: later) = first :=
      before_first unended later
    obtain ⟨setup, opening⟩ := after_unended earlier unended
    have ended : ((fresh earlier).after first).deal .shutdown =
        { (fresh earlier).after first with
          state := .finalized
          asked := ((fresh earlier).after first).asked ++
            (Domain.all.map TracerCall.disable).toArray
          ran := ((fresh earlier).after first).ran ++ (teardowns first).toArray
          teardown := [] } := by
      rw [opening]
      refine if_neg ?_
      dsimp only
      split <;> exact nofun
    have rest := after_quiet (((fresh earlier).after first).deal .shutdown) later
      (by rw [ended]; exact fun _ => nofun) (by rw [ended]; exact fun _ => rfl)
    rw [ended, opening] at rest
    refine ⟨setup ++ setups later, [] ++ teardowns later, ?_⟩
    rw [after_append]
    change (((fresh earlier).after first).deal .shutdown).after later = _
    rw [ended, opening, rest]
    simp only [outcome, calls, routines, Opens, opened, closes, ↓reduceIte, Array.append_assoc,
      List.append_toArray]
    by_cases started : .start ∈ first
    · rw [before_append started]
    · simp only [started, ↓reduceIte]
  · obtain ⟨setup, opening⟩ := after_unended earlier closes
    refine ⟨setup, teardowns dealings, opening.trans ?_⟩
    simp only [outcome, calls, routines, Opens, before_of_absent closes, closes, ↓reduceIte,
      List.append_nil]

end Life

/-! ## What the session holds -/

structure Engine.Cleared (e : Engine) : Prop where
  owners : e.registry.owners = ∅
  identities : e.registry.identities = ∅
  work : e.work.Empty

structure Session.Sound (s : Session) : Prop where
  accepts : s.state ≠ .finalized → s.engine.Accepts
  cleared : s.state = .finalized → s.engine.Cleared

namespace Client

theorem shutdown_again {c : Client} (ended : c.session.state = .finalized) :
    c.deal .shutdown = (.shutDown {}, c) := by
  have again : c.session.shutdown = ({}, c.session) := if_pos ended
  rw [deal, again]

theorem start_late {c : Client} (ended : c.session.state = .finalized) :
    c.deal .start = (.started (.error .inactive), c) := by
  have late : c.session.start = (.error .inactive, c.session) := by rw [Session.start, ended]
  rw [deal, late]

theorem report_idle {c : Client} (idle : c.session.state ≠ .active) (context : Option Nat)
    (callback : Callback) : c.deal (.report context callback) = (callback.ignored, c) :=
  c.report_ignored (beq_false_of_ne idle) context callback

theorem sound_deal {c : Client} (sound : c.session.Sound) (d : Dealing) :
    (c.deal d).2.session.Sound := by
  -- a finalized session takes routines that it will never run, and nothing else
  by_cases ended : c.session.state = .finalized
  · cases d with
    | start => rwa [start_late ended]
    | shutdown => rwa [shutdown_again ended]
    | onSetup r => exact ⟨sound.accepts, sound.cleared⟩
    | onShutdown r => exact ⟨sound.accepts, sound.cleared⟩
    | report context callback => rwa [report_idle (by rw [ended]; decide)]
  · have accepts := sound.accepts ended
    cases d with
    | start =>
      change c.session.start.2.Sound
      cases state : c.session.state with
      | inactive =>
        obtain ⟨tracer, warnings, started, _⟩ := Session.start_eq state
        rw [started]
        exact ⟨fun _ => accepts, nofun⟩
      | active => rwa [Session.start, state]
      | finalized => exact absurd state ended
    | shutdown =>
      obtain ⟨tracer, warnings, shut, _⟩ := Session.shutdown_eq ended
      change c.session.shutdown.2.Sound
      rw [shut]
      have stopped := accepts.stop
      exact ⟨fun unended => absurd rfl unended,
        fun _ => ⟨rfl, rfl, stopped.waiting, stopped.pending⟩⟩
    | onSetup r => exact ⟨fun _ => accepts, fun late => absurd late ended⟩
    | onShutdown r => exact ⟨fun _ => accepts, fun late => absurd late ended⟩
    | report context callback =>
      obtain ⟨engine, threads, own?, went, kept⟩ := c.report_eq context callback
      change (c.report context callback).2.session.Sound
      rw [went]
      exact ⟨fun _ => kept accepts, fun late => absurd late ended⟩

theorem sound_after {c : Client} (sound : c.session.Sound) (dealings : List Dealing) :
    (c.after dealings).session.Sound :=
  List.foldlRecOn (motive := fun c : Client => c.session.Sound) dealings _ sound
    fun _ sound d _ => sound_deal sound d

end Client

/-! ## What becomes of a session -/

/-- What can be told of a session after dealings, when the tracer was asked `earlier` before. -/
structure Client.Lives (c : Client) (earlier : Array TracerCall) (dealings : List Dealing) :
    Prop where
  state : c.session.state = Dealing.outcome dealings
  goes : ∀ d, c.session.state.Goes (c.deal d).2.session.state
  asked : c.session.tracer.calls = earlier ++ (Dealing.calls dealings).toArray
  ran : c.session.routines = (Dealing.routines dealings).toArray
  idle : c.session.state ≠ .active → ∀ context callback,
    c.deal (.report context callback) = (callback.ignored, c)
  ended : Dealing.Closes dealings → c.session.engine.Cleared ∧
    c.deal .shutdown = (.shutDown {}, c) ∧ c.deal .start = (.started (.error .inactive), c)

theorem Life.goes_deal (l : Life) (d : Dealing) : l.state.Goes (l.deal d).state := by
  cases d with
  | start =>
    rw [deal]
    split
    · rename_i inactive
      rw [inactive]
      exact .starts
    · exact .stays l.state
  | shutdown =>
    rw [deal]
    split
    · exact .stays l.state
    · rename_i unended
      cases state : l.state with
      | inactive => exact .givenUp
      | active => exact .ends
      | finalized => exact absurd state unended
  | onSetup r | onShutdown r | report context callback => exact .stays l.state

theorem Client.goes_deal (c : Client) (d : Dealing) :
    c.session.state.Goes (c.deal d).2.session.state := by
  have went := c.session.life.goes_deal d
  rw [← c.life_deal] at went
  exact went

namespace Session

def scheduled (s : Session) (turns : List (List Nat)) : Session :=
  { s with engine := { s.engine with work := { s.engine.work with turns } } }

theorem build_fresh {settings : Settings} {tracer : Tracer} {hostClock : Clock}
    {skew : Option Skew} {spans : Option Recorder} {durations : Option Durations}
    {language : PatternLanguage} {s : Session}
    (built : build settings tracer hostClock skew spans durations language = .ok s)
    (turns : List (List Nat)) :
    (s.scheduled turns).life = .fresh tracer.calls ∧ (s.scheduled turns).Sound := by
  obtain ⟨callFilter, activityFilter, calls, activities⟩ := build_filters built
  unfold build at built
  rw [calls, activities] at built
  cases built
  exact ⟨rfl, fun _ => ⟨⟨rfl, rfl⟩, rfl⟩, nofun⟩

/-- Whatever is done with a new session, and whatever its tracer refuses. -/
theorem lifecycle {settings : Settings} {tracer : Tracer} {hostClock : Clock}
    {skew : Option Skew} {spans : Option Recorder} {durations : Option Durations}
    {language : PatternLanguage} {s : Session}
    (built : build settings tracer hostClock skew spans durations language = .ok s)
    (turns : List (List Nat)) (contexts : Nat → ThreadState) (dealings : List Dealing) :
    (Client.after ⟨s.scheduled turns, contexts⟩ dealings).Lives tracer.calls dealings := by
  obtain ⟨fresh, new⟩ := build_fresh built turns
  have sound := Client.sound_after (c := ⟨s.scheduled turns, contexts⟩) new dealings
  have life := (Client.life_after ⟨s.scheduled turns, contexts⟩ dealings).trans
    (congrArg (Life.after · dealings) fresh)
  obtain ⟨setup, teardown, told⟩ := Life.after_fresh tracer.calls dealings
  rw [told] at life
  have state := congrArg Life.state life
  refine ⟨state, Client.goes_deal _, congrArg Life.asked life, congrArg Life.ran life,
    Client.report_idle, fun closes => ?_⟩
  have ended := state.trans (if_pos closes)
  exact ⟨sound.cleared ended, Client.shutdown_again ended, Client.start_late ended⟩

/-- Two routines of each kind come in time and one of each comes late; the tracer refuses to report
a domain and to stop reporting any, and only one of the routines is done. -/
theorem lifecycle_of_refusals : ∃ s,
    build {} { refusedEnable := some .deviceActivity, refusesDisable := true } (.constant 0) none
      (some {}) (some {}) = .ok s ∧
    let dealings : List Dealing :=
      [.report none (.call (.enter "hipMalloc" 1) 5), .onSetup ⟨"banner", .aborted⟩,
        .onShutdown ⟨"sync", .failed .inactive⟩, .onSetup ⟨"counters", .done⟩, .start,
        .onSetup ⟨"late", .done⟩, .report (some 0) (.call (.enter "hipMalloc" 2) 10),
        .report none (.untracked [.ofOp 0 .barrier 300 330]), .onShutdown ⟨"export", .aborted⟩,
        .shutdown, .onShutdown ⟨"later", .done⟩, .start, .shutdown]
    let c := Client.after ⟨s, fun k => s.threadState (UInt64.ofNat k)⟩ dealings
    c.session.state = .finalized ∧
      c.session.tracer.calls =
        (Domain.all.map TracerCall.enable ++ Domain.all.map TracerCall.disable).toArray ∧
      c.session.routines.toList.map (·.name) = ["banner", "counters", "sync", "export"] ∧
      c.session.engine.work.pending = 0 ∧ c.deal .shutdown = (.shutDown {}, c) := by
  obtain ⟨s, built⟩ : ∃ s, build {}
    { refusedEnable := some .deviceActivity, refusesDisable := true } (.constant 0) none
      (some {}) (some {}) = .ok s := ⟨_, rfl⟩
  refine ⟨s, built, ?_⟩
  intro dealings c
  have told : c.Lives #[] dealings :=
    lifecycle built s.engine.work.turns (fun k => s.threadState (UInt64.ofNat k)) dealings
  clear_value c
  have closes : Dealing.Closes dealings := by decide
  obtain ⟨cleared, again, _⟩ := told.ended closes
  refine ⟨told.state.trans (if_pos closes), told.asked, ?_, cleared.work.pending, again⟩
  exact congrArg (fun ran : Array Routine => ran.toList.map (·.name)) told.ran

end Session

end SpanWeave
