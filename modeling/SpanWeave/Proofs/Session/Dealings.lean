import Mathlib.Logic.Function.Basic
import SpanWeave.Proofs.Engine.Intake
import SpanWeave.Proofs.Session.Shutdown

set_option autoImplicit false

/-!
# Dealings

What a caller can do with a session, in any order: start it, shut it down, leave routines with it,
and report to it what happened, on a thread that the caller tracks or on the calling thread. Of all
this the state of the session, what the tracer is asked and which routines are run depend on nothing
but the dealings themselves: not on what the tracer refuses, how routines end, or what is reported.
-/
namespace SpanWeave

inductive Callback where
  | call (c : HostCall) (now : Nanos)
  | batch (batch : List Completion)
  | untracked (batch : List Completion)
  deriving DecidableEq, Repr

inductive Dealing where
  | start
  | shutdown
  | onSetup (r : Routine)
  | onShutdown (r : Routine)
  /-- On one of the threads that the caller tracks, or else on the calling thread. -/
  | report (context : Option Nat) (callback : Callback)
  deriving DecidableEq, Repr

inductive Reply where
  | noted
  | started (result : Except Fault Unit)
  | shutDown (report : ShutdownReport)
  | outcome (outcome : Outcome)
  | drained (report : DrainReport)

namespace Callback

def on (callback : Callback) (s : Session) (t : ThreadState) : Reply × ThreadState × Session :=
  match callback with
  | .call c now => let (outcome, t, s) := s.onCall t c now; (.outcome outcome, t, s)
  | .batch cs => let (report, t, s) := s.onBatch t cs; (.drained report, t, s)
  | .untracked cs => let (report, t, s) := s.onUntracked t cs; (.drained report, t, s)

def onOwn (callback : Callback) (s : Session) : Reply × Session :=
  match callback with
  | .call c now => let (outcome, s) := s.onOwnCall c now; (.outcome outcome, s)
  | .batch cs => let (report, s) := s.onOwnBatch cs; (.drained report, s)
  | .untracked cs => let (report, s) := s.onOwnUntracked cs; (.drained report, s)

def ignored : Callback → Reply
  | .call _ _ => .outcome .ignored
  | .batch cs | .untracked cs => .drained (Session.inactiveReport cs)

end Callback

structure Client where
  session : Session
  contexts : Nat → ThreadState

namespace Client

def report (c : Client) (context : Option Nat) (callback : Callback) : Reply × Client :=
  match context with
  | some k =>
    let (reply, t, session) := callback.on c.session (c.contexts k)
    (reply, ⟨session, Function.update c.contexts k t⟩)
  | none =>
    let (reply, session) := callback.onOwn c.session
    (reply, { c with session })

def deal (c : Client) : Dealing → Reply × Client
  | .start => let (result, session) := c.session.start; (.started result, { c with session })
  | .shutdown => let (report, session) := c.session.shutdown; (.shutDown report, { c with session })
  | .onSetup r => (.noted, { c with session := c.session.onSetup r })
  | .onShutdown r => (.noted, { c with session := c.session.onShutdown r })
  | .report context callback => c.report context callback

def after (c : Client) (dealings : List Dealing) : Client :=
  dealings.foldl (fun c d => (c.deal d).2) c

end Client

/-! ## Reports -/

/-- The calling thread may get a number, and is remembered. -/
theorem Session.onOwnThread_eq {α : Type} (s : Session)
    (f : Session → ThreadState → α × ThreadState × Session) : ∃ t threads,
    s.onOwnThread f = ((f { s with threads } t).1,
      { (f { s with threads } t).2.2 with own? := some (f { s with threads } t).2.1 }) := by
  rcases Option.eq_none_or_eq_some s.own? with known | ⟨t, known⟩
  · refine ⟨s.threadState (UInt64.ofNat s.threads), s.threads + 1, ?_⟩
    rw [onOwnThread, known]
  · have numbered : s.onOwnThread f = ((f s t).1,
        { (f s t).2.2 with own? := some (f s t).2.1 }) := by rw [onOwnThread, known]
    exact ⟨t, s.threads, numbered⟩

namespace Callback
variable (callback : Callback) (s : Session)

theorem on_ignored (idle : s.isActive = false) (t : ThreadState) :
    callback.on s t = (callback.ignored, t, s) := by
  cases callback <;>
    simp only [on, ignored, Session.onCall, Session.onBatch, Session.onUntracked, idle,
      Bool.false_eq_true, ↓reduceIte]

/-- A report changes the engine and nothing else of the session. -/
theorem on_eq (t : ThreadState) : ∃ engine, (callback.on s t).2.2 = { s with engine } ∧
    (s.engine.Accepts → engine.Accepts) := by
  cases active : s.isActive with
  | false => exact ⟨s.engine, by rw [callback.on_ignored s active], id⟩
  | true =>
    cases callback with
    | call c now =>
      refine ⟨(s.engine.onCall t c now).2.2, ?_, fun accepts => accepts.onCall t c now⟩
      simp only [on, Session.onCall, active, ↓reduceIte]
    | batch cs =>
      refine ⟨(s.engine.drain s.clocks t cs).2.2, ?_, fun accepts => accepts.drain s.clocks t cs⟩
      simp only [on, Session.onBatch, active, ↓reduceIte]
    | untracked cs =>
      refine ⟨(s.engine.drainUntracked s.clocks t.thread cs).2, ?_,
        fun accepts => accepts.drainUntracked s.clocks t.thread cs⟩
      simp only [on, Session.onUntracked, active, ↓reduceIte]

theorem onOwn_ignored (idle : s.isActive = false) :
    callback.onOwn s = (callback.ignored, s) := by
  cases callback <;>
    simp only [onOwn, ignored, Session.onOwnCall, Session.onOwnBatch, Session.onOwnUntracked, idle,
      Bool.false_eq_true, ↓reduceIte]

/-- On the calling thread it is reported as on any other. -/
theorem onOwn_on (active : s.isActive = true) : ∃ t threads, callback.onOwn s =
    ((callback.on { s with threads } t).1,
      { (callback.on { s with threads } t).2.2 with
        own? := some (callback.on { s with threads } t).2.1 }) := by
  cases callback with
  | call c now =>
    obtain ⟨t, threads, went⟩ := s.onOwnThread_eq fun s t => s.onCall t c now
    exact ⟨t, threads, by simp only [onOwn, Session.onOwnCall, active, ↓reduceIte, went]; rfl⟩
  | batch cs =>
    obtain ⟨t, threads, went⟩ := s.onOwnThread_eq fun s t => s.onBatch t cs
    exact ⟨t, threads, by simp only [onOwn, Session.onOwnBatch, active, ↓reduceIte, went]; rfl⟩
  | untracked cs =>
    obtain ⟨t, threads, went⟩ := s.onOwnThread_eq fun s t => s.onUntracked t cs
    exact ⟨t, threads, by simp only [onOwn, Session.onOwnUntracked, active, ↓reduceIte, went]; rfl⟩

theorem onOwn_eq : ∃ engine threads own?, (callback.onOwn s).2 = { s with engine, threads, own? } ∧
    (s.engine.Accepts → engine.Accepts) := by
  cases active : s.isActive with
  | false => exact ⟨s.engine, s.threads, s.own?, by rw [callback.onOwn_ignored s active], id⟩
  | true =>
    obtain ⟨t, threads, done⟩ := callback.onOwn_on s active
    obtain ⟨engine, went, accepts⟩ := callback.on_eq { s with threads } t
    refine ⟨engine, threads, some (callback.on { s with threads } t).2.1, ?_, accepts⟩
    rw [done, went]

end Callback

namespace Client

theorem report_eq (c : Client) (context : Option Nat) (callback : Callback) :
    ∃ engine threads own?,
      (c.report context callback).2.session = { c.session with engine, threads, own? } ∧
        (c.session.engine.Accepts → engine.Accepts) := by
  cases context with
  | none => exact callback.onOwn_eq c.session
  | some k =>
    obtain ⟨engine, went, accepts⟩ := callback.on_eq c.session (c.contexts k)
    exact ⟨engine, c.session.threads, c.session.own?, went, accepts⟩

theorem report_ignored (c : Client) (idle : c.session.isActive = false) (context : Option Nat)
    (callback : Callback) : c.report context callback = (callback.ignored, c) := by
  cases context with
  | none => rw [report, callback.onOwn_ignored c.session idle]
  | some k =>
    rw [report, callback.on_ignored c.session idle]
    exact congrArg (fun contexts => (callback.ignored, (⟨c.session, contexts⟩ : Client)))
      (Function.update_eq_self k c.contexts)

end Client

/-! ## The life of a session -/

/-- What becomes of a session, what it has asked the tracer and which routines it has run, and those
that it still has. -/
structure Life where
  state : SessionState
  asked : Array TracerCall
  ran : Array Routine
  setup : List Routine
  teardown : List Routine

def Life.deal (l : Life) : Dealing → Life
  | .start =>
    if l.state = .inactive then
      { l with
        state := .active
        asked := l.asked ++ (Domain.all.map TracerCall.enable).toArray
        ran := l.ran ++ l.setup.toArray
        setup := [] }
    else l
  | .shutdown =>
    if l.state = .finalized then l
    else
      { l with
        state := .finalized
        asked := l.asked ++ (Domain.all.map TracerCall.disable).toArray
        ran := l.ran ++ l.teardown.toArray
        teardown := [] }
  | .onSetup r => { l with setup := l.setup ++ [r] }
  | .onShutdown r => { l with teardown := l.teardown ++ [r] }
  | .report _ _ => l

def Life.after (l : Life) (dealings : List Dealing) : Life := dealings.foldl Life.deal l

def Session.life (s : Session) : Life := ⟨s.state, s.tracer.calls, s.routines, s.setup, s.teardown⟩

namespace Client

theorem life_deal (c : Client) (d : Dealing) :
    (c.deal d).2.session.life = c.session.life.deal d := by
  cases d with
  | start =>
    change c.session.start.2.life = _
    cases state : c.session.state with
    | inactive =>
      obtain ⟨tracer, warnings, started, asked⟩ := Session.start_eq state
      have first : c.session.life.state = .inactive := state
      rw [Life.deal, if_pos first, started]
      exact congrArg (fun calls => (⟨.active, calls, _, _, _⟩ : Life)) asked
    | active | finalized =>
      have later : c.session.life.state ≠ .inactive := fun inactive =>
        nomatch state.symm.trans inactive
      rw [Life.deal, if_neg later, Session.start, state]
  | shutdown =>
    change c.session.shutdown.2.life = _
    by_cases ended : c.session.state = .finalized
    · have already : c.session.life.state = .finalized := ended
      rw [Life.deal, if_pos already, Session.shutdown, if_pos ended]
    · obtain ⟨tracer, warnings, shut, asked, _⟩ := Session.shutdown_eq ended
      have unfinished : c.session.life.state ≠ .finalized := ended
      rw [Life.deal, if_neg unfinished, shut]
      exact congrArg (fun calls => (⟨.finalized, calls, _, _, _⟩ : Life)) asked
  | onSetup r => rfl
  | onShutdown r => rfl
  | report context callback =>
    obtain ⟨engine, threads, own?, went, _⟩ := c.report_eq context callback
    change (c.report context callback).2.session.life = _
    rw [went]
    rfl

theorem life_after (c : Client) (dealings : List Dealing) :
    (c.after dealings).session.life = c.session.life.after dealings := by
  induction dealings generalizing c with
  | nil => rfl
  | cons d dealings ih =>
    exact (ih (c.deal d).2).trans (congrArg (Life.after · dealings) (c.life_deal d))

end Client

end SpanWeave
