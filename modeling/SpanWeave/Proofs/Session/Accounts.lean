import Mathlib.Algebra.GroupWithZero.Nat
import SpanWeave.Proofs.Engine.Accounts
import SpanWeave.Proofs.Session.Lifecycle

set_option autoImplicit false

/-!
# Session accounts

What a session has counted, after any dealings with it, against what it has replied. Nothing is
asked of the threads: a caller may take one for another, and come back with one it has used
elsewhere.
-/
namespace SpanWeave

structure Dealt where
  dealing : Dealing
  active : Bool
  reply : Reply

namespace Dealt

def hasExited (x : Dealt) : Bool :=
  match x.reply with
  | .outcome (.exited _) => true
  | _ => false

def isAnomaly (x : Dealt) : Bool :=
  match x.dealing, x.reply with
  | .report _ (.call c _), .outcome .clockAnomaly => c.domain == .correlated
  | _, _ => false

def looked (g : NameFilter) (x : Dealt) : Nat :=
  match x.dealing with
  | .report _ (.batch cs) => if x.active then cs.countP (·.isLooked g) else 0
  | _ => 0

def discarded (x : Dealt) : Nat :=
  match x.reply with
  | .shutDown report => report.discarded
  | _ => 0

end Dealt

def receipts (g : NameFilter) (history : List Dealt) : Receipts where
  exited := history.countP Dealt.hasExited
  anomalies := history.countP Dealt.isAnomaly
  looked := (history.map (Dealt.looked g)).sum
  discarded := (history.map Dealt.discarded).sum

theorem receipts_cons (g : NameFilter) (x : Dealt) (history : List Dealt) :
    receipts g (x :: history) = (receipts g [x]).add (receipts g history) := by
  simp only [receipts, Receipts.add, List.countP_cons, List.countP_nil, List.map_cons,
    List.map_nil, List.sum_cons, List.sum_nil, Nat.zero_add, Nat.add_comm]

def Client.dealt (c : Client) : List Dealing → List Dealt
  | [] => []
  | d :: dealings => ⟨d, c.session.isActive, (c.deal d).1⟩ :: (c.deal d).2.dealt dealings

variable {g : NameFilter} {x : Receipts}

namespace Callback

theorem receipts_call (context : Option Nat) (c : HostCall) (now : Nanos) (active : Bool)
    (outcome : Outcome) : receipts g [⟨.report context (.call c now), active, .outcome outcome⟩] =
      .ofOutcome c.domain outcome := by
  cases outcome <;> cases domain : c.domain <;>
    simp [receipts, Receipts.ofOutcome, Dealt.hasExited, Dealt.isAnomaly, Dealt.looked,
      Dealt.discarded, domain]

theorem receipts_ignored (callback : Callback) (context : Option Nat) :
    receipts g [⟨.report context callback, false, callback.ignored⟩] = {} := by
  cases callback <;> rfl

theorem balances_on (callback : Callback) (context : Option Nat) {s : Session}
    (h : s.engine.Balances g x) (t : ThreadState) :
    (callback.on s t).2.2.engine.Balances g
      (x.add (receipts g [⟨.report context callback, s.isActive, (callback.on s t).1⟩])) := by
  cases active : s.isActive with
  | false =>
    rw [callback.on_ignored s active, receipts_ignored]
    exact h
  | true =>
    cases callback with
    | call c now =>
      simp only [on, Session.onCall, active, ↓reduceIte]
      rw [receipts_call]
      exact h.onCall t c now
    | batch cs =>
      have looked : ∀ reply, receipts g [⟨.report context (.batch cs), true, .drained reply⟩] =
          { looked := cs.countP (·.isLooked g) } := fun _ => rfl
      simp only [on, Session.onBatch, active, ↓reduceIte]
      rw [looked]
      exact h.drain s.clocks t cs
    | untracked cs =>
      simp only [on, Session.onUntracked, active, ↓reduceIte]
      exact h.drainUntracked s.clocks t.thread cs

end Callback

namespace Client

/-- A report is made on some thread, whichever it is. -/
theorem report_on (c : Client) (context : Option Nat) (callback : Callback) : ∃ threads t,
    (c.report context callback).1 = (callback.on { c.session with threads } t).1 ∧
      (c.report context callback).2.session.engine =
        (callback.on { c.session with threads } t).2.2.engine := by
  cases context with
  | some k => exact ⟨c.session.threads, c.contexts k, rfl, rfl⟩
  | none =>
    cases active : c.session.isActive with
    | false =>
      refine ⟨c.session.threads, c.contexts 0, ?_⟩
      rw [c.report_ignored active none callback, callback.on_ignored c.session active]
      exact ⟨rfl, rfl⟩
    | true =>
      obtain ⟨t, threads, done⟩ := callback.onOwn_on c.session active
      refine ⟨threads, t, ?_⟩
      unfold report
      rw [done]
      exact ⟨rfl, rfl⟩

theorem balances_deal {c : Client} (h : c.session.engine.Balances g x) (d : Dealing) :
    (c.deal d).2.session.engine.Balances g
      (x.add (receipts g [⟨d, c.session.isActive, (c.deal d).1⟩])) := by
  cases d with
  | start =>
    change c.session.start.2.engine.Balances g x
    cases state : c.session.state with
    | inactive =>
      obtain ⟨tracer, warnings, started, _⟩ := Session.start_eq state
      rw [started]
      exact h.of_books rfl rfl rfl rfl rfl
    | active | finalized => rwa [Session.start, state]
  | shutdown =>
    by_cases ended : c.session.state = .finalized
    · rw [shutdown_again ended]
      exact h
    · obtain ⟨tracer, warnings, shut, _, discarded⟩ := Session.shutdown_eq ended
      have reported : receipts g [⟨.shutdown, c.session.isActive, (c.deal .shutdown).1⟩] =
          { discarded := c.session.engine.registry.owners.toList.length } :=
        congrArg (Receipts.mk 0 0 0) discarded
      change c.session.shutdown.2.engine.Balances g _
      rw [reported, shut]
      exact h.stopWork.of_books rfl rfl rfl rfl rfl
  | onSetup r | onShutdown r => exact h
  | report context callback =>
    obtain ⟨threads, t, reply, engine⟩ := c.report_on context callback
    change (c.report context callback).2.session.engine.Balances g
      (x.add (receipts g [⟨_, _, (c.report context callback).1⟩]))
    rw [reply, engine]
    exact callback.balances_on context (s := { c.session with threads }) h t

theorem balances_after {c : Client} (h : c.session.engine.Balances g x)
    (dealings : List Dealing) : (c.after dealings).session.engine.Balances g
      (x.add (receipts g (c.dealt dealings))) := by
  induction dealings generalizing c x with
  | nil => exact h
  | cons d dealings ih =>
    have rest := ih (balances_deal h d)
    rw [Receipts.add_assoc, ← receipts_cons] at rest
    exact rest

end Client

namespace Session

theorem balances_build {settings : Settings} {tracer : Tracer} {hostClock : Clock}
    {skew : Option Skew} {spans : Option Recorder} {durations : Option Durations}
    {language : PatternLanguage} {s : Session}
    (built : build settings tracer hostClock skew spans durations language = .ok s) :
    s.engine.Balances s.engine.activityFilter {} := by
  obtain ⟨callFilter, activityFilter, calls, activities⟩ := build_filters built
  unfold build at built
  rw [calls, activities] at built
  cases built
  refine ⟨rfl, rfl, rfl, ?_, rfl, le_refl 0, rfl, rfl, le_refl 0, fun id => ?_⟩
  · change 0 = (∅ : Std.ExtTreeMap CorrelationId Identity).size
    rw [Std.ExtTreeMap.size_empty]
  · rw [Std.ExtTreeMap.getElem?_empty, Std.ExtTreeMap.getElem?_empty]
    rfl

/-- Whatever is done with a new session, its accounts balance, and with what it has replied. -/
theorem accounts_balance {settings : Settings} {tracer : Tracer} {hostClock : Clock}
    {skew : Option Skew} {spans : Option Recorder} {durations : Option Durations}
    {language : PatternLanguage} {s : Session}
    (built : build settings tracer hostClock skew spans durations language = .ok s)
    (turns : List (List Nat)) (contexts : Nat → ThreadState) (dealings : List Dealing) :
    let c : Client := ⟨s.scheduled turns, contexts⟩
    let e := (c.after dealings).session.engine
    let g := s.engine.activityFilter
    e.Balances g (receipts g (c.dealt dealings)) ∧ e.calls.missingRecords ≤ e.calls.exits := by
  intro c e g
  have fresh : c.session.engine.Balances g {} :=
    (balances_build built).of_books rfl rfl rfl rfl rfl
  have balances := Client.balances_after fresh dealings
  have same : ({} : Receipts).add (receipts g (c.dealt dealings)) =
      receipts g (c.dealt dealings) := by
    simp only [Receipts.add, Nat.zero_add]
  rw [same] at balances
  have told : _ + e.calls.missingRecords + _ = e.calls.exits := balances.told
  refine ⟨balances, ?_⟩
  omega

/-- One call is left, one is overwritten by another thread, one ends too early and one is open when
the session ends; of three completions one is an orphan and one comes too late. -/
theorem accounts_balance_of_shared_id : ∃ s,
    build { standardExclusions := false } {} (.constant 0) none (some {}) (some {}) = .ok s ∧
    let c : Client := ⟨s, fun k => s.threadState (UInt64.ofNat k)⟩
    let dealings : List Dealing :=
      [.report none (.call (.enter "hipMalloc" 1) 5), .start,
        .report none (.call (.enter "hipMalloc" 2) 10),
        .report none (.batch [.ofOp 2 .dispatch 11 12, .ofOp 9 .copy 11 12]),
        .report none (.call (.exit "hipMalloc" 2) 15),
        .report (some 1) (.call (.enter "hipFree" 3) 20),
        .report (some 2) (.call (.enter "hipFree" 3) 25),
        .report (some 1) (.call (.exit "hipFree" 3) 30),
        .report (some 1) (.call (.enter "hipFree" 4) 35),
        .report (some 1) (.call (.exit "hipFree" 4) 33),
        .report (some 2) (.call (.enter "hipFree" 5) 40), .shutdown,
        .report none (.batch [.ofOp 9 .copy 41 42])]
    let e := (c.after dealings).session.engine
    let g := s.engine.activityFilter
    e.Balances g (receipts g (c.dealt dealings)) ∧
      receipts g (c.dealt dealings) = { exited := 1, anomalies := 1, looked := 2, discarded := 1 } ∧
      e.calls.missingRecords = 1 ∧ e.calls.exits = 3 := by
  obtain ⟨s, built⟩ : ∃ s, build { standardExclusions := false } {} (.constant 0) none (some {})
    (some {}) = .ok s := ⟨_, rfl⟩
  refine ⟨s, built, ?_⟩
  intro c
  have balances : ∀ dealings, (c.after dealings).session.engine.Balances s.engine.activityFilter
      (receipts s.engine.activityFilter (c.dealt dealings)) := fun dealings =>
    (accounts_balance built s.engine.work.turns c.contexts dealings).1
  intro dealings e g
  refine ⟨balances dealings, ?_⟩
  cases built
  decide +kernel

end Session

end SpanWeave
