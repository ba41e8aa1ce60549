import SpanWeave.Proofs.Engine.Samples
import SpanWeave.Proofs.Replay.Launches
import SpanWeave.Proofs.Thread.Stack

set_option autoImplicit false

/-!
# Begins

The samples that a history leaves, one for each span that it ends. How long a call took is known
from the answer that entered it, how long an untracked call took from the stack of begins that the
thread's untracked calls amount to, and how long work on a device took from its completion.
-/
namespace SpanWeave

def untrackedBegins (thread : ThreadId) (past : List Answer) : List Nanos :=
  past.foldl (fun begins a =>
    if a.thread = thread ∧ a.call.domain = .untracked ∧ a.outcome ≠ .filtered then
      match a.call.phase with
      | .enter => a.time :: begins
      | .exit => begins.tail
    else begins) []

/-- The sample that a happening leaves after the calls before it, if it leaves one. -/
inductive Happening.Leaves (filter : NameFilter) (offset : Int) (before : List Answer) :
    Happening → Option Sample → Prop
  /-- The exit has ended the call that `enter` entered; the name is that of the exit. -/
  | exited {a enter : Answer} {identity : Identity} (outcome : a.outcome = .exited identity)
      (member : enter ∈ before) (entered : enter.Numbers identity.span)
      (only : ∀ b ∈ before, b.Numbers identity.span → b = enter) (same : enter.thread = a.thread)
      (ordered : enter.time ≤ a.time) :
      Leaves filter offset before (.call a) (some (a.call.name, a.time - enter.time))
  | leaf {a : Answer} {identity : Identity} {beganAt : Nanos} {others : List Nanos}
      (outcome : a.outcome = .untracked identity)
      (opened : untrackedBegins a.thread before = beganAt :: others)
      (ordered : a.call.name = Engine.shutdownCall ∨ beganAt ≤ a.time) :
      Leaves filter offset before (.call a) (some (a.call.name,
        if a.call.name = Engine.shutdownCall then 0 else a.time - beganAt))
  /-- The completion has the last call with its id behind it. -/
  | launched {thread : ThreadId} {c : Completion} {launch : CallRecord} {op : DeviceOp}
      (known : registered filter before c.correlation = some launch)
      (supported : c.op? = some op)
      (ordered : shiftTime c.beginsAt.toNat offset < shiftTime c.endsAt.toNat offset) :
      Leaves filter offset before (.completion thread c (.emitted false))
        (some (if launch.name = "" then c.ownName op else launch.name,
          shiftTime c.endsAt.toNat offset - shiftTime c.beginsAt.toNat offset))
  | call {a : Answer} (exited : ∀ identity, a.outcome ≠ .exited identity)
      (untracked : ∀ identity, a.outcome ≠ .untracked identity) :
      Leaves filter offset before (.call a) none
  | completion {thread : ThreadId} {c : Completion} {d : Disposition}
      (other : d ≠ .emitted false) :
      Leaves filter offset before (.completion thread c d) none

theorem Happening.Leaves.unique {filter : NameFilter} {offset : Int} {before : List Answer}
    {h : Happening} {x y : Option Sample} (hx : h.Leaves filter offset before x)
    (hy : h.Leaves filter offset before y) : x = y := by
  cases hx with
  | exited outcome _ _ only =>
    cases hy with
    | exited outcome' member' entered' =>
      cases outcome.symm.trans outcome'
      rw [only _ member' entered']
    | leaf outcome' => cases outcome.symm.trans outcome'
    | call exited => exact absurd outcome (exited _)
  | leaf outcome opened =>
    cases hy with
    | exited outcome' => cases outcome.symm.trans outcome'
    | leaf _ opened' =>
      cases opened.symm.trans opened'
      rfl
    | call _ untracked => exact absurd outcome (untracked _)
  | launched known supported =>
    cases hy with
    | launched known' supported' =>
      cases known.symm.trans known'
      cases supported.symm.trans supported'
      rfl
    | completion other => exact absurd rfl other
  | call exited untracked =>
    cases hy with
    | exited outcome => exact absurd outcome (exited _)
    | leaf outcome => exact absurd outcome (untracked _)
    | call => rfl
  | completion other =>
    cases hy with
    | launched => exact absurd rfl other
    | completion => rfl

inductive Leave (filter : NameFilter) (offset : Int) :
    List Answer → List Happening → List Sample → Prop
  | nil {before : List Answer} : Leave filter offset before [] []
  | cons {before : List Answer} {h : Happening} {later : List Happening} {x : Option Sample}
      {samples : List Sample} (one : h.Leaves filter offset before x)
      (rest : Leave filter offset (before ++ answers [h]) later samples) :
      Leave filter offset before (h :: later) (x.toList ++ samples)

namespace Leave
variable {filter : NameFilter} {offset : Int} {before : List Answer}

theorem one {h : Happening} {x : Option Sample} (leaves : h.Leaves filter offset before x) :
    Leave filter offset before [h] x.toList := by
  have alone := cons leaves nil
  rw [List.append_nil] at alone
  exact alone

theorem unique {later : List Happening} {samples others : List Sample}
    (h : Leave filter offset before later samples) (k : Leave filter offset before later others) :
    samples = others := by
  induction h generalizing others with
  | nil =>
    cases k
    rfl
  | cons one rest ih =>
    cases k with
    | cons one' rest' => rw [one.unique one', ih rest']

theorem append {later more : List Happening} {samples others : List Sample}
    (h : Leave filter offset before later samples)
    (k : Leave filter offset (before ++ answers later) more others) :
    Leave filter offset before (later ++ more) (samples ++ others) := by
  induction h with
  | nil =>
    rw [answers, List.filterMap_nil, List.append_nil] at k
    exact k
  | @cons before h later x samples one rest ih =>
    rw [List.append_assoc]
    refine .cons one (ih ?_)
    rw [List.append_assoc, ← answers_append]
    exact k

end Leave

/-- What an event on the host does to the untracked calls that its thread has open. -/
theorem Engine.HostStep.untracked_eq {e e' : Engine} {t t' : ThreadState} {c : HostCall}
    {now : Nanos} {outcome : Outcome} (h : HostStep e t c now outcome t' e') :
    t'.untracked = if c.domain = .untracked ∧ outcome ≠ .filtered then
        match c.phase with
        | .enter => now :: t.untracked
        | .exit => t.untracked.tail
      else t.untracked := by
  have correlated : c.domain = .correlated → ¬ (c.domain = .untracked ∧ outcome ≠ .filtered) :=
    fun domain both => absurd (domain.symm.trans both.1) (by decide)
  cases h with
  | filtered => rw [if_neg fun both => both.2 rfl]
  | entered _ domain | exited _ domain | anomaly _ domain | stray _ domain | missing _ domain =>
    exact (if_neg (correlated domain)).symm
  | untrackedEnter _ domain phase =>
    rw [if_pos ⟨domain, nofun⟩, phase]
    rfl
  | untrackedStray _ domain phase opened | untrackedAnomaly _ domain phase opened
  | leaf _ domain phase opened =>
    rw [if_pos ⟨domain, nofun⟩, phase, opened]
    rfl

theorem untrackedBegins_append (thread : ThreadId) (past : List Answer) (a : Answer) :
    untrackedBegins thread (past ++ [a]) =
      if a.thread = thread ∧ a.call.domain = .untracked ∧ a.outcome ≠ .filtered then
        match a.call.phase with
        | .enter => a.time :: untrackedBegins thread past
        | .exit => (untrackedBegins thread past).tail
      else untrackedBegins thread past := by
  unfold untrackedBegins
  rw [List.foldl_append]
  rfl

namespace Replay

/-- The history tells when the calls that are open began, and what the registry has. -/
structure Begins (filter : NameFilter) (past : List Happening) (ts : ThreadId → ThreadState)
    (e : Engine) : Prop where
  numbered : Numbered filter past ts e
  registered : Registered filter past e
  untracked : ∀ thread, (ts thread).untracked = untrackedBegins thread (answers past)

theorem kept_begins (filter : NameFilter) : Kept (Begins filter) where
  background h quiet := ⟨(kept_numbered filter).background h.numbered quiet,
    h.registered.background quiet, h.untracked⟩
  host {past ts e thread now c outcome t e'} h known step := by
    refine ⟨(kept_numbered filter).host h.numbered known step, h.registered.host known step,
      fun other => ?_⟩
    rw [answers_append, answers_call, untrackedBegins_append, ← h.untracked]
    by_cases same : other = thread
    · subst same
      rw [Function.update_self, step.untracked_eq]
      simp only [true_and]
    · rw [Function.update_of_ne same, if_neg fun both => same both.1.symm]
  completion {past ts e thread offset c d t e'} h known step := by
    refine ⟨(kept_numbered filter).completion h.numbered known step,
      h.registered.completion step, fun other => ?_⟩
    rw [answers_append_completion, ← h.untracked]
    by_cases same : other = thread
    · subst same
      rw [Function.update_self]
      cases step <;> rfl
    · rw [Function.update_of_ne same]

theorem Fresh.begins {s : Settings} {r : Replay} (fresh : r.Fresh s) :
    Begins r.session.engine.callFilter [] r.threadState r.session.engine := by
  refine ⟨fresh.numbered, fresh.registered, fun thread => ?_⟩
  rw [fresh.threadState]
  rfl

namespace Begins
variable {filter : NameFilter} {past : List Happening} {ts : ThreadId → ThreadState}
  {e e' : Engine} {thread : ThreadId} {offset : Int}

/-- The sample that an event on the host tells is the one that its answer leaves. -/
theorem leaves_call (h : Begins filter past ts e) {a : Answer} {t : ThreadState}
    (step : Engine.HostStep e (ts a.thread) a.call a.time a.outcome t e') :
    Happening.Leaves filter offset (answers past) (.call a)
      (Engine.callSample? (ts a.thread) a.call a.time a.outcome) := by
  generalize outcome : a.outcome = result at step
  cases step with
  | @exited e₁ identity inner calls call _ _ _ _ _ opened same others ordered =>
    have held : call ∈ (ts a.thread).calls := by
      rw [opened]
      exact List.mem_append_right _ List.mem_cons_self
    obtain ⟨enter, member, opens⟩ := h.numbered.opened a.thread call held
    have numbers : enter.Numbers identity.span := same ▸ opens.numbers
    have sample : Engine.callSample? (ts a.thread) a.call a.time (.exited identity) =
        some (a.call.name, a.time - enter.time) := by
      rw [Engine.callSample?, ThreadState.pop?_of_split opened same others, opens.time]
      rfl
    rw [sample]
    exact .exited outcome member numbers
      (fun b other numbered => h.numbered.unique other member numbered numbers) opens.thread
      (opens.time ▸ ordered)
  | @leaf e₁ beganAt endsAt untracked _ _ _ opened ended ordered =>
    have sample : ∀ identity, Engine.callSample? (ts a.thread) a.call a.time (.untracked identity) =
        some (a.call.name,
          if a.call.name = Engine.shutdownCall then 0 else a.time - beganAt) := by
      intro identity
      rw [Engine.callSample?, opened, List.head?_cons, Option.map_some]
      split
      · rw [Nat.sub_self]
      · rfl
    have inTime : a.call.name = Engine.shutdownCall ∨ beganAt ≤ a.time := by
      split at ended
      · rename_i last
        exact .inl last
      · exact .inr (ended ▸ ordered)
    rw [sample]
    exact .leaf outcome ((h.untracked a.thread).symm.trans opened) inTime
  | filtered | entered | anomaly | stray | missing | untrackedEnter | untrackedStray
  | untrackedAnomaly =>
    exact .call (fun _ exited => by cases outcome.symm.trans exited)
      (fun _ untracked => by cases outcome.symm.trans untracked)

/-- The sample that a completion tells is the one that the calls before it determine. -/
theorem leaves_completion (h : Begins filter past ts e) {c : Completion} {d : Disposition}
    {t t' : ThreadState} (step : Engine.DrainStep e t offset c d t' e') :
    Happening.Leaves filter offset (answers past) (.completion thread c d)
      (e.launchSample? offset c d) := by
  cases step with
  | @launched op launch e' supported _ ordered known =>
    have found := h.registered.holds.lookupRecord c.correlation
    rw [known] at found
    have sample : e.launchSample? offset c (.emitted false) =
        some (if launch.name = "" then c.ownName op else launch.name,
          shiftTime c.endsAt.toNat offset - shiftTime c.beginsAt.toNat offset) := by
      rw [Engine.launchSample?, known, supported, ← Engine.deviceName_some]
      rfl
    rw [sample]
    exact .launched found.symm supported ordered
  | unsupported | filtered | anomaly | orphaned => exact .completion nofun

theorem leave_batch (h : Begins filter past ts e) (known : (ts thread).thread = thread)
    (ready : e.Ready) (cs : List Completion) :
    Leave filter offset (answers past) (e.completions offset cs (ts thread))
      (e.launchSamples offset cs (ts thread)) := by
  induction cs generalizing past ts e with
  | nil => exact .nil
  | cons c cs ih =>
    obtain ⟨step, ready'⟩ := Engine.drainOne_step ready (ts thread) offset c
    have after := (kept_begins filter).completion h known step
    have same : (Function.update ts thread (e.drainOne (ts thread) offset c).2.1 thread).thread =
        thread := by rw [Function.update_self, step.thread_eq, known]
    have later := ih after same ready'
    rw [Function.update_self, answers_append] at later
    rw [Engine.completions, known]
    exact .cons (h.leaves_completion step) later

end Begins

end Replay

end SpanWeave
