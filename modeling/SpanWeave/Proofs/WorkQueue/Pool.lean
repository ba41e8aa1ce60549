import Mathlib.Logic.Function.Basic
import SpanWeave.Proofs.WorkQueue.Moments

set_option autoImplicit false

/-!
# Threads one step at a time

A queue with workers, taken apart into what its threads do on their own. One of them, the driver,
hands in jobs from outside and flushes; each worker runs what comes through its own channel, in
order, and what a job hands in meanwhile goes to the channels too. A thread that hands in a job
first takes it into account and only then sends it, and whatever the others do may come in between.
Any thread may take its next step at any time.

The queue that keeps account is the one that jobs are handed in to elsewhere; it is not stopped, and
nothing waits in it, since what waits is in the channels.
-/
namespace SpanWeave
variable {α : Type}

def WorkQueue.address (q : WorkQueue α) (owner : Option ThreadId) (j : Job α) : Parcel α :=
  ⟨owner, match owner with | some o => q.laneOf o | none => q.spawned % q.workers, j⟩

theorem WorkQueue.waiting_enqueue (q : WorkQueue α) (owner : Option ThreadId) (j : Job α) :
    (q.enqueue owner j).waiting = q.waiting ++ [q.address owner j] := by
  cases owner <;> rfl

theorem WorkQueue.laneOf_eq (q : WorkQueue α) (owner : ThreadId) :
    q.laneOf owner = owner.toNat % q.workers := by
  unfold WorkQueue.laneOf
  split
  · rename_i none
    rw [none, Nat.mod_zero]
  · rfl

namespace Pool

/-- A job on its way to a worker; the numbers tell apart what was sent. -/
structure Letter (α : Type) where
  number : Nat
  parcel : Parcel α

inductive Message (α : Type) where
  | run (letter : Letter α)
  | barrier

namespace Message

def letter? : Message α → Option (Letter α)
  | run letter => some letter
  | barrier => none

def isBarrier : Message α → Bool
  | run _ => false
  | barrier => true

end Message

/-- What a thread has still to hand in, and what it is about to send. -/
structure Outbox (α : Type) where
  left : Script α := .done
  draft : Option (Parcel α) := none

inductive Flushing where
  | no
  | waiting (owner : ThreadId)
  | through (owner : ThreadId)

def Flushing.acknowledged : Flushing → Flushing
  | waiting owner => through owner
  | other => other

inductive Stage where
  | sends
  | starts
  | finishes
  deriving DecidableEq

/-- What happens in one step: the driver begins to submit or to spawn, or puts a barrier into a
channel; a job is taken into account; one is sent, starts or is done; a worker comes to a barrier; a
flush returns. -/
inductive Event (α : Type) where
  | asks (request : Request α)
  | accounts
  | deals (stage : Stage) (letter : Letter α)
  | acknowledges (lane : Nat)
  | returns (owner : ThreadId)

end Pool

open Pool in
/-- The threads and the channels between them. The outbox of `none` is the driver's. -/
structure Pool (α : Type) where
  books : WorkQueue α
  sent : Nat := 0
  channel : Nat → List (Message α) := fun _ => []
  /-- The job that a worker runs. -/
  hand : Nat → Option (Letter α) := fun _ => none
  outbox : Option Nat → Outbox α := fun _ => {}
  flushing : Flushing := .no

namespace Pool

def fresh (workers : Nat) (warnAbove : Option Nat) : Pool α := { books := { workers, warnAbove } }

structure Ready (s : Pool α) : Prop where
  outbox : s.outbox none = {}
  flushing : s.flushing = .no

def write (s : Pool α) (thread : Option Nat) (outbox : Outbox α) : Pool α :=
  { s with outbox := Function.update s.outbox thread outbox }

def post (s : Pool α) (lane : Nat) (message : Message α) : Pool α :=
  { s with channel := Function.update s.channel lane (s.channel lane ++ [message]) }

theorem prefix_post (s : Pool α) (lane : Nat) (message : Message α) (w : Nat) :
    s.channel w <+: (s.post lane message).channel w := by
  by_cases here : w = lane
  · subst here
    simp [post]
  · simp [post, here]

inductive Step : Pool α → Event α → Pool α → Prop
  | submit {s : Pool α} (ready : s.Ready) (owner : ThreadId) (j : Job α) :
    Step s (.asks (.submit owner j))
      (s.write none { left := .job (some owner) j.effect j.followUps j.fails .done })
  | spawn {s : Pool α} (ready : s.Ready) (j : Job α) :
    Step s (.asks (.spawn j))
      (s.write none { left := .job none j.effect j.followUps j.fails .done })
  | flush {s : Pool α} (ready : s.Ready) (owner : ThreadId) :
    Step s (.asks (.flush owner))
      { s.post (s.books.laneOf owner) .barrier with flushing := .waiting owner }
  | account {s : Pool α} {thread : Option Nat} {owner : Option ThreadId} {effect : α}
      {followUps rest : Script α} {fails : Bool}
      (next : s.outbox thread = { left := .job owner effect followUps fails rest }) :
    Step s .accounts
      { s.write thread { left := rest,
                         draft := s.books.account.address owner ⟨effect, followUps, fails⟩ } with
        books := (s.books.account.enqueue owner ⟨effect, followUps, fails⟩).holding [] }
  | send {s : Pool α} {thread : Option Nat} {left : Script α} {p : Parcel α}
      (next : s.outbox thread = { left, draft := some p }) :
    Step s (.deals .sends ⟨s.sent, p⟩)
      { (s.post p.lane (.run ⟨s.sent, p⟩)).write thread { left } with sent := s.sent + 1 }
  | start {s : Pool α} {lane : Nat} {letter : Letter α} {rest : List (Message α)}
      (idle : s.hand lane = none) (first : s.channel lane = .run letter :: rest) :
    Step s (.deals .starts letter)
      { s.write (some lane) { left := letter.parcel.job.followUps } with
        books := s.books.start letter.parcel.job.effect
        channel := Function.update s.channel lane rest
        hand := Function.update s.hand lane (some letter) }
  | finish {s : Pool α} {lane : Nat} {letter : Letter α} (held : s.hand lane = some letter)
      (all : s.outbox (some lane) = {}) :
    Step s (.deals .finishes letter)
      { s with
        books := s.books.finish letter.parcel.job.fails
        hand := Function.update s.hand lane none }
  | acknowledge {s : Pool α} {lane : Nat} {rest : List (Message α)}
      (idle : s.hand lane = none) (first : s.channel lane = .barrier :: rest) :
    Step s (.acknowledges lane)
      { s with
        channel := Function.update s.channel lane rest
        flushing := s.flushing.acknowledged }
  | return {s : Pool α} {owner : ThreadId} (through : s.flushing = .through owner) :
    Step s (.returns owner) { s with flushing := .no }

inductive Run (first : Pool α) : List (Event α) → Pool α → Prop
  | nil : Run first [] first
  | concat {t : List (Event α)} {s s' : Pool α} {e : Event α} :
    Run first t s → Step s e s' → Run first (t ++ [e]) s'

/-! ## What happened -/

def Event.letter? (stage : Stage) : Event α → Option (Letter α)
  | .deals d letter => if d = stage then some letter else none
  | _ => none

def Event.runs (P : Letter α → Bool) : Event α → Bool
  | .deals .starts letter | .deals .finishes letter => P letter
  | _ => false

def dealt (stage : Stage) (t : List (Event α)) : List (Letter α) := t.filterMap (·.letter? stage)

def letters (stage : Stage) (P : Letter α → Bool) (t : List (Event α)) : List (Letter α) :=
  (dealt stage t).filter P

def runs (P : Letter α → Bool) (t : List (Event α)) : List (Event α) := t.filter (·.runs P)

def Letter.whole (l : Letter α) : List (Event α) := [.deals .starts l, .deals .finishes l]

def inLane (lane : Nat) (l : Letter α) : Bool := l.parcel.lane == lane

def ofOwner (owner : ThreadId) (l : Letter α) : Bool := l.parcel.owner == some owner

def numbered (n : Nat) (l : Letter α) : Bool := l.number == n

section Traces
variable (stage : Stage) (P : Letter α → Bool) (t : List (Event α)) (e : Event α)

theorem dealt_concat : dealt stage (t ++ [e]) = dealt stage t ++ (e.letter? stage).toList := by
  rw [dealt, List.filterMap_append]
  cases read : e.letter? stage <;> simp [dealt, read]

theorem letters_concat :
    letters stage P (t ++ [e]) = letters stage P t ++ (e.letter? stage).toList.filter P := by
  rw [letters, dealt_concat, List.filter_append]
  rfl

theorem runs_concat : runs P (t ++ [e]) = runs P t ++ if e.runs P then [e] else [] := by
  rw [runs, List.filter_append]
  cases told : e.runs P <;> simp [runs, told]

variable {stage P t}

theorem mem_letters {l : Letter α} :
    l ∈ letters stage P t ↔ l ∈ dealt stage t ∧ P l = true :=
  List.mem_filter

end Traces

end Pool

end SpanWeave
