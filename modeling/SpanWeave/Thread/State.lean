import SpanWeave.Thread.Laps

set_option autoImplicit false

/-!
# The state of a thread

The calls that a thread has open, the lap counters of the operations drained on it, and the begin
times of its open untracked calls.
-/
namespace SpanWeave

structure OpenCall where
  identity : Identity
  beganAt : Nanos
  deriving DecidableEq, Repr, Inhabited

structure ThreadState where
  thread : ThreadId
  /-- Innermost call first. -/
  calls : List OpenCall := []
  laps : Laps := {}
  /-- Begin times of open untracked calls, innermost first. -/
  untracked : List Nanos := []

namespace ThreadState

def start (thread : ThreadId) (retention : LapRetention) : ThreadState :=
  { thread, laps := { retention } }

def current? (t : ThreadState) : Option Identity := t.calls.head?.map (·.identity)

def depth (t : ThreadState) : Nat := t.calls.length

def nextIdentity (t : ThreadState) (ids : SpanIds) : Identity × SpanIds :=
  let (span, ids) := ids.next
  match t.current? with
  | some parent => (Identity.child span parent, ids)
  | none => (Identity.root span, ids)

def push (t : ThreadState) (ids : SpanIds) (time : Nanos) : Identity × ThreadState × SpanIds :=
  let (identity, ids) := t.nextIdentity ids
  (identity, { t with calls := ⟨identity, time⟩ :: t.calls }, ids)

/-- Closes the call `span` and the calls inside it; nothing happens when it is not open. -/
def pop? (t : ThreadState) (span : SpanId) : Option (OpenCall × ThreadState) :=
  match t.calls.dropWhile (·.identity.span != span) with
  | [] => none
  | call :: calls => some (call, { t with calls })

def popTop? (t : ThreadState) : Option (OpenCall × ThreadState) :=
  match t.calls with
  | [] => none
  | call :: calls => some (call, { t with calls })

@[simp] theorem span_nextIdentity (t : ThreadState) (ids : SpanIds) :
    (t.nextIdentity ids).1.span = ids.allocated + 1 := by
  unfold nextIdentity
  cases t.current? <;> rfl

@[simp] theorem parent_nextIdentity (t : ThreadState) (ids : SpanIds) :
    (t.nextIdentity ids).1.parent = t.current?.map (·.span) := by
  unfold nextIdentity
  cases t.current? <;> rfl

@[simp] theorem allocated_nextIdentity (t : ThreadState) (ids : SpanIds) :
    (t.nextIdentity ids).2.allocated = ids.allocated + 1 := by
  unfold nextIdentity
  cases t.current? <;> rfl

@[simp] theorem calls_push (t : ThreadState) (ids : SpanIds) (time : Nanos) :
    (t.push ids time).2.1.calls = ⟨(t.nextIdentity ids).1, time⟩ :: t.calls := rfl

/-- What `pop?` takes away: the call, the innermost one with its span, and all inside it. -/
theorem pop?_eq_some {t rest : ThreadState} {span : SpanId} {call : OpenCall}
    (h : t.pop? span = some (call, rest)) :
    ∃ inner, t.calls = inner ++ call :: rest.calls ∧ rest = { t with calls := rest.calls } ∧
      call.identity.span = span ∧ ∀ c ∈ inner, c.identity.span ≠ span := by
  unfold pop? at h
  split at h
  · cases h
  · rename_i calls found
    cases h
    refine ⟨t.calls.takeWhile (·.identity.span != span), ?_, rfl, ?_, fun c member => ?_⟩
    · rw [← found, List.takeWhile_append_dropWhile]
    · have stopped := List.head?_dropWhile_not (fun c : OpenCall => c.identity.span != span) t.calls
      rw [found] at stopped
      simpa using stopped
    · simpa using List.all_eq_true.mp List.all_takeWhile c member

theorem pop?_eq_none {t : ThreadState} {span : SpanId} (h : t.pop? span = none) :
    ∀ c ∈ t.calls, c.identity.span ≠ span := by
  unfold pop? at h
  split at h
  · rename_i none
    intro c member
    have all := List.takeWhile_append_dropWhile
      (p := fun c : OpenCall => c.identity.span != span) (l := t.calls)
    rw [none, List.append_nil] at all
    rw [← all] at member
    simpa using List.all_eq_true.mp List.all_takeWhile c member
  · cases h

def nextLap (t : ThreadState) (id : CorrelationId) : Nat × ThreadState :=
  let (lap, laps) := t.laps.next id
  (lap, { t with laps })

def pushUntracked (t : ThreadState) (time : Nanos) : ThreadState :=
  { t with untracked := time :: t.untracked }

def popUntracked? (t : ThreadState) : Option (Nanos × ThreadState) :=
  match t.untracked with
  | [] => none
  | time :: untracked => some (time, { t with untracked })

end ThreadState

end SpanWeave
