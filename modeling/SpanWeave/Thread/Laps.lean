import Std.Data.ExtTreeMap
import SpanWeave.Identity

set_option autoImplicit false

/-!
# Lap counters

How many device operations one correlation id has led to so far. The runtime uses an id again for
unrelated calls, so the counters of a long run can be bounded: then the one inserted first goes
first, whether it was used since or not.
-/
namespace SpanWeave

inductive LapRetention where
  | unbounded
  | bounded (entries : Nat)
  deriving DecidableEq, Repr, Inhabited

/-- The greatest lap that is counted; later ones repeat it. -/
def lapLimit : Nat := UInt32.size - 1

structure Laps where
  retention : LapRetention := .unbounded
  counts : Std.ExtTreeMap CorrelationId Nat := ∅
  /-- The counted ids, oldest first; kept under a bound only. -/
  order : List CorrelationId := []
  evicted : Nat := 0

namespace Laps

def evict (entries : Nat) : List CorrelationId → Std.ExtTreeMap CorrelationId Nat → Nat →
    List CorrelationId × Std.ExtTreeMap CorrelationId Nat × Nat
  | [], counts, evicted => ([], counts, evicted)
  | oldest :: order, counts, evicted =>
    if entries < counts.size then evict entries order (counts.erase oldest) (evicted + 1)
    else (oldest :: order, counts, evicted)

def insert (l : Laps) (id : CorrelationId) : Laps :=
  let counts := l.counts.insert id 1
  match l.retention with
  | .unbounded => { l with counts }
  | .bounded entries =>
    let (order, counts, evicted) := evict entries (l.order ++ [id]) counts l.evicted
    { l with counts, order, evicted }

/-- The ordinal of the next operation of `id`, starting with 1. -/
def next (l : Laps) (id : CorrelationId) : Nat × Laps :=
  match l.counts[id]? with
  | some lap =>
    let lap := min (lap + 1) lapLimit
    (lap, { l with counts := l.counts.insert id lap })
  | none => (1, l.insert id)

def size (l : Laps) : Nat := l.counts.size

end Laps

end SpanWeave
