import Std.Data.ExtTreeMap
import SpanWeave.Rounding

set_option autoImplicit false

/-!
# Durations by name

Samples of how long something took, added up under its name. In timeline scope every sample gets an
entry of its own, named with its number. Totals stop at the greatest number of 64 bits.
-/
namespace SpanWeave

structure Scope where
  timeline : Bool := false
  flat : Bool := false
  deriving DecidableEq, Repr, Inhabited

structure Tally where
  count : Nat
  total : Nat
  least : Nat
  greatest : Nat
  deriving DecidableEq, Repr, Inhabited

def totalLimit : Nat := UInt64.size - 1

namespace Tally

def ofSample (sample : Nat) : Tally := ⟨1, min sample totalLimit, sample, sample⟩

def add (t : Tally) (sample : Nat) : Tally :=
  ⟨t.count + 1, min (t.total + sample) totalLimit, min t.least sample, max t.greatest sample⟩

def mean (t : Tally) : Rounded := (Rounded.ofNat t.total).div (Rounded.ofNat t.count)

end Tally

structure Durations where
  table : Std.ExtTreeMap String Tally := ∅
  sequence : Nat := 0
  flatSamples : Nat := 0

namespace Durations

def sampleName (name : String) (sequence : Nat) : String := name ++ " [" ++ toString sequence ++ "]"

def record (d : Durations) (scope : Scope) (name : String) (sample : Nat) : Durations :=
  let key := if scope.timeline then sampleName name d.sequence else name
  { table := d.table.alter key fun
      | none => some (Tally.ofSample sample)
      | some t => some (t.add sample)
    sequence := d.sequence + (if scope.timeline then 1 else 0)
    flatSamples := d.flatSamples + (if scope.flat then 1 else 0) }

def get? (d : Durations) (name : String) : Option Tally := d.table[name]?

/-- Greatest total first; names decide between equal totals. -/
def entries (d : Durations) : List (String × Tally) :=
  d.table.toList.mergeSort fun a b => b.2.total ≤ a.2.total

def heading : List String :=
  ["% time    total(ms)    mean(us)     min(us)     max(us)     calls name",
   "------ ------------ ----------- ----------- ----------- --------- ----------------"]

def row (grandTotal : Nat) (name : String) (t : Tally) : String :=
  let thousand := Rounded.ofNat 1000
  let column (width : Nat) (x : Rounded) : String := Text.padLeft width (x.fixed 3)
  Text.padLeft 6 ((Rounded.percentage t.total grandTotal).fixed 2) ++ " " ++
    column 12 ((Rounded.ofNat t.total).div (Rounded.ofNat 1000000)) ++ " " ++
    column 11 (t.mean.div thousand) ++ " " ++
    column 11 ((Rounded.ofNat t.least).div thousand) ++ " " ++
    column 11 ((Rounded.ofNat t.greatest).div thousand) ++ " " ++
    Text.padLeft 9 (toString t.count) ++ " " ++ name

def summary (d : Durations) : String :=
  match d.entries with
  | [] => "No durations recorded.\n"
  | entries =>
    let grandTotal := (entries.map fun (_, t) => t.total).foldr (· + ·) 0
    String.join ((heading ++ entries.map fun (name, t) => row grandTotal name t).map (· ++ "\n"))

end Durations

end SpanWeave
