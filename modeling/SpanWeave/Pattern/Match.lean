import SpanWeave.Pattern.Syntax

set_option autoImplicit false

/-!
# Matching

The places of a text are numbered from its start. A set of places is a number whose bits say which
places are in it, and a pattern is read as a map from the places where matches may begin to those
where they may end. A pattern matches a text when a match that begins anywhere ends somewhere.
-/
namespace SpanWeave

structure Place where
  before : Option Char
  after : Option Char
  deriving DecidableEq, Repr, Inhabited

namespace Place

def all (cs : List Char) : List Place :=
  List.zipWith Place.mk (none :: cs.map some) (cs.map some ++ [none])

def isBefore (p : Place) (s : CharSet) : Bool := p.before.any s.contains

def isAfter (p : Place) (s : CharSet) : Bool := p.after.any s.contains

end Place

namespace Anchor

def holds (p : Place) : Anchor → Bool
  | textStart => p.before.isNone
  | textEnd => p.after.isNone
  | lineStart false => p.before.all (· == '\n')
  | lineStart true => p.before.all (· == '\n') || (p.before == some '\r' && p.after != some '\n')
  | lineEnd false => p.after.all (· == '\n')
  | lineEnd true => p.after.all (· == '\r') || (p.after == some '\n' && p.before != some '\r')
  | boundary words => p.isBefore words != p.isAfter words
  | noBoundary words => p.isBefore words == p.isAfter words
  | edge words begins => p.isBefore words != begins && p.isAfter words == begins
  | before words present => p.isBefore words == present
  | after words present => p.isAfter words == present

end Anchor

def placesWhere (property : Place → Bool) (places : List Place) : Nat :=
  places.foldr (fun p bits => (property p).toNat + 2 * bits) 0

/-- A pattern against one text: which places may be passed, and behind which a character may be
read. -/
inductive Route where
  | stay (places : Nat)
  | move (places : Nat)
  | seq (r s : Route)
  | fork (r s : Route)
  | repeated (least : Nat) (most : Option Nat) (r : Route)
  deriving DecidableEq, Repr, Inhabited

namespace Route

def iterate (step : Nat → Nat) : Nat → Nat → Nat
  | 0, places => places
  | n + 1, places =>
    let next := step places
    if next = places then places else iterate step n next

/-- The places reached from the fresh ones among them in at most so many further rounds. -/
def spread (step : Nat → Nat) : Nat → Nat → Nat → Nat
  | 0, reached, _ => reached
  | rounds + 1, reached, fresh =>
    let found := reached ||| step fresh
    if found = reached then reached else spread step rounds found (found ^^^ reached)

/-- The places where matches may end that begin at one of the given places, of `count` places. -/
def reach (count : Nat) : Route → Nat → Nat
  | stay places, starts => starts &&& places
  | move places, starts => (starts &&& places) <<< 1
  | seq r s, starts => s.reach count (r.reach count starts)
  | fork r s, starts => r.reach count starts ||| s.reach count starts
  | repeated least most r, starts =>
    let first := iterate (r.reach count) least starts
    spread (r.reach count) ((most.map (· - least)).getD count) first first

end Route

namespace Pattern

/-- The route through a text with the given places, behind which the sets have a character and at
which the conditions hold. -/
def route (places : Nat) (reads : List (CharSet × Nat)) (holds : List (Anchor × Nat)) :
    Pattern → Route
  | empty => .stay places
  | char set => .move ((reads.lookup set).getD 0)
  | anchor condition => .stay ((holds.lookup condition).getD 0)
  | concat p q => .seq (p.route places reads holds) (q.route places reads holds)
  | either p q => .fork (p.route places reads holds) (q.route places reads holds)
  | repeated least most p => .repeated least most (p.route places reads holds)
  | group p => p.route places reads holds

def matchesIn (p : Pattern) (s : String) : Bool :=
  let places := Place.all s.toList
  let everywhere := placesWhere (fun _ => true) places
  let reads := tabulate p.sets fun set => placesWhere (·.isAfter set) places
  let holds := tabulate p.anchors fun condition => placesWhere (condition.holds ·) places
  (p.route everywhere reads holds).reach places.length everywhere != 0

end Pattern

end SpanWeave
