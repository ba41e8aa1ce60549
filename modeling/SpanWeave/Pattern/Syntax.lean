import SpanWeave.Pattern.CharSet

set_option autoImplicit false

/-!
# Patterns

Conditions on a place in a text, and the patterns made of them and of sets of characters. A place
lies between two characters, at the start or at the end. Patterns are built in a plain form: nothing
empty stands in a sequence, a choice between single characters is a set, and what can match only the
empty text is not repeated.
-/
namespace SpanWeave

inductive Anchor where
  | textStart
  | textEnd
  /-- Behind a line feed or at the start; with `returns` carriage returns end a line too. -/
  | lineStart (returns : Bool)
  | lineEnd (returns : Bool)
  /-- Whether words begin or end here, by the given characters of words. -/
  | boundary (words : CharSet)
  | noBoundary (words : CharSet)
  /-- A word begins here, or ends here. -/
  | edge (words : CharSet) (begins : Bool)
  /-- The character before is of a word, or not. -/
  | before (words : CharSet) (present : Bool)
  /-- The character after is of a word, or not. -/
  | after (words : CharSet) (present : Bool)
  deriving DecidableEq, Repr, Inhabited

inductive Pattern where
  | empty
  | char (set : CharSet)
  | anchor (condition : Anchor)
  | concat (p q : Pattern)
  | either (p q : Pattern)
  /-- At least `least` and at most `most` times, if there is an upper bound. -/
  | repeated (least : Nat) (most : Option Nat) (p : Pattern)
  /-- A part whose text is remembered. -/
  | group (p : Pattern)
  deriving DecidableEq, Repr, Inhabited

namespace Pattern

def isNull : Pattern → Bool
  | empty | anchor _ => true
  | char _ => false
  | concat p q | either p q => p.isNull && q.isNull
  | repeated _ _ p | group p => p.isNull

/-- The least number of characters of a match; `none` if a set without members is needed. -/
def leastLength? : Pattern → Option Nat
  | empty | anchor _ => some 0
  | char set => if set.isEmpty then none else some 1
  | concat p q => do some ((← p.leastLength?) + (← q.leastLength?))
  | either p q => do some (min (← p.leastLength?) (← q.leastLength?))
  | repeated least _ p => p.leastLength?.map (least * ·)
  | group p => p.leastLength?

def followedBy : Pattern → Pattern → Pattern
  | empty, q => q
  | p, empty => p
  | p, q => concat p q

def sequence (ps : List Pattern) : Pattern := ps.foldr followedBy empty

def branches : Pattern → List Pattern
  | either p q => p.branches ++ q.branches
  | p => [p]

def set? : Pattern → Option CharSet
  | char set => some set
  | _ => none

/-- One of several patterns, of which there is at least one; a set, if they are all sets. -/
def choice (p : Pattern) (ps : List Pattern) : Pattern :=
  match ((p :: ps).flatMap branches).mapM set? with
  | some sets => char (.ofRanges (sets.flatMap (·.ranges)))
  | none => ps.foldl either p

/-- Repeats a pattern, which is never needed more than once if it can match only the empty text. -/
def times (least : Nat) (most : Option Nat) (p : Pattern) : Pattern :=
  let least := if p.isNull then min least 1 else least
  let most := if p.isNull then some (min (most.getD 1) 1) else most
  if most = some 0 then empty
  else if least = 1 ∧ most = some 1 then p
  else repeated least most p

def literal? : Pattern → Option (List Char)
  | char set => set.single?.map ([·])
  | concat p q => do some ((← p.literal?) ++ (← q.literal?))
  | _ => none

def literals? : Pattern → Option (List (List Char))
  | either p q => do some ((← p.literals?) ++ (← q.literals?))
  | p => p.literal?.map ([·])

def sets : Pattern → List CharSet
  | empty | anchor _ => []
  | char set => [set]
  | concat p q | either p q => p.sets ++ q.sets
  | repeated _ _ p | group p => p.sets

def anchors : Pattern → List Anchor
  | empty | char _ => []
  | anchor condition => [condition]
  | concat p q | either p q => p.anchors ++ q.anchors
  | repeated _ _ p | group p => p.anchors

def tabulate {α : Type} [BEq α] (keys : List α) (f : α → Nat) : List (α × Nat) :=
  keys.eraseDups.map fun k => (k, f k)

def beginsWith (a : Anchor) : Pattern → Bool
  | anchor condition => condition == a
  | concat p q => p.beginsWith a || (p.isNull && q.beginsWith a)
  | either p q => p.beginsWith a && q.beginsWith a
  | repeated least _ p => least != 0 && p.beginsWith a
  | group p => p.beginsWith a
  | empty | char _ => false

def endsWith (a : Anchor) : Pattern → Bool
  | anchor condition => condition == a
  | concat p q => q.endsWith a || (q.isNull && p.endsWith a)
  | either p q => p.endsWith a && q.endsWith a
  | repeated least _ p => least != 0 && p.endsWith a
  | group p => p.endsWith a
  | empty | char _ => false

end Pattern

end SpanWeave
