set_option autoImplicit false

/-!
# Sets of characters

A set of characters is a list of ranges of code points, in increasing order and with a gap between
each and the next. The code points from `0xd800` to `0xdfff` are no characters: the ranges on both
sides of them touch.
-/
namespace SpanWeave

structure CharSet where
  ranges : List (Nat × Nat)
  deriving DecidableEq, Repr, Inhabited

namespace CharSet

def top : Nat := 0x10ffff

def after (n : Nat) : Nat := if n = 0xd7ff then 0xe000 else n + 1

def before (n : Nat) : Nat := if n = 0xe000 then 0xd7ff else n - 1

/-- Unites ranges that overlap or touch, of ranges in the order of their beginnings. -/
def joinFrom (lo hi : Nat) : List (Nat × Nat) → List (Nat × Nat)
  | [] => [(lo, hi)]
  | (lo', hi') :: rs =>
    if lo' ≤ after hi then joinFrom lo (max hi hi') rs else (lo, hi) :: joinFrom lo' hi' rs

def ofRanges (rs : List (Nat × Nat)) : CharSet :=
  match rs.mergeSort fun r s => r.1 ≤ s.1 with
  | [] => ⟨[]⟩
  | (lo, hi) :: rs => ⟨joinFrom lo hi rs⟩

def empty : CharSet := ⟨[]⟩

def range (lo hi : Char) : CharSet := ⟨[(lo.toNat, hi.toNat)]⟩

def single (c : Char) : CharSet := range c c

def ofChars (cs : List Char) : CharSet := ofRanges (cs.map fun c => (c.toNat, c.toNat))

def union (s t : CharSet) : CharSet :=
  if s.ranges.isEmpty then t else if t.ranges.isEmpty then s else ofRanges (s.ranges ++ t.ranges)

def gapsFrom (start : Nat) : List (Nat × Nat) → List (Nat × Nat)
  | [] => if start ≤ top then [(start, top)] else []
  | (lo, hi) :: rs =>
    if start < lo then (start, before lo) :: gapsFrom (after hi) rs else gapsFrom (after hi) rs

def complement (s : CharSet) : CharSet := ⟨gapsFrom 0 s.ranges⟩

def any : CharSet := complement empty

def inter (s t : CharSet) : CharSet := complement (union (complement s) (complement t))

def difference (s t : CharSet) : CharSet := inter s (complement t)

def symmetricDifference (s t : CharSet) : CharSet := difference (union s t) (inter s t)

def within (n : Nat) : List (Nat × Nat) → Bool
  | [] => false
  | (lo, hi) :: rs => lo ≤ n && (n ≤ hi || within n rs)

def contains (s : CharSet) (c : Char) : Bool := within c.toNat s.ranges

def isEmpty (s : CharSet) : Bool := s.ranges.isEmpty

def single? (s : CharSet) : Option Char :=
  match s.ranges with
  | [(lo, hi)] => if lo = hi then some (Char.ofNat lo) else none
  | _ => none

def isAscii (s : CharSet) : Bool := s.ranges.all fun r => r.2 < 0x80

end CharSet

end SpanWeave
