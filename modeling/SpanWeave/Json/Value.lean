set_option autoImplicit false

/-!
# JSON values

The tree that a JSON text denotes. Object members keep their order and their repetitions, since a
record may not give one field twice. Of a number that is not an integer token only its being there
is kept: no field of a record takes one. A text that is well-formed but denotes nothing (half a
surrogate pair, a number beyond the doubles) is `garbled`: it may be skipped but not read.
-/
namespace SpanWeave.Json

inductive Value where
  | null
  | bool (b : Bool)
  | integer (i : Int)
  | real
  | text (s : String)
  | array (items : List Value)
  | object (members : List (String × Value))
  | garbled
  deriving Repr, BEq, Inhabited

namespace Value

def ofNat (n : Nat) : Value := .integer n

mutual
def depth : Value → Nat
  | .array items => 1 + depthOfItems items
  | .object members => 1 + depthOfMembers members
  | _ => 0

def depthOfItems : List Value → Nat
  | [] => 0
  | v :: vs => max v.depth (depthOfItems vs)

def depthOfMembers : List (String × Value) → Nat
  | [] => 0
  | m :: ms => max (depthOfMember m) (depthOfMembers ms)

def depthOfMember : String × Value → Nat
  | (_, v) => v.depth
end

mutual
/-- Nothing in the tree is garbled. -/
def isSound : Value → Bool
  | .array items => soundItems items
  | .object members => soundMembers members
  | .garbled => false
  | _ => true

def soundItems : List Value → Bool
  | [] => true
  | v :: vs => v.isSound && soundItems vs

def soundMembers : List (String × Value) → Bool
  | [] => true
  | m :: ms => soundMember m && soundMembers ms

def soundMember : String × Value → Bool
  | (_, v) => v.isSound
end

end Value

end SpanWeave.Json
