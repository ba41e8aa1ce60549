import SpanWeave.Json.Value

set_option autoImplicit false

/-!
# Records in JSON

How a record with named fields is read. It may be an object, where unknown members are ignored and
a known one may come only once, or an array of the field values in order. A field left out is an
empty slot, which only a field with a default takes.
-/
namespace SpanWeave.Json

abbrev Slot := Option Value

def memberSlot (members : List (String × Value)) (name : String) : Option Slot :=
  match members.filter (·.1 == name) with
  | [] => some none
  | [(_, v)] => some (some v)
  | _ => none

def slots (names : List String) : Value → Option (List Slot)
  | .object members => names.mapM (memberSlot members)
  | .array items =>
    if items.length ≤ names.length then
      some (items.map some ++ List.replicate (names.length - items.length) none)
    else none
  | _ => none

def required {α : Type} (read : Value → Option α) (slot : Slot) : Option α := slot.bind read

def withDefault {α : Type} (default : α) (read : Value → Option α) : Slot → Option α
  | none => some default
  | some v => read v

def optional {α : Type} (read : Value → Option α) : Slot → Option (Option α)
  | none | some .null => some none
  | some v => (read v).map some

def natBelow (bound : Nat) : Value → Option Nat
  | .integer (.ofNat n) => if n < bound then some n else none
  | _ => none

def word32 (v : Value) : Option UInt32 := (natBelow UInt32.size v).map UInt32.ofNat

def word64 (v : Value) : Option UInt64 := (natBelow UInt64.size v).map UInt64.ofNat

def text : Value → Option String
  | .text s => some s
  | _ => none

def bool : Value → Option Bool
  | .bool b => some b
  | _ => none

def listOf {α : Type} (read : Value → Option α) : Value → Option (List α)
  | .array items => items.mapM read
  | _ => none

/-- Whether a value stands for "nothing more" behind the name of a case without data. Inside a
record that is buffered until its tag is known an empty object does so too. -/
def isUnit (buffered : Bool) : Value → Bool
  | .null => true
  | .object [] => buffered
  | _ => false

/-- One of several named cases without data: its name, or an object of its name alone. -/
def oneOf {α : Type} (buffered : Bool) (cases : List (String × α)) : Value → Option α
  | .text s => cases.lookup s
  | .object [(s, v)] => if isUnit buffered v then cases.lookup s else none
  | _ => none

def member? {α : Type} (name : String) (write : α → Value) : Option α → List (String × Value)
  | none => []
  | some a => [(name, write a)]

def orNull {α : Type} (write : α → Value) : Option α → Value
  | none => .null
  | some a => write a

def ofWord32 (n : UInt32) : Value := .ofNat n.toNat

def ofWord64 (n : UInt64) : Value := .ofNat n.toNat

end SpanWeave.Json
