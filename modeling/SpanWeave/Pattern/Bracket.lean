import SpanWeave.Pattern.Escape

set_option autoImplicit false

/-!
# Classes in brackets

The members of a class are characters, ranges, named classes and classes in brackets of their own;
intersections and differences bind from left to right. With each set comes how deeply the parts of
its text are nested, which is bounded.
-/
namespace SpanWeave.Pattern

def nestLimit : Nat := 250

structure SetPart where
  set : CharSet
  depth : Nat

/-- The members of a class read so far: their number, what they hold and their greatest depth. -/
structure Members where
  count : Nat := 0
  ranges : List (Nat × Nat) := []
  depth : Nat := 0

namespace Members

def add (ms : Members) (p : SetPart) : Members :=
  ⟨ms.count + 1, p.set.ranges ++ ms.ranges, max ms.depth p.depth⟩

def part (ms : Members) : SetPart :=
  ⟨.ofRanges ms.ranges, if ms.count ≤ 1 then ms.depth else ms.depth + 1⟩

end Members

inductive ClassOp where
  | inter
  | difference
  | symmetricDifference

def ClassOp.apply (op : ClassOp) (s t : CharSet) : CharSet :=
  match op with
  | inter => s.inter t
  | difference => s.difference t
  | symmetricDifference => s.symmetricDifference t

def classOp? : List Char → Option (ClassOp × List Char)
  | '&' :: '&' :: s => some (.inter, s)
  | '-' :: '-' :: s => some (.difference, s)
  | '~' :: '~' :: s => some (.symmetricDifference, s)
  | _ => none

/-- What stands before the last operator, and that operator. -/
abbrev Pending := Option (SetPart × ClassOp)

def Pending.apply (pending : Pending) (m : Mode) (right : SetPart) : SetPart :=
  match pending with
  | none => right
  | some (left, op) =>
    ⟨op.apply (m.fold left.set) (m.fold right.set), max left.depth right.depth + 1⟩

def classItem (m : Mode) : List Char → Option (Escape × List Char)
  | [] => none
  | '\\' :: s =>
    match escape m s with
    | some (.anchor _, _) => none
    | r => r
  | c :: s => some (.char c, s)

def classRange (m : Mode) (s : List Char) : Option (CharSet × List Char) := do
  let (item, s) ← classItem m s
  let s := m.skip s
  let alone : Option (CharSet × List Char) := match item with
    | .char c => (m.range? c c).map (·, s)
    | .set set => some (set, s)
    | .anchor _ => none
  match s with
  | '-' :: t =>
    if m.afterHyphen? t = some ']' ∨ m.afterHyphen? t = some '-' then alone
    else
      match item, ← classItem m (m.skip t) with
      | .char lo, (.char hi, t) => (m.range? lo hi).map (·, t)
      | _, _ => none
  | _ => alone

/-- A class named between brackets and colons, the first bracket having been read; `none` where the
bracket begins a class of its own. -/
def namedClass? (s : List Char) : Option (Bool × CharSet × List Char) :=
  match s with
  | ':' :: s =>
    let (negated, s) := match s with
      | '^' :: s => (true, s)
      | s => (false, s)
    match s.dropWhile (· != ':') with
    | ':' :: ']' :: rest =>
      (namedClasses.lookup (String.ofList (s.takeWhile (· != ':')))).map (negated, ·, rest)
    | _ => none
  | _ => none

def leadingHyphens (m : Mode) : Nat → Members → List Char → Members × List Char
  | fuel + 1, ms, '-' :: s => leadingHyphens m fuel (ms.add ⟨.single '-', 0⟩) (m.skip s)
  | _, ms, s => (ms, s)

def classStart (m : Mode) (s : List Char) : Bool × Members × List Char :=
  let s := m.skip s
  let (negated, s) := match s with
    | '^' :: s => (true, m.skip s)
    | s => (false, s)
  match s with
  | ']' :: s => (negated, Members.add {} ⟨.single ']', 0⟩, s)
  | s => (negated, leadingHyphens m s.length {} s)

/-- The members of a class up to its bracket, of a class that is nested in so many others. -/
def classBody : Nat → Mode → Nat → Bool → Pending → Members → List Char →
    Option (SetPart × List Char)
  | 0, _, _, _, _, _, _ => none
  | fuel + 1, m, level, negated, pending, members, s =>
    let s := m.skip s
    match classOp? s, s with
    | some (op, s), _ =>
      classBody fuel m level negated (some (pending.apply m members.part, op)) {} s
    | none, [] => none
    | none, ']' :: s => do
      let part := pending.apply m members.part
      some (⟨← m.close? negated part.set, part.depth + 1⟩, s)
    | none, '[' :: s =>
      match namedClass? s with
      | some (excluded, set, s) => do
        let set ← m.close? excluded set
        classBody fuel m level negated pending (members.add ⟨set, 0⟩) s
      | none =>
        if nestLimit ≤ level then none
        else do
          let (inner, first, s) := classStart m s
          let (part, s) ← classBody fuel m (level + 1) inner none first s
          classBody fuel m level negated pending (members.add part) s
    | none, s => do
      let (set, s) ← classRange m s
      classBody fuel m level negated pending (members.add ⟨set, 0⟩) s

def bracketed (m : Mode) (s : List Char) : Option (SetPart × List Char) :=
  let (negated, first, s) := classStart m s
  classBody (s.length + 1) m 0 negated none first s

end SpanWeave.Pattern
