import SpanWeave.Pattern.Bracket
import SpanWeave.Pattern.Footprint

set_option autoImplicit false

/-!
# Reading patterns

The grammar of patterns over the characters that remain. Look-around, back-references and property
classes are not part of it. Each reader takes what it needs off the front and returns the rest; all
fuel counts characters, of which every step takes at least one.
-/
namespace SpanWeave.Pattern
open Text

def count (m : Mode) (s : List Char) : Option (Nat × List Char) :=
  let s := s.dropWhile isBlank
  let (ds, s) := m.takeUpTo Char.isDigit s.length s
  if ds.isEmpty ∨ UInt32.size ≤ ofDigits ds then none
  else
    match s with
    | c :: _ => some (ofDigits ds, if isBlank c then m.skip (s.dropWhile isBlank) else s)
    | [] => none

def counts (m : Mode) (s : List Char) : Option ((Nat × Option Nat) × List Char) := do
  let (least, s) ← count m (m.skip s)
  match s with
  | '\x7d' :: s => some ((least, some least), s)
  | ',' :: s =>
    match m.skip s with
    | '\x7d' :: s => some ((least, none), s)
    | s =>
      let (most, s) ← count m s
      match s with
      | '\x7d' :: s => if least ≤ most then some ((least, some most), s) else none
      | _ => none
  | _ => none

/-- Drops the question mark that makes a repetition prefer fewer rounds; it does not change what
matches. -/
def dropLazy : List Char → List Char
  | '?' :: s => s
  | s => s

def repetition? (m : Mode) : List Char → Option (Option ((Nat × Option Nat) × List Char))
  | '*' :: s => some (some ((0, none), dropLazy s))
  | '+' :: s => some (some ((1, none), dropLazy s))
  | '?' :: s => some (some ((0, some 1), dropLazy s))
  | '\x7b' :: s => some ((counts m s).map fun (n, s) => (n, dropLazy (m.skip s)))
  | _ => none

/-- The letters that set modes, up to the colon or parenthesis that ends them; whether it was a
colon is returned. -/
def modes (m : Mode) (seen : List Char) (value dangling : Bool) :
    List Char → Option (Mode × Bool × List Char)
  | [] => none
  | ':' :: s => if dangling then none else some (m, true, s)
  | ')' :: s => if dangling ∨ seen.isEmpty then none else some (m, false, s)
  | c :: s =>
    if seen.contains c then none
    else if c = '-' then modes m (c :: seen) false true s
    else do modes (← m.set? c value) (c :: seen) value false s

def isNameStart (c : Char) : Bool := c == '_' || CharSet.isLetter c

def isNameChar (c : Char) : Bool :=
  isNameStart c || CharSet.isNumber c || c == '.' || c == '[' || c == ']'

def groupName (taken : List (List Char)) (s : List Char) : Option (List Char × List Char) :=
  let name := s.takeWhile (· != '>')
  match name, s.dropWhile (· != '>') with
  | c :: cs, _ :: rest =>
    if isNameStart c ∧ cs.all isNameChar ∧ !taken.contains name then some (name, rest) else none
  | _, _ => none

inductive GroupStart where
  /-- A group that is read in a mode of its own, and whether its text is remembered. -/
  | group (m : Mode) (remembered : Bool)
  /-- Modes for the rest of the group around it. -/
  | mode (m : Mode)

def groupStart (m : Mode) (taken : List (List Char)) (s : List Char) :
    Option (GroupStart × List (List Char) × List Char) :=
  match m.skip s with
  | '?' :: 'P' :: '<' :: s => (groupName taken s).map fun (n, s) => (.group m true, n :: taken, s)
  | '?' :: '<' :: s => (groupName taken s).map fun (n, s) => (.group m true, n :: taken, s)
  | '?' :: s => do
    let (inner, isGroup, s) ← modes m [] true false s
    some (if isGroup then .group inner false else .mode inner, taken, s)
  | s => some (.group m true, taken, s)

structure Part where
  pattern : Pattern
  depth : Nat

def primitive (m : Mode) : List Char → Option (Part × List Char)
  | [] => none
  | '\\' :: s => (escape m s).map fun
    | (.char c, s) => (⟨.char (m.fold (.single c)), 0⟩, s)
    | (.set set, s) => (⟨.char set, 0⟩, s)
    | (.anchor a, s) => (⟨.anchor a, 0⟩, s)
  | '.' :: s => m.dot?.map fun set => (⟨.char set, 0⟩, s)
  | '^' :: s => some (⟨.anchor (if m.lines then .lineStart m.returns else .textStart), 0⟩, s)
  | '$' :: s => some (⟨.anchor (if m.lines then .lineEnd m.returns else .textEnd), 0⟩, s)
  | '[' :: s => (bracketed m s).map fun (part, s) => (⟨.char part.set, part.depth⟩, s)
  | c :: s => some (⟨.char (m.fold (.single c)), 0⟩, s)

/-- The parts of one alternative read so far, the last one first; `none` where only modes were
set. -/
abbrev Parts := List (Option Part)

def depthOf : List Nat → Nat
  | [depth] => depth
  | depths => if depths.isEmpty then 0 else depths.foldl max 0 + 1

def ofParts (parts : Parts) : Part :=
  ⟨sequence (parts.reverse.filterMap (·.map (·.pattern))),
    depthOf (parts.map fun p => (p.map (·.depth)).getD 0)⟩

def ofAlternatives (last : Part) (done : List Part) : Part :=
  let pattern := match (last :: done).reverse with
    | p :: ps => choice p.pattern (ps.map (·.pattern))
    | [] => empty
  ⟨pattern, depthOf ((last :: done).map (·.depth))⟩

/-- All alternatives up to a closing parenthesis or the end, of a group that is nested in so many
others, with the names of the groups. -/
def alternatives : Nat → Mode → Nat → List (List Char) → List Part → Parts → List Char →
    Option (Part × List (List Char) × List Char)
  | 0, _, _, _, _, _, _ => none
  | fuel + 1, m, level, taken, done, parts, s =>
    let s := m.skip s
    match repetition? m s with
    | some none => none
    | some (some ((least, most), s)) =>
      match parts with
      | some p :: parts =>
        let p : Part := ⟨p.pattern.times least most, p.depth + 1⟩
        alternatives fuel m level taken done (some p :: parts) s
      | _ => none
    | none =>
      match s with
      | [] => some (ofAlternatives (ofParts parts) done, taken, s)
      | ')' :: _ => some (ofAlternatives (ofParts parts) done, taken, s)
      | '|' :: s => alternatives fuel m level taken (ofParts parts :: done) [] s
      | '(' :: s => do
        match ← groupStart m taken s with
        | (.mode m, taken, s) => alternatives fuel m level taken done (none :: parts) s
        | (.group inner remembered, taken, s) =>
          if nestLimit ≤ level then none
          else
            let (p, taken, s) ← alternatives fuel inner (level + 1) taken [] [] s
            match s with
            | ')' :: s =>
              let pattern := if remembered then .group p.pattern else p.pattern
              alternatives fuel m level taken done (some ⟨pattern, p.depth + 1⟩ :: parts) s
            | _ => none
      | s => do
        let (p, s) ← primitive m s
        alternatives fuel m level taken done (some p :: parts) s

def parse? (s : String) : Option Pattern := do
  let cs := s.toList
  let (p, _, rest) ← alternatives (cs.length + 1) {} 0 [] [] [] cs
  if rest.isEmpty ∧ p.depth ≤ nestLimit ∧ p.pattern.isAffordable then some p.pattern else none

end SpanWeave.Pattern
