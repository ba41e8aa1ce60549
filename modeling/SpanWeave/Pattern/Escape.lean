import SpanWeave.Pattern.Mode
import SpanWeave.Text.Numeral

set_option autoImplicit false

/-!
# Escapes

What a backslash and the characters behind it stand for. In the spaced mode blanks and comments may
stand between the digits of a code point and between the letters that name a kind of boundary.
-/
namespace SpanWeave.Pattern
open Text

inductive Escape where
  | char (c : Char)
  | set (s : CharSet)
  | anchor (a : Anchor)

def charOfDigits? (ds : List Char) : Option Char := do
  let (n, _) ← readHex? ds.length ds
  if ds.isEmpty ∨ ¬ n.isValidChar then none else some (Char.ofNat n)

def isHexDigit (c : Char) : Bool := (hexDigit? c).isSome

/-- A code point in hexadecimal: so many digits, or any number of them in braces. Outside the wide
mode two digits denote a byte, which is a character only in ASCII. -/
def codePoint (m : Mode) (digits : Nat) (s : List Char) : Option (Char × List Char) :=
  match m.skip s with
  | '\x7b' :: s =>
    let s := m.skip s
    let (ds, s) := m.takeUpTo isHexDigit s.length s
    match s with
    | '\x7d' :: s => (charOfDigits? ds).map fun c => (c, m.skip s)
    | _ => none
  | s => do
    let (ds, s) := m.takeUpTo isHexDigit digits s
    let c ← charOfDigits? ds
    if ds.length < digits ∨ (digits = 2 ∧ ¬ m.wide ∧ 0x80 ≤ c.toNat) then none else some (c, s)

def isBoundaryNameChar (c : Char) : Bool := c.isAlpha || c == '-'

def boundary (m : Mode) (s : List Char) : Option (Anchor × List Char) :=
  match s with
  | '\x7b' :: t =>
    let t := m.skip t
    match t, m.takeUpTo isBoundaryNameChar t.length t with
    | [], _ => none
    | _, ([], _) => some (.boundary m.word, s)
    | _, (name, '\x7d' :: rest) =>
      match String.ofList name with
      | "start-half" => some (.before m.word false, rest)
      | "end-half" => some (.after m.word false, rest)
      | "start" => some (.edge m.word true, rest)
      | "end" => some (.edge m.word false, rest)
      | _ => none
    | _, _ => none
  | s => some (.boundary m.word, s)

def isEscapable (c : Char) : Bool := c.toNat < 128 && !c.isAlphanum && c != '<' && c != '>'

def escape (m : Mode) : List Char → Option (Escape × List Char)
  | [] => none
  | c :: s =>
    if isEscapable c then some (.char c, s)
    else
      match c with
      | 'x' => (codePoint m 2 s).map fun (c, s) => (.char c, s)
      | 'u' => (codePoint m 4 s).map fun (c, s) => (.char c, s)
      | 'U' => (codePoint m 8 s).map fun (c, s) => (.char c, s)
      | 'a' => some (.char '\x07', s)
      | 'f' => some (.char '\x0c', s)
      | 't' => some (.char '\t', s)
      | 'n' => some (.char '\n', s)
      | 'r' => some (.char '\r', s)
      | 'v' => some (.char '\x0b', s)
      | 'A' => some (.anchor .textStart, s)
      | 'z' => some (.anchor .textEnd, s)
      | 'b' => (boundary m s).map fun (a, s) => (.anchor a, s)
      | 'B' => some (.anchor (.noBoundary m.word), s)
      | '<' => some (.anchor (.edge m.word true), s)
      | '>' => some (.anchor (.edge m.word false), s)
      | c => (m.class? c).map fun set => (.set set, s)

end SpanWeave.Pattern
