import SpanWeave.Text.Numeral

set_option autoImplicit false

/-!
# Writing TOML

Texts and whole numbers. A text is written in the plainest form that needs no escapes: between
quotes, between apostrophes, or as a block of either kind. Where none is possible it is escaped.
-/
namespace SpanWeave.Toml

def isControl (c : Char) : Bool := c.toNat < 0x20 || c.toNat == 0x7f

/-- The longest run of a character, the one at the front being longer by the given number. -/
def longestRun (mark : Char) : Nat → List Char → Nat
  | run, [] => run
  | run, c :: s => if c = mark then longestRun mark (run + 1) s else max run (longestRun mark 0 s)

/-- How a text may be written; blocks begin and end with three marks and may hold line breaks. -/
inductive TextForm where
  | basic
  | literal
  | basicBlock
  | literalBlock
  deriving DecidableEq, Repr

namespace TextForm

/-- The form of a text. Blocks may hold their own mark twice in a row, but not three times. -/
def ofText (cs : List Char) : TextForm :=
  let plain := cs.all fun c => !isControl c || c == '\t' || c == '\n'
  let escapes := cs.contains '\\'
  let lines := cs.contains '\n'
  if plain ∧ !escapes ∧ !cs.contains '\x22' ∧ !lines then basic
  else if plain ∧ !cs.contains '\'' ∧ !lines then literal
  else if plain ∧ !escapes ∧ longestRun '\x22' 0 cs ≤ 2 then basicBlock
  else if plain ∧ longestRun '\'' 0 cs ≤ 2 then literalBlock
  else if lines then basicBlock
  else basic

def isBlock : TextForm → Bool
  | basic | literal => false
  | basicBlock | literalBlock => true

def mark : TextForm → Char
  | basic | basicBlock => '\x22'
  | literal | literalBlock => '\''

end TextForm

def escapeChar (block : Bool) (c : Char) : List Char :=
  if c = '\n' then if block then ['\n'] else ['\\', 'n']
  else if c = '\x08' then ['\\', 'b']
  else if c = '\t' then ['\\', 't']
  else if c = '\x0c' then ['\\', 'f']
  else if c = '\r' then ['\\', 'r']
  else if c = '\\' then ['\\', '\\']
  else if isControl c then '\\' :: 'u' :: ((Text.hexadecimal 4 c.toNat).map Char.toUpper).toList
  else [c]

/-- Escapes what needs it: in a block only each third quote in a row, behind so many of them. -/
def escapeText (block : Bool) : Nat → List Char → List Char
  | _, [] => []
  | run, c :: s =>
    if c ≠ '\x22' then escapeChar block c ++ escapeText block 0 s
    else if block ∧ run < 2 then '\x22' :: escapeText block (run + 1) s
    else '\\' :: '\x22' :: escapeText block 0 s

def writeText (s : String) : String :=
  let cs := s.toList
  let form := TextForm.ofText cs
  let marks := List.replicate (if form.isBlock then 3 else 1) form.mark
  let lineBreak := if form.isBlock && cs.contains '\n' then ['\n'] else []
  let body := match form with
    | .basic | .basicBlock => escapeText form.isBlock 0 cs
    | .literal | .literalBlock => cs
  String.ofList (marks ++ lineBreak ++ body ++ marks)

def writeNat? (n : Nat) : Option String :=
  if n < 0x8000000000000000 then some (toString n) else none

def writeBool (b : Bool) : String := if b then "true" else "false"

end SpanWeave.Toml
