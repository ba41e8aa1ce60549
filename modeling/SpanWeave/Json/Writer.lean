import SpanWeave.Json.Value
import SpanWeave.Text.Numeral

set_option autoImplicit false

/-!
# Writing JSON

Two layouts: everything on one line without blanks, and one item a line with an indentation of two
spaces. A string escapes the quote, the backslash and the control characters below the space, and
nothing else.
-/
namespace SpanWeave.Json
open Text

def escapeChar (c : Char) : List Char :=
  if c = '\x22' then ['\\', '\x22']
  else if c = '\\' then ['\\', '\\']
  else if c = '\n' then ['\\', 'n']
  else if c = '\r' then ['\\', 'r']
  else if c = '\t' then ['\\', 't']
  else if c = '\x08' then ['\\', 'b']
  else if c = '\x0c' then ['\\', 'f']
  else if c.toNat < 0x20 then '\\' :: 'u' :: (hexadecimal 4 c.toNat).toList
  else [c]

def quote (s : String) : List Char := '\x22' :: (s.toList.flatMap escapeChar ++ ['\x22'])

def integerChars : Int → List Char
  | .ofNat n => numeral n
  | .negSucc n => '-' :: numeral (n + 1)

/-- The values without parts. What cannot be read back as a record is written as one that cannot. -/
def scalar : Value → List Char
  | .null => "null".toList
  | .bool true => "true".toList
  | .bool false => "false".toList
  | .integer i => integerChars i
  | .real => "0.5".toList
  | .text s => quote s
  | .garbled => "\"\\ud800\"".toList
  | _ => []

mutual
def compactChars : Value → List Char
  | .array items => '[' :: compactItems items
  | .object members => '\x7b' :: compactMembers members
  | v => scalar v

def compactItems : List Value → List Char
  | [] => [']']
  | [v] => compactChars v ++ [']']
  | v :: vs => compactChars v ++ ',' :: compactItems vs

def compactMembers : List (String × Value) → List Char
  | [] => ['\x7d']
  | [m] => compactMember m ++ ['\x7d']
  | m :: ms => compactMember m ++ ',' :: compactMembers ms

def compactMember : String × Value → List Char
  | (name, v) => quote name ++ ':' :: compactChars v
end

def compact (v : Value) : String := String.ofList (compactChars v)

def newline (indent : Nat) : List Char := '\n' :: List.replicate (2 * indent) ' '

mutual
def prettyChars (indent : Nat) : Value → List Char
  | .array [] => ['[', ']']
  | .array items => '[' :: prettyItems indent items
  | .object [] => ['\x7b', '\x7d']
  | .object members => '\x7b' :: prettyMembers indent members
  | v => scalar v

def prettyItems (indent : Nat) : List Value → List Char
  | [] => []
  | [v] => newline (indent + 1) ++ prettyChars (indent + 1) v ++ newline indent ++ [']']
  | v :: vs => newline (indent + 1) ++ prettyChars (indent + 1) v ++ ',' :: prettyItems indent vs

def prettyMembers (indent : Nat) : List (String × Value) → List Char
  | [] => []
  | [m] => newline (indent + 1) ++ prettyMember indent m ++ newline indent ++ ['\x7d']
  | m :: ms => newline (indent + 1) ++ prettyMember indent m ++ ',' :: prettyMembers indent ms

def prettyMember (indent : Nat) : String × Value → List Char
  | (name, v) => quote name ++ ':' :: ' ' :: prettyChars (indent + 1) v
end

def pretty (v : Value) : String := String.ofList (prettyChars 0 v)

end SpanWeave.Json
