import SpanWeave.Json.Number

set_option autoImplicit false

/-!
# Reading JSON

A reader of the JSON grammar over the characters that remain. Each scanner takes what it needs off
the front and returns the rest. Fuel counts characters, and a bracket takes two units: a text of `n`
characters never runs out of the `2 * n + 2` that `parse` gives.
-/
namespace SpanWeave.Json
open Text

def isSpace (c : Char) : Bool := c == ' ' || c == '\n' || c == '\t' || c == '\r'

def skipSpace (s : List Char) : List Char := s.dropWhile isSpace

def isHighSurrogate (n : Nat) : Bool := 0xd800 ≤ n && n ≤ 0xdbff

def isLowSurrogate (n : Nat) : Bool := 0xdc00 ≤ n && n ≤ 0xdfff

def shortEscape? : Char → Option Char
  | '\x22' => some '\x22'
  | '\\' => some '\\'
  | '/' => some '/'
  | 'b' => some '\x08'
  | 'f' => some '\x0c'
  | 'n' => some '\n'
  | 'r' => some '\r'
  | 't' => some '\t'
  | _ => none

def lowSurrogate? : List Char → Option (Nat × List Char)
  | '\\' :: 'u' :: s => (readHex? 4 s).filter fun (n, _) => isLowSurrogate n
  | _ => none

/-- One piece of a string: a character, half a surrogate pair (`none`), or the closing quote. -/
inductive Piece where
  | char (c : Option Char)
  | close

def piece? : List Char → Option (Piece × List Char)
  | [] => none
  | '\x22' :: s => some (.close, s)
  | '\\' :: 'u' :: s => do
    let (n, s) ← readHex? 4 s
    if isHighSurrogate n then
      match lowSurrogate? s with
      | some (low, s) =>
          some (.char (some (Char.ofNat (0x10000 + (n - 0xd800) * 0x400 + (low - 0xdc00)))), s)
      | none => some (.char none, s)
    else if isLowSurrogate n then some (.char none, s)
    else some (.char (some (Char.ofNat n)), s)
  | '\\' :: c :: s => (shortEscape? c).map fun c => (.char (some c), s)
  | c :: s => if c.toNat < 0x20 ∨ c = '\\' then none else some (.char (some c), s)

/-- The characters up to the closing quote, `none` in place of half a surrogate pair. -/
def stringBody : Nat → List Char → Option (List (Option Char) × List Char)
  | 0, _ => none
  | fuel + 1, s => do
    match ← piece? s with
    | (.close, s) => some ([], s)
    | (.char c, s) =>
      let (cs, s) ← stringBody fuel s
      some (c :: cs, s)

def quoted (fuel : Nat) (s : List Char) : Option (Option String × List Char) := do
  let (cs, s) ← stringBody fuel s
  some ((cs.mapM id).map String.ofList, s)

def joinMember (name : Option String) (v : Value) (rest : Option (List (String × Value))) :
    Option (List (String × Value)) := do
  let name ← name
  let rest ← rest
  some ((name, v) :: rest)

mutual
def value : Nat → List Char → Option (Value × List Char)
  | 0, _ => none
  | fuel + 1, s =>
    match skipSpace s with
    | 'n' :: 'u' :: 'l' :: 'l' :: s => some (.null, s)
    | 't' :: 'r' :: 'u' :: 'e' :: s => some (.bool true, s)
    | 'f' :: 'a' :: 'l' :: 's' :: 'e' :: s => some (.bool false, s)
    | '\x22' :: s => do
      let (t, s) ← quoted fuel s
      some (match t with | some t => .text t | none => .garbled, s)
    | '[' :: s =>
      match skipSpace s with
      | ']' :: s => some (.array [], s)
      | s => do
        let (vs, s) ← items fuel s
        some (.array vs, s)
    | '\x7b' :: s =>
      match skipSpace s with
      | '\x7d' :: s => some (.object [], s)
      | s => do
        let (ms, s) ← members fuel s
        some (match ms with | some ms => .object ms | none => .garbled, s)
    | '-' :: s => unsigned true s
    | s => unsigned false s

def items : Nat → List Char → Option (List Value × List Char)
  | 0, _ => none
  | fuel + 1, s => do
    let (v, s) ← value fuel s
    match skipSpace s with
    | ']' :: s => some ([v], s)
    | ',' :: s =>
      let (vs, s) ← items fuel s
      some (v :: vs, s)
    | _ => none

def members : Nat → List Char → Option (Option (List (String × Value)) × List Char)
  | 0, _ => none
  | fuel + 1, s =>
    match skipSpace s with
    | '\x22' :: s => do
      let (name, s) ← quoted fuel s
      match skipSpace s with
      | ':' :: s =>
        let (v, s) ← value fuel s
        match skipSpace s with
        | '\x7d' :: s => some (joinMember name v (some []), s)
        | ',' :: s =>
          let (ms, s) ← members fuel s
          some (joinMember name v ms, s)
        | _ => none
      | _ => none
    | _ => none
end

def parseChars (s : List Char) : Option Value := do
  let (v, rest) ← value (2 * s.length + 2) s
  if (skipSpace rest).isEmpty then some v else none

def parse (s : String) : Option Value := parseChars s.toList

end SpanWeave.Json
