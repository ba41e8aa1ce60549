import SpanWeave.Toml.Scalar

set_option autoImplicit false

/-!
# Reading TOML

A reader of TOML documents over the characters that remain. Each scanner takes what it needs off the
front and returns the rest. All fuel counts characters.
-/
namespace SpanWeave.Toml
open Text

def skipBlanks (s : List Char) : List Char := s.dropWhile fun c => c == ' ' || c == '\t'

def isPlain (c : Char) : Bool := c == '\t' || (0x20 ≤ c.toNat && c.toNat != 0x7f)

def lineBreak? : List Char → Option (List Char)
  | '\n' :: s => some s
  | '\r' :: '\n' :: s => some s
  | _ => none

def skipComment : List Char → List Char
  | '#' :: s => s.dropWhile isPlain
  | s => s

/-- What follows the end of a line that has nothing more on it but a comment. -/
def lineEnd? (s : List Char) : Option (List Char) :=
  let s := skipComment (skipBlanks s)
  if s.isEmpty then some [] else lineBreak? s

def skipTrivia : Nat → List Char → List Char
  | 0, s => s
  | fuel + 1, s =>
    let s := skipComment (skipBlanks s)
    match lineBreak? s with
    | some s => skipTrivia fuel s
    | none => s

def unicodeEscape (digits : Nat) (s : List Char) : Option (Char × List Char) := do
  let (n, s) ← readHex? digits s
  if n.isValidChar then some (Char.ofNat n, s) else none

def escaped : List Char → Option (Char × List Char)
  | 'b' :: s => some ('\x08', s)
  | 't' :: s => some ('\t', s)
  | 'n' :: s => some ('\n', s)
  | 'f' :: s => some ('\x0c', s)
  | 'r' :: s => some ('\r', s)
  | '\x22' :: s => some ('\x22', s)
  | '\\' :: s => some ('\\', s)
  | 'u' :: s => unicodeEscape 4 s
  | 'U' :: s => unicodeEscape 8 s
  | _ => none

def basicText : Nat → List Char → Option (List Char × List Char)
  | 0, _ => none
  | fuel + 1, s =>
    match s with
    | '\x22' :: s => some ([], s)
    | '\\' :: s => do
      let (c, s) ← escaped s
      let (cs, s) ← basicText fuel s
      some (c :: cs, s)
    | c :: s =>
      if isPlain c then (basicText fuel s).map fun (cs, s) => (c :: cs, s) else none
    | [] => none

def literalText (s : List Char) : Option (List Char × List Char) :=
  match s.dropWhile fun c => isPlain c && c != '\'' with
  | '\'' :: rest => some (s.takeWhile (fun c => isPlain c && c != '\''), rest)
  | _ => none

def spanQuotes (quote : Char) (s : List Char) : Nat × List Char :=
  ((s.takeWhile (· == quote)).length, s.dropWhile (· == quote))

def skipLines : Nat → List Char → List Char
  | 0, s => s
  | fuel + 1, s =>
    match lineBreak? (skipBlanks s) with
    | some s => skipLines fuel s
    | none => skipBlanks s

/-- A backslash at the end of a line drops the break and all blanks and breaks after it. -/
def foldedLine? (s : List Char) : Option (List Char) := do
  let s ← lineBreak? (skipBlanks s)
  some (skipLines s.length s)

/-- The rest of a string over several lines, after its opening quotes. Up to two quotes may stand
before the closing three. -/
def blockText (quote : Char) (escapes : Bool) : Nat → List Char → Option (List Char × List Char)
  | 0, _ => none
  | fuel + 1, s =>
    let go (c : Char) (s : List Char) :=
      (blockText quote escapes fuel s).map fun (cs, s) => (c :: cs, s)
    match lineBreak? s, s with
    | some s, _ => go '\n' s
    | none, [] => none
    | none, c :: rest =>
      if c = quote then
        let (n, after) := spanQuotes quote s
        if n < 3 then go c rest
        else if n < 6 then some (List.replicate (n - 3) quote, after) else none
      else if c = '\\' ∧ escapes then
        match foldedLine? rest with
        | some s => blockText quote escapes fuel s
        | none => do
          let (c, s) ← escaped rest
          go c s
      else if isPlain c then go c rest else none

def dropBreak (s : List Char) : List Char := (lineBreak? s).getD s

def textValue (s : List Char) : Option (List Char × List Char) :=
  match s with
  | '\x22' :: '\x22' :: '\x22' :: s => blockText '\x22' true (s.length + 1) (dropBreak s)
  | '\'' :: '\'' :: '\'' :: s => blockText '\'' false (s.length + 1) (dropBreak s)
  | '\x22' :: s => basicText (s.length + 1) s
  | '\'' :: s => literalText s
  | _ => none

def isBareKey (c : Char) : Bool := c.isAlphanum || c == '_' || c == '-'

def simpleKey (s : List Char) : Option (String × List Char) :=
  match s with
  | '\x22' :: s => (basicText (s.length + 1) s).map fun (k, s) => (String.ofList k, s)
  | '\'' :: s => (literalText s).map fun (k, s) => (String.ofList k, s)
  | s =>
    let k := s.takeWhile isBareKey
    if k.isEmpty then none else some (String.ofList k, s.dropWhile isBareKey)

def dottedKey : Nat → List Char → Option (List String × List Char)
  | 0, _ => none
  | fuel + 1, s => do
    let (k, s) ← simpleKey (skipBlanks s)
    match skipBlanks s with
    | '.' :: s => (dottedKey fuel s).map fun (ks, s) => (k :: ks, s)
    | s => some ([k], s)

def depthBound : Nat := 80

def key (s : List Char) : Option (List String × List Char) :=
  (dottedKey (s.length + 1) s).filter fun (ks, _) => ks.length < depthBound

def isWordChar (c : Char) : Bool :=
  c.isAlphanum || c == '+' || c == '-' || c == '.' || c == '_' || c == ':'

/-- A value without quotes or brackets. One blank may stand between a date and a time. -/
def wordValue (s : List Char) : Option (Value × List Char) :=
  let word := s.takeWhile isWordChar
  let rest := s.dropWhile isWordChar
  let longer := match rest with
    | ' ' :: t => if afterDate? word = some [] then some (t.takeWhile isWordChar, t) else none
    | _ => none
  match longer with
  | some (time, t) =>
    if isMoment (word ++ ' ' :: time) then some (.other, t.dropWhile isWordChar)
    else some (.other, rest)
  | none => (scalar? word).map fun v => (v, rest)

def splitKey (v : Value) (path : List String) : Option Pair := do
  some ⟨path.dropLast, ← path.getLast?, v⟩

mutual
def value : Nat → Nat → List Char → Option (Value × List Char)
  | 0, _, _ => none
  | fuel + 1, depth, s =>
    match s with
    | '[' :: s => if depth + 1 < depthBound then items fuel (depth + 1) [] s else none
    | '\x7b' :: s =>
      if depth + 1 < depthBound then
        match skipBlanks s with
        | '\x7d' :: s => some (.table .inline [], s)
        | s => inlinePairs fuel (depth + 1) [] s
      else none
    | c :: t =>
      if c = '\x22' ∨ c = '\'' then
        (textValue (c :: t)).map fun (cs, s) => (.text (String.ofList cs), s)
      else wordValue (c :: t)
    | [] => none

/-- The rest of an array; the items before it come last first. -/
def items : Nat → Nat → List Value → List Char → Option (Value × List Char)
  | 0, _, _, _ => none
  | fuel + 1, depth, before, s =>
    match skipTrivia fuel s with
    | ']' :: s => some (.array before.reverse, s)
    | s => do
      let (v, s) ← value fuel depth s
      match skipTrivia fuel s with
      | ']' :: s => some (.array (v :: before).reverse, s)
      | ',' :: s => items fuel depth (v :: before) s
      | _ => none

def inlinePairs : Nat → Nat → List Pair → List Char → Option (Value × List Char)
  | 0, _, _, _ => none
  | fuel + 1, depth, before, s => do
    let (path, s) ← key s
    match s with
    | '=' :: s =>
      let (v, s) ← value fuel depth (skipBlanks s)
      let pairs := (← splitKey v path) :: before
      match skipBlanks s with
      | '\x7d' :: s => (addPairs pairs.reverse []).map fun es => (.table .inline es, s)
      | ',' :: s => inlinePairs fuel depth pairs s
      | _ => none
    | _ => none
end

inductive Statement where
  | pair (p : Pair)
  | header (isArray : Bool) (path : List String)
  deriving Repr, Inhabited

def header (s : List Char) : Option (Statement × List Char) :=
  match s with
  | '[' :: s => do
    let (path, s) ← key s
    match s with
    | ']' :: ']' :: s => some (.header true path, s)
    | _ => none
  | s => do
    let (path, s) ← key s
    match s with
    | ']' :: s => some (.header false path, s)
    | _ => none

def statement (s : List Char) : Option (Statement × List Char) :=
  match s with
  | '[' :: s => header s
  | s => do
    let (path, s) ← key s
    match s with
    | '=' :: s =>
      let (v, s) ← value (2 * s.length + 2) 0 (skipBlanks s)
      some (.pair (← splitKey v path), s)
    | _ => none

def statements : Nat → List Char → Option (List Statement)
  | 0, _ => none
  | fuel + 1, s =>
    if s.isEmpty then some []
    else
      match lineEnd? s with
      | some s => statements fuel s
      | none => do
        let (first, s) ← statement (skipBlanks s)
        let rest ← statements fuel (← lineEnd? s)
        some (first :: rest)

def sections : List Statement → List Pair × List Section
  | [] => ([], [])
  | .pair p :: rest =>
    let (pairs, later) := sections rest
    (p :: pairs, later)
  | .header isArray path :: rest =>
    let (pairs, later) := sections rest
    ([], ⟨isArray, path, pairs⟩ :: later)

/-- The root table that a document denotes. A byte order mark in front is dropped. -/
def parse (s : String) : Option Entries := do
  let cs := match s.toList with
    | c :: cs => if c.toNat = 0xfeff then cs else c :: cs
    | [] => []
  let (pairs, later) := sections (← statements (cs.length + 1) cs)
  assemble pairs later

end SpanWeave.Toml
