import SpanWeave.Pattern.Alphabet
import SpanWeave.Pattern.Folding
import SpanWeave.Pattern.Syntax
import SpanWeave.Text.Blank

set_option autoImplicit false

/-!
# Modes

How a pattern is to be read: the modes that letters set and clear, what they make of a character or
a set, and which classes have names. In the wide mode classes are those of all scripts; outside it
they are those of ASCII, and a set that would hold half characters is refused.
-/
namespace SpanWeave.Pattern

structure Mode where
  ignoreCase : Bool := false
  lines : Bool := false
  dotAll : Bool := false
  returns : Bool := false
  /-- Blanks and comments are skipped. -/
  spaced : Bool := false
  wide : Bool := true
  deriving DecidableEq, Repr, Inhabited

def skipComments : Nat → List Char → List Char
  | 0, s => s
  | fuel + 1, s =>
    match s with
    | '#' :: s => skipComments fuel (s.dropWhile (· != '\n'))
    | c :: s => if Text.isBlank c then skipComments fuel s else c :: s
    | [] => []

namespace Mode

def skip (m : Mode) (s : List Char) : List Char :=
  if m.spaced then skipComments s.length s else s

/-- The characters with a property at the front, at most so many, with what may be skipped behind
each of them, and the rest. -/
def takeUpTo (m : Mode) (property : Char → Bool) : Nat → List Char → List Char × List Char
  | count + 1, c :: s =>
    if property c then
      let (cs, s) := takeUpTo m property count (m.skip s)
      (c :: cs, s)
    else ([], c :: s)
  | _, s => ([], s)

/-- The character that decides whether a hyphen before the text joins a range: blanks and the sign
of a comment are passed over, but not the comment itself. -/
def afterHyphen? (m : Mode) (s : List Char) : Option Char :=
  if m.spaced then
    match s.dropWhile Text.isBlank with
    | '#' :: s => (s.dropWhile Text.isBlank).head?
    | s => s.head?
  else s.head?

def set? (m : Mode) (letter : Char) (value : Bool) : Option Mode :=
  match letter with
  | 'i' => some { m with ignoreCase := value }
  | 'm' => some { m with lines := value }
  | 's' => some { m with dotAll := value }
  | 'R' => some { m with returns := value }
  | 'x' => some { m with spaced := value }
  | 'u' => some { m with wide := value }
  | 'U' => some m
  | _ => none

def fold (m : Mode) (s : CharSet) : CharSet :=
  if !m.ignoreCase then s else if m.wide then s.folded else s.foldedAscii

def close? (m : Mode) (negated : Bool) (s : CharSet) : Option CharSet :=
  if !negated then some (m.fold s) else if m.wide then some (m.fold s).complement else none

def range? (m : Mode) (lo hi : Char) : Option CharSet :=
  if lo ≤ hi ∧ (m.wide ∨ hi.toNat < 0x80) then some (.range lo hi) else none

end Mode

def asciiDigit : CharSet := .range '0' '9'

def asciiLetter : CharSet := .union (.range 'A' 'Z') (.range 'a' 'z')

def asciiWord : CharSet := .union asciiLetter (.union asciiDigit (.single '_'))

def asciiSpace : CharSet := .ofChars [' ', '\t', '\n', '\x0b', '\x0c', '\r']

def namedClasses : List (String × CharSet) :=
  [("alnum", .union asciiLetter asciiDigit), ("alpha", asciiLetter),
   ("ascii", .range '\x00' '\x7f'),
   ("blank", .ofChars [' ', '\t']), ("cntrl", .union (.range '\x00' '\x1f') (.single '\x7f')),
   ("digit", asciiDigit), ("graph", .range '!' '~'), ("lower", .range 'a' 'z'),
   ("print", .range ' ' '~'),
   ("punct", .ofRanges [(0x21, 0x2f), (0x3a, 0x40), (0x5b, 0x60), (0x7b, 0x7e)]),
   ("space", asciiSpace),
   ("upper", .range 'A' 'Z'), ("word", asciiWord),
   ("xdigit", .union asciiDigit (.union (.range 'a' 'f') (.range 'A' 'F')))]

namespace Mode

def word (m : Mode) : CharSet := if m.wide then .word else asciiWord

/-- The class that a letter stands for; a capital stands for its complement. -/
def class? (m : Mode) (letter : Char) : Option CharSet :=
  match letter, m.wide with
  | 'd', true => some .digit
  | 'w', true => some .word
  | 's', true => some .space
  | 'D', true => some (CharSet.complement .digit)
  | 'W', true => some (CharSet.complement .word)
  | 'S', true => some (CharSet.complement .space)
  | 'd', false => some asciiDigit
  | 'w', false => some asciiWord
  | 's', false => some asciiSpace
  | _, _ => none

def dot? (m : Mode) : Option CharSet :=
  if !m.wide then none
  else if m.dotAll then some .any
  else some (CharSet.ofChars (if m.returns then ['\r', '\n'] else ['\n'])).complement

end Mode

end SpanWeave.Pattern
