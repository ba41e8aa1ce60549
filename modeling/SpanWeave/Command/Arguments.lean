import SpanWeave.Text.Numeral
import SpanWeave.Command.Help

set_option autoImplicit false

/-!
# Arguments

How the words of a command line become a request. An option comes as a word of its own, with its
value in the next word or behind an equals sign; options of one letter may share a word. Each option
may come once among the words of the command, and once among those of its subcommand. A value in a
word of its own is judged only when the next option or other word comes, so a subcommand that only
says something still does so.
-/
namespace SpanWeave.Command
open Text

inductive Format where
  | text
  | json
  deriving DecidableEq, Repr, Inhabited

structure ReplayOptions where
  input : String
  format : Format := .text
  summary : Bool := false
  criticalPath : Bool := false
  skewOffset : Option Int := none
  workers : Option Nat := none
  callFilter : Option String := none
  activityFilter : Option String := none
  timeline : Bool := false
  /-- Where spans should be exported to. -/
  exportTo : Option String := none
  deriving DecidableEq, Repr, Inhabited

inductive Request where
  /-- Says something about the command line itself. -/
  | say (text : String)
  | refused
  | replay (config : Option String) (options : ReplayOptions)
  | showSettings (config : Option String)
  deriving DecidableEq, Repr, Inhabited

inductive ValueKind where
  | none
  | any
  | path
  | format
  | count
  /-- A number with a sign, which may look like an option. -/
  | offset
  deriving DecidableEq, Repr, Inhabited

def format? (s : String) : Option Format :=
  if s = "text" then some .text else if s = "json" then some .json else none

def count? (s : String) : Option Nat := natural? UInt64.size s.toList

def offset? (s : String) : Option Int := integer? 0x8000000000000000 s.toList

def ValueKind.accepts (k : ValueKind) (s : String) : Bool :=
  match k with
  | none => false
  | any => true
  | path => !s.isEmpty
  | format => (format? s).isSome
  | count => (count? s).isSome
  | offset => (offset? s).isSome

structure OptionSpec where
  name : String
  letter : Option Char
  value : ValueKind
  deriving DecidableEq, Repr, Inhabited

def commonOptions : List OptionSpec :=
  [⟨"debug", none, .none⟩, ⟨"config", none, .path⟩, ⟨"help", some 'h', .none⟩]

def rootOptions : List OptionSpec := ⟨"version", some 'V', .none⟩ :: commonOptions

def replaySpecs : List OptionSpec :=
  [⟨"format", none, .format⟩, ⟨"summary", some 'c', .none⟩, ⟨"critical-path", none, .none⟩,
   ⟨"skew-offset", none, .offset⟩, ⟨"workers", none, .count⟩, ⟨"expr", some 'e', .any⟩,
   ⟨"activity-filter", none, .any⟩, ⟨"timeline", none, .none⟩, ⟨"otlp-endpoint", none, .any⟩,
   ⟨"otlp-service-name", none, .any⟩] ++ commonOptions

structure Words where
  options : List (String × String) := []
  others : List String := []
  /-- The last option had come before or does not take the value in the word behind it. -/
  faulty : Bool := false
  deriving DecidableEq, Repr, Inhabited

namespace Words

def value? (w : Words) (name : String) : Option String := w.options.lookup name

def has (w : Words) (name : String) : Bool := (w.value? name).isSome

def add? (w : Words) (o : OptionSpec) (value : String) : Option Words :=
  if w.has o.name || !(o.value == .none || o.value.accepts value) then none
  else some { w with options := (o.name, value) :: w.options }

end Words

/-- Why the words are not read to their end. -/
inductive Stop where
  | help (long : Bool)
  | version
  | refused
  deriving DecidableEq, Repr, Inhabited

def isOption (s : String) : Bool := s.toList.head? == some '-' && s != "-"

def nextValue? (o : OptionSpec) (rest : List String) : Option (String × List String) :=
  match rest with
  | v :: rest => if isOption v && o.value != .offset then none else some (v, rest)
  | [] => none

def splitEquals (s : List Char) : String × Option String :=
  match s.dropWhile (· != '=') with
  | _ :: v => (String.ofList (s.takeWhile (· != '=')), some (String.ofList v))
  | [] => (String.ofList s, none)

/-- Takes one option. A value that it needs is given with it, or is the next word. -/
def takeOption (w : Words) (o : OptionSpec) (given : Option String) (rest : List String) :
    Except Stop (Words × List String) :=
  let added (w : Option Words) (rest : List String) : Except Stop (Words × List String) :=
    match w with
    | some w => .ok (w, rest)
    | none => .error .refused
  match o.value, given with
  | .none, some _ => .error .refused
  | .none, none => added (w.add? o "") rest
  | _, some v => added (w.add? o v) rest
  | _, none =>
    match nextValue? o rest with
    | some (v, rest) => .ok ((w.add? o v).getD { w with faulty := true }, rest)
    | none => .error .refused

def takeLetters (specs : List OptionSpec) (rest : List String) :
    List Char → Words → Except Stop (Words × List String)
  | [], w => .ok (w, rest)
  | c :: cs, w =>
    match specs.find? (·.letter == some c) with
    | none => .error .refused
    | some o =>
      if o.name = "help" then .error (.help false)
      else if o.name = "version" then .error .version
      else if o.value = .none then
        match takeOption w o (if cs.head? = some '=' then some "" else none) [] with
        | .ok (w, _) => takeLetters specs rest cs w
        | .error e => .error e
      else
        match cs with
        | [] => takeOption w o none rest
        | '=' :: v => takeOption w o (some (String.ofList v)) rest
        | v => takeOption w o (some (String.ofList v)) rest

def takeWord (specs : List OptionSpec) (w : Words) (word : String) (rest : List String) :
    Except Stop (Words × List String) :=
  match word.toList with
  | '-' :: '-' :: cs =>
    let (name, given) := splitEquals cs
    match specs.find? (·.name == name) with
    | none => .error .refused
    | some o =>
      if o.name = "help" ∧ given.isNone then .error (.help true)
      else if o.name = "version" ∧ given.isNone then .error .version
      else takeOption w o given rest
  | _ :: cs => takeLetters specs rest cs w
  | [] => .error .refused

/-- Reads words until one that is no option comes when `limit` others have come before it; two
hyphens make everything after them such a word. No word is empty. Returns the words that are
left. -/
def readWords (specs : List OptionSpec) (limit : Nat) : Nat → Words → List String →
    Except Stop (Words × List String)
  | 0, w, rest => .ok (w, rest)
  | _ + 1, w, [] => .ok (w, [])
  | fuel + 1, w, word :: rest =>
    if word = "--" then
      if rest.length + w.others.length ≤ limit then .ok ({ w with others := w.others ++ rest }, [])
      else .error .refused
    else if isOption word then
      if w.faulty then .error .refused
      else do
        let (w, rest) ← takeWord specs w word rest
        readWords specs limit fuel w rest
    else if word.isEmpty then .error .refused
    else if w.others.length < limit then
      readWords specs limit fuel { w with others := w.others ++ [word] } rest
    else .ok (w, word :: rest)

/-- An option among the words of the subcommand counts before one among those of the command. -/
def inner (root sub : Words) (name : String) : Option String :=
  (sub.value? name).orElse fun _ => root.value? name

def replayRequest (root : Words) (args : List String) : Request :=
  match readWords replaySpecs 1 (args.length + 1) {} args with
  | .error (.help long) => .say (if long then replayLongHelp else replayShortHelp)
  | .error _ => .refused
  | .ok (w, rest) =>
    match w.others, rest with
    | [input], [] =>
      if input.isEmpty || w.faulty then .refused
      else .replay (inner root w "config") {
        input
        format := ((w.value? "format").bind format?).getD .text
        summary := w.has "summary"
        criticalPath := w.has "critical-path"
        skewOffset := (w.value? "skew-offset").bind offset?
        workers := (w.value? "workers").bind count?
        callFilter := w.value? "expr"
        activityFilter := w.value? "activity-filter"
        timeline := w.has "timeline"
        exportTo := w.value? "otlp-endpoint" }
    | _, _ => .refused

def showRequest (root : Words) (args : List String) : Request :=
  match readWords commonOptions 0 (args.length + 1) {} args with
  | .error (.help _) => .say showHelp
  | .error _ => .refused
  | .ok (w, rest) =>
    if rest.isEmpty && !w.faulty then .showSettings (inner root w "config") else .refused

def helpRequest : List String → Request
  | [] => .say help
  | ["replay"] => .say replayLongHelp
  | ["show-config"] => .say showHelp
  | ["help"] => .say helpHelp
  | _ => .refused

def subcommandRequest (root : Words) (name : String) (args : List String) : Request :=
  if name = "replay" then replayRequest root args
  else if name = "show-config" then showRequest root args
  else if name = "help" then helpRequest args
  else .refused

def parse (args : List String) : Request :=
  match readWords rootOptions 0 (args.length + 1) {} args with
  | .error (.help _) => .say help
  | .error .version => .say version
  | .error .refused => .refused
  | .ok (root, name :: args) =>
    match subcommandRequest root name args with
    | .say text => .say text
    | r => if root.faulty then .refused else r
  | .ok (_, []) => .refused

end SpanWeave.Command
