import SpanWeave.Fault
import SpanWeave.Text.Blank
import SpanWeave.Pattern.Language
import SpanWeave.NameFilter.Catalogue

set_option autoImplicit false

/-!
# Name filters

Which operations are traced. An expression is a list of clauses between semicolons, each a list of
words between commas that are to be traced or to be excluded. A word is a name, a class of the
catalogue, or a pattern between slashes, in whatever language patterns are written. An exclusion
always wins.
-/
namespace SpanWeave
open Text

structure NameFilter where
  /-- The names that are traced; none when no clause lists any. -/
  names : Option (List String) := none
  /-- What each pattern matches. -/
  patterns : List (String → Bool) := []
  excludedNames : List String := []
  excludedPatterns : List (String → Bool) := []
  deriving Inhabited

namespace NameFilter

def all : NameFilter := {}

def standard : NameFilter := { excludedNames := Catalogue.bookkeeping ++ Catalogue.queries }

def isExcluded (f : NameFilter) (name : String) : Bool :=
  f.excludedNames.contains name || f.excludedPatterns.any (· name)

/-- Whether a trace clause asks for the name; with no such clause every name is asked for. -/
def isListed (f : NameFilter) (name : String) : Bool :=
  (f.names.isNone && f.patterns.isEmpty) || f.names.any (·.contains name) ||
    f.patterns.any (· name)

def accepts (f : NameFilter) (name : String) : Bool := !f.isExcluded name && f.isListed name

@[simp] theorem accepts_all (name : String) : all.accepts name = true := by
  simp [all, accepts, isExcluded, isListed]

inductive Word where
  | names (names : List String)
  | pattern (isMatch : String → Bool)
  deriving Inhabited

def slashed? (word : String) : Option String :=
  match word.toList with
  | '/' :: cs => if cs.getLast? = some '/' then some (String.ofList cs.dropLast) else none
  | _ => none

def Word.read (language : PatternLanguage) (word : String) : Except Fault Word :=
  match slashed? word with
  | none => .ok (.names (Catalogue.expand word))
  | some text =>
    match language.compile? text with
    | some p => .ok (.pattern (language.isMatch p))
    | none => .error (.badFilter (.badPattern text))

def parts (separator : Char) (s : String) : List String :=
  ((splitAt separator s).map trim).filter (!·.isEmpty)

def addTraced (f : NameFilter) : Word → NameFilter
  | .names names => { f with names := some (f.names.getD [] ++ names) }
  | .pattern p => { f with patterns := f.patterns ++ [p] }

def addExcluded (f : NameFilter) : Word → NameFilter
  | .names names => { f with excludedNames := f.excludedNames ++ names }
  | .pattern p => { f with excludedPatterns := f.excludedPatterns ++ [p] }

/-- A trace clause makes a list of names, if an empty one. -/
def addClause (language : PatternLanguage) (f : NameFilter) (clause : String) :
    Except Fault NameFilter :=
  match after? "trace=" clause, after? "exclude=" clause with
  | some list, _ => do
    let words ← (parts ',' list).mapM (Word.read language)
    .ok (words.foldl addTraced { f with names := some (f.names.getD []) })
  | none, some list => do
    let words ← (parts ',' list).mapM (Word.read language)
    .ok (words.foldl addExcluded f)
  | none, none => .error (.badFilter (.unknownClause clause))

/-- The filter that an expression denotes; of several faults the first one counts. -/
def ofExpression (s : String) (language : PatternLanguage := Pattern.language) :
    Except Fault NameFilter :=
  match parts ';' s with
  | [] => .error (.badFilter .noClause)
  | clauses => clauses.foldlM (addClause language) all

/-- Names listed by both are listed; every pattern and every exclusion of either is kept. -/
def merge (f g : NameFilter) : NameFilter where
  names := match f.names, g.names with
    | none, names | names, none => names
    | some a, some b => some (a.filter b.contains)
  patterns := f.patterns ++ g.patterns
  excludedNames := f.excludedNames ++ g.excludedNames
  excludedPatterns := f.excludedPatterns ++ g.excludedPatterns

theorem isExcluded_merge (f g : NameFilter) (name : String) :
    (f.merge g).isExcluded name = (f.isExcluded name || g.isExcluded name) := by
  simp only [merge, isExcluded, List.contains_eq_mem, List.mem_append, List.any_append]
  grind

end NameFilter

end SpanWeave
