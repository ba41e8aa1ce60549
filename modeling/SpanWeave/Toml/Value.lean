set_option autoImplicit false

/-!
# TOML values

The tree that a TOML document denotes, and how keys and headers add to it. A table remembers how
it came to be, since that decides what may be added to it later. Of a fractional number or a
time only its being there is kept: no setting takes one.
-/
namespace SpanWeave.Toml

inductive TableForm where
  | header
  /-- On the way to the table of a header. -/
  | implied
  | dotted
  | inline
  deriving DecidableEq, Repr, Inhabited

inductive Value where
  | text (s : String)
  | integer (i : Int)
  | bool (b : Bool)
  | other
  | array (items : List Value)
  | table (form : TableForm) (entries : List (String × Value))
  /-- An array of tables, of which only the last one can grow. -/
  | tables (last : List (String × Value))
  deriving Repr, Inhabited

abbrev Entries := List (String × Value)

def setKey (key : String) (v : Value) : Entries → Entries
  | [] => [(key, v)]
  | (k, old) :: es => if k = key then (k, v) :: es else (k, old) :: setKey key v es

/-- Adds a pair under a dotted key, which must be new. The tables on the way are made as needed;
those that a header made are closed, and the last one must have been made by dotted keys too. -/
def insertPair (key : String) (v : Value) : List String → Bool → Entries → Option Entries
  | [], mayAdd, es => if mayAdd && (es.lookup key).isNone then some (es ++ [(key, v)]) else none
  | k :: path, _, es =>
    match es.lookup k with
    | none => do
      let inner ← insertPair key v path true []
      some (setKey k (.table .dotted inner) es)
    | some (.table .dotted inner) => do
      let inner ← insertPair key v path true inner
      some (setKey k (.table .dotted inner) es)
    | some (.table .implied inner) => do
      let inner ← insertPair key v path false inner
      some (setKey k (.table .implied inner) es)
    | some (.tables last) => do
      let last ← insertPair key v path false last
      some (setKey k (.tables last) es)
    | some _ => none

/-- Makes the table of a header and fills it. A table can be made once only; a header in double
brackets adds one more table to its array. -/
def insertTable (isArray : Bool) (fill : Entries → Option Entries) : List String → Entries →
    Option Entries
  | [], _ => none
  | [key], es =>
    match isArray, es.lookup key with
    | true, none | true, some (.tables _) => do some (setKey key (.tables (← fill [])) es)
    | false, none => do some (setKey key (.table .header (← fill [])) es)
    | false, some (.table .implied inner) => do some (setKey key (.table .header (← fill inner)) es)
    | _, _ => none
  | k :: path, es =>
    match es.lookup k with
    | none => do some (setKey k (.table .implied (← insertTable isArray fill path [])) es)
    | some (.table .inline _) => none
    | some (.table form inner) => do
      some (setKey k (.table form (← insertTable isArray fill path inner)) es)
    | some (.tables last) => do some (setKey k (.tables (← insertTable isArray fill path last)) es)
    | some _ => none

structure Pair where
  path : List String
  key : String
  value : Value
  deriving Repr, Inhabited

def addPairs (pairs : List Pair) (es : Entries) : Option Entries :=
  pairs.foldlM (fun es p => insertPair p.key p.value p.path true es) es

structure Section where
  isArray : Bool
  path : List String
  pairs : List Pair
  deriving Repr, Inhabited

def assemble (pairs : List Pair) (sections : List Section) : Option Entries := do
  let root ← addPairs pairs []
  sections.foldlM (fun es s => insertTable s.isArray (addPairs s.pairs) s.path es) root

end SpanWeave.Toml
