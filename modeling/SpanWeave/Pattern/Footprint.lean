import SpanWeave.Pattern.Syntax

set_option autoImplicit false

/-!
# Footprints

How many bytes an automaton takes that recognises a pattern in UTF-8 text, forwards or backwards,
with every repetition written out. Patterns with too large a footprint are refused.

A state takes 32 bytes, each edge of a state that tells bytes apart 8 more, and each way on from a
state that tries several 4 more.
-/
namespace SpanWeave

abbrev ByteRange := Nat × Nat

namespace CharSet

/-- The encodings of the numbers from `lo` to `hi`, which take a leading digit and `count` further
ones to the base 64, as sequences of ranges of bytes. -/
def digitRanges : Nat → Nat → Nat → Nat → List (List ByteRange)
  | 0, base, lo, hi => [[(base + lo, base + hi)]]
  | count + 1, base, lo, hi =>
    let size := Nat.pow 64 (count + 1)
    let first := lo / size
    let last := hi / size
    let lead (lo hi : Nat) (rest : List (List ByteRange)) := rest.map ((base + lo, base + hi) :: ·)
    if first = last then lead first first (digitRanges count 0x80 (lo % size) (hi % size))
    else
      let front := if lo % size = 0 then []
        else lead first first (digitRanges count 0x80 (lo % size) (size - 1))
      let back := if hi % size = size - 1 then []
        else lead last last (digitRanges count 0x80 0 (hi % size))
      let first := if front.isEmpty then first else first + 1
      let last := if back.isEmpty then last else last - 1
      let middle := if last < first then []
        else lead first last (digitRanges count 0x80 0 (size - 1))
      front ++ middle ++ back

/-- The characters whose encodings are equally long: the first and the last one, the number of bytes
after the leading one, and what the leading one is offset by. -/
def lengthClasses : List (Nat × Nat × Nat × Nat) :=
  [(0, 0x7f, 0, 0), (0x80, 0x7ff, 1, 0xc0), (0x800, 0xd7ff, 2, 0xe0), (0xe000, 0xffff, 2, 0xe0),
   (0x10000, top, 3, 0xf0)]

def encodings (s : CharSet) : List (List ByteRange) :=
  s.ranges.flatMap fun (lo, hi) =>
    lengthClasses.flatMap fun (first, last, count, base) =>
      if last < lo ∨ hi < first then [] else digitRanges count base (max lo first) (min hi last)

/-- Where the edges of a state lead: state 0 is the end. -/
abbrev Edges := List (Nat × Nat × Nat)

/-- The state that reads the sequences, of which equal beginnings are neighbours, and all states
made so far. States with the same edges are one. -/
def addStates : Nat → List (List ByteRange) → List Edges → Nat × List Edges
  | 0, _, states => (0, states)
  | depth + 1, sequences, states =>
    let (edges, states) :=
      (sequences.splitBy fun s t => s.head? == t.head?).foldl (fun (edges, states) group =>
        match group.head? with
        | some ((lo, hi) :: _) =>
          let rest := (group.map List.tail).filter (!·.isEmpty)
          let (next, states) := addStates depth rest states
          ((lo, hi, next) :: edges, states)
        | _ => (edges, states)) ([], states)
    if edges.isEmpty then (0, states)
    else
      match states.idxOf? edges with
      | some k => (states.length - k, states)
      | none => (states.length + 1, edges :: states)

def sharedLength : List ByteRange → List ByteRange → Nat
  | r :: rs, t :: ts => if r = t then sharedLength rs ts + 1 else 0
  | _, _ => 0

/-- The number of different beginnings of the sequences, given the sequence before them. -/
def countBeginnings (previous : List ByteRange) : List (List ByteRange) → Nat
  | [] => 0
  | s :: rest => s.length - sharedLength previous s + countBeginnings s rest

def footprint (forwards : Bool) (s : CharSet) : Nat :=
  match s.single? with
  | some c => 32 * c.utf8Size
  | none =>
    if s.isAscii then 64 + 8 * s.ranges.length
    else if forwards then
      32 + ((addStates 5 s.encodings []).2.map fun edges => 32 + 8 * edges.length).foldr (· + ·) 0
    else
      let sequences := s.encodings
      64 + 32 * countBeginnings [] sequences + 4 * sequences.length

end CharSet

namespace Pattern

/-- The footprint of a choice between texts, given as bytes: a tree in which equal beginnings are
one. A text that ends where others go on divides those before it from those behind it. -/
def wordsFootprint : Nat → List (List UInt8) → Nat
  | 0, _ => 0
  | depth + 1, words =>
    if words.all (·.isEmpty) then 0
    else
      let runs := (words.splitBy fun v w => v.isEmpty == w.isEmpty).filter fun run =>
        !run.all (·.isEmpty)
      let ends := words.countP (·.isEmpty)
      let runFootprint (run : List (List UInt8)) : Nat :=
        let leads := (run.filterMap List.head?).eraseDups
        32 + (if leads.length = 1 then 0 else 8 * leads.length) +
          (leads.map fun b =>
            wordsFootprint depth ((run.filter (·.head? == some b)).map List.tail)).foldr (· + ·) 0
      32 + 4 * (runs.length + ends) + (runs.map runFootprint).foldr (· + ·) 0

def encode (forwards : Bool) (cs : List Char) : List UInt8 :=
  let bytes := cs.flatMap String.utf8EncodeChar
  if forwards then bytes else bytes.reverse

def footprintIn (forwards : Bool) (setFootprint : CharSet → Nat) (branch : Bool) : Pattern → Nat
  | empty | anchor _ => if branch then 36 else 32
  | char set => setFootprint set + if branch then 4 else 0
  | concat p q =>
    footprintIn forwards setFootprint false p + footprintIn forwards setFootprint false q +
      if branch then 4 else 0
  | either p q =>
    match branch, (either p q).literals? with
    | false, some texts =>
      let words := texts.map (encode forwards)
      32 + wordsFootprint ((words.map List.length).foldl max 0 + 1) words
    | _, _ =>
      footprintIn forwards setFootprint true p + footprintIn forwards setFootprint true q +
        if branch then 0 else 64
  | repeated least most p =>
    let one := footprintIn forwards setFootprint false p
    let all := match least, most with
      | 0, some 1 => one + 72
      | 0, none => if (p.leastLength?.getD 0) = 0 then one + 112 else one + 40
      | least, none => least * one + 40
      | least, some most =>
        least * one + (if least = 0 then 32 else 0) +
          (if least = most then 0 else 32 + (most - least) * (one + 40))
    all + if branch then 4 else 0
  | group p =>
    footprintIn forwards setFootprint false p + (if forwards then 64 else 0) +
      if branch then 4 else 0

/-- The footprint of a search for the pattern. It may begin anywhere, unless the pattern has to
match at the very end from which the text is read. -/
def footprint (forwards : Bool) (p : Pattern) : Nat :=
  let known := tabulate p.sets (·.footprint forwards)
  let fixed := if forwards then p.beginsWith .textStart else p.endsWith .textEnd
  footprintIn forwards (fun set => (known.lookup set).getD 0) false p +
    (if fixed then 32 else 112) + (if forwards then 96 else 32)

def footprintLimit : Nat := 10 <<< 20

def isAffordable (p : Pattern) : Bool :=
  p.footprint true ≤ footprintLimit && p.footprint false ≤ footprintLimit

end Pattern

end SpanWeave
