import SpanWeave.Recorded
import SpanWeave.Fault
import SpanWeave.Json.Reader
import SpanWeave.Text.Blank

set_option autoImplicit false

/-!
# Recorded documents

A document holds one event a line. Lines that are blank or begin with a number sign are passed over,
but they count when a faulty line is named by its number.
-/
namespace SpanWeave.Recorded
open Text

/-- The lines of a document, without their line feeds. A line feed at the end begins no line. -/
def lines (document : List UInt8) : List (List UInt8) :=
  let parts := document.splitOn 10
  if parts.getLast? = some [] then parts.dropLast else parts

def lineText? (line : List UInt8) : Option String :=
  let line := if line.getLast? = some 13 then line.dropLast else line
  String.fromUTF8? ⟨line.toArray⟩

def isComment (s : String) : Bool := s.toList.head? == some '#'

def readLine (number : Nat) (line : List UInt8) : Except Fault (Option RecordedEvent) :=
  match lineText? line with
  | none => .error .notUtf8
  | some text =>
    let text := trim text
    if text.isEmpty || isComment text then .ok none
    else
      match (Json.parse text).bind RecordedEvent.ofJson with
      | some event => .ok (some event)
      | none => .error (.undecodable number)

/-- The events of a document; of several faulty lines the first one counts. -/
def read (document : List UInt8) : Except Fault (List RecordedEvent) := do
  let events ← (lines document).zipIdx.mapM fun (line, i) => readLine (i + 1) line
  return events.filterMap id

end SpanWeave.Recorded
