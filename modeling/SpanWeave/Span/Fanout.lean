import SpanWeave.Span.Recorder

set_option autoImplicit false

/-!
# Fan-out

Receivers of markers, and a list of receivers that each get every marker in turn. A journal is a
receiver that only writes down begins and ends.
-/
namespace SpanWeave

inductive Receiver where
  | recorder (recorder : Recorder)
  | journal (lines : Array String)

namespace Receiver

def beginSpan (start : SpanStart) : Receiver → Receiver
  | .recorder r => .recorder (r.beginSpan start)
  | .journal lines => .journal (lines.push ("begin " ++ start.name ++ " " ++ toString start.time))

def endSpan (track : Track) (time : Nanos) : Receiver → Receiver
  | .recorder r => .recorder (r.endSpan track time)
  | .journal lines =>
    .journal (lines.push ("end " ++ Json.compact track.toJson ++ " " ++ toString time))

def discardSpan (track : Track) : Receiver → Receiver
  | .recorder r => .recorder (r.discardSpan track)
  | .journal lines => .journal lines

def completeSpan (start : SpanStart) (endsAt : Nanos) : Receiver → Receiver
  | .recorder r => .recorder (r.completeSpan start endsAt)
  | .journal lines => ((Receiver.journal lines).beginSpan start).endSpan start.track endsAt

end Receiver

abbrev Fanout := List Receiver

namespace Fanout

def beginSpan (f : Fanout) (start : SpanStart) : Fanout := f.map (Receiver.beginSpan start)

def endSpan (f : Fanout) (track : Track) (time : Nanos) : Fanout :=
  f.map (Receiver.endSpan track time)

def discardSpan (f : Fanout) (track : Track) : Fanout := f.map (Receiver.discardSpan track)

def completeSpan (f : Fanout) (start : SpanStart) (endsAt : Nanos) : Fanout :=
  f.map (Receiver.completeSpan start endsAt)

end Fanout

end SpanWeave
