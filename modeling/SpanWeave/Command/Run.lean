import SpanWeave.Command.Arguments
import SpanWeave.Command.Files
import SpanWeave.Settings.Document
import SpanWeave.Settings.Environment
import SpanWeave.Recorded.Document
import SpanWeave.Replay
import SpanWeave.Json.Writer

set_option autoImplicit false

/-!
# Running a request

What the program prints for a request, as a function of the files and variables that it may see.
Settings come from a document or the defaults, then from the environment, then from the options.
-/
namespace SpanWeave.Command

structure World where
  file : String → FileState
  env : String → Option String

structure Failure where
  message : String
  causes : List String := []
  deriving DecidableEq, Repr, Inhabited

namespace Failure

def chain (f : Fault) : List String :=
  match f with
  | .file reason => [f.message, reason]
  | f => [f.message]

def ofFault (f : Fault) : Failure :=
  match chain f with
  | message :: causes => { message, causes }
  | [] => { message := f.message }

def render (f : Failure) : String :=
  let cause (i : Nat) (c : String) : String :=
    if f.causes.length = 1 then "\n    " ++ c else "\n    " ++ toString i ++ ": " ++ c
  "Error: " ++ f.message ++
    (if f.causes.isEmpty then "" else "\n\nCaused by:") ++
    String.join (f.causes.zipIdx.map fun (c, i) => cause i c) ++ "\n"

end Failure

/-- The bytes of a file that could be opened. A directory can be opened but not read. -/
def contentOf (s : FileState) : Except Fault (List UInt8) :=
  match s with
  | .bytes content => .ok content
  | .missing => .error (.file missingReason)
  | .directory => .error (.file directoryReason)
  | .unreadable reason => .error (.file reason)

def readSettings (w : World) (path : String) : Except Fault Settings := do
  let content ← contentOf (w.file path)
  match String.fromUTF8? ⟨content.toArray⟩ with
  | some document => Settings.read document
  | none => .error .notUtf8

def loadSettings (w : World) (config : Option String) : Except Failure Settings := do
  let s ← match config with
    | none => .ok {}
    | some path => (readSettings w path).mapError fun f =>
        { message := "failed to load config " ++ path, causes := Failure.chain f }
  (s.override w.env).mapError Failure.ofFault

def applyOptions (o : ReplayOptions) (s : Settings) : Settings :=
  { s with
    workers := o.workers.getD s.workers
    callFilter := o.callFilter.orElse fun _ => s.callFilter
    activityFilter := o.activityFilter.orElse fun _ => s.activityFilter
    timeline := o.timeline || s.timeline }

def openInput (w : World) (path : String) : Except Failure (List UInt8) :=
  match w.file path with
  | .missing => .error ⟨"failed to open " ++ path, [missingReason]⟩
  | .unreadable reason => .error ⟨"failed to open " ++ path, [reason]⟩
  | s => (contentOf s).mapError Failure.ofFault

def pathReport (p : Option CriticalPath) : String :=
  match p with
  | some p =>
    if p.nodes.isEmpty then "\nNo critical path (critical trace disabled or empty)\n"
    else "\n=== Critical Path ===\n" ++ " -> ".intercalate p.names ++ "\nTotal duration: " ++
      toString p.total ++ " ns\n"
  | none => "\nNo critical path (critical trace disabled or empty)\n"

def spanLine (f : Format) (s : Span) : String :=
  match f with
  | .text => s.render ++ "\n"
  | .json => Json.compact s.toJson ++ "\n"

def report (o : ReplayOptions) (r : ReplayResult) : String :=
  (if o.summary then r.durations.summary else String.join (r.spans.map (spanLine o.format))) ++
    (if o.criticalPath then pathReport r.path else "")

def runReplay (w : World) (s : Settings) (o : ReplayOptions) : Except Failure String := do
  let s := applyOptions o s
  let content ← openInput w o.input
  let events ← (Recorded.read content).mapError Failure.ofFault
  if o.exportTo.isSome then
    .error { message := "OTLP support not compiled in. Enable the 'otlp' feature." }
  else
    let r ← (Replay.start s o.skewOffset).mapError Failure.ofFault
    let result ← (r.all events).finish.mapError fun f => { message := f.message }
    .ok (report o result)

def showSettings (s : Settings) : Except Failure String :=
  match s.write? with
  | some text => .ok text
  | none => .error { message := "out-of-range value for u64 type" }

structure Ending where
  code : UInt8
  output : String := ""
  complaint : String := ""
  deriving DecidableEq, Repr, Inhabited

def Ending.of (r : Except Failure String) : Ending :=
  match r with
  | .ok output => { code := 0, output }
  | .error f => { code := 1, complaint := f.render }

def refusal : String := "error: invalid arguments\n\nFor more information, try '--help'.\n"

def run (w : World) (args : List String) : Ending :=
  match parse args with
  | .say text => { code := 0, output := text }
  | .refused => { code := 2, complaint := refusal }
  | .replay config o => .of do runReplay w (← loadSettings w config) o
  | .showSettings config => .of do showSettings (← loadSettings w config)

def filesOf (r : Request) : List String :=
  match r with
  | .replay config o => config.toList ++ [o.input]
  | .showSettings config => config.toList
  | _ => []

def variablesOf : List String :=
  [Settings.useClockSkewVariable, Settings.skewIterationsVariable, Settings.workersVariable,
   Settings.timelineVariable, Settings.flatVariable, Settings.callFilterVariable,
   Settings.lapRetentionVariable]

end SpanWeave.Command
