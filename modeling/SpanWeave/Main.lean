import SpanWeave.Command.Run

set_option autoImplicit false

/-!
# The program

Looks up the files and variables that the request may see, and prints what comes of it.
-/
namespace SpanWeave.Main
open Command

def stateOf (e : IO.Error) : FileState :=
  match e with
  | .noFileOrDirectory .. => .missing
  | .inappropriateType _ _ "not a directory" => .unreadable notDirectoryReason
  | .inappropriateType .. => .directory
  | .invalidArgument _ _ "name too long" => .unreadable tooLongReason
  | .permissionDenied .. => .unreadable forbiddenReason
  | e => .unreadable (toString e)

def look (name : String) : IO FileState := do
  try return .bytes (← IO.FS.readBinFile name).toList
  catch e => return stateOf e

end SpanWeave.Main

def main (args : List String) : IO UInt32 := do
  let files ← (SpanWeave.Command.filesOf (SpanWeave.Command.parse args)).mapM fun name => do
    return (name, ← SpanWeave.Main.look name)
  let values ← SpanWeave.Command.variablesOf.mapM fun name => do
    return (name, ← IO.getEnv name)
  let ending := SpanWeave.Command.run
    { file := fun name => (files.lookup name).getD .missing
      env := fun name => (values.lookup name).join } args
  IO.print ending.output
  IO.eprint ending.complaint
  return ending.code.toUInt32
