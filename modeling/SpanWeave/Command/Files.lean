set_option autoImplicit false

/-!
# Files

What a file name leads to in a tree of directories. A name is the way to a file: the parts between
its slashes are gone through from the left, and only a directory can be gone into.
-/
namespace SpanWeave.Command

inductive FileState where
  | bytes (content : List UInt8)
  | missing
  | directory
  | unreadable (reason : String)
  deriving DecidableEq, Repr, Inhabited

def missingReason : String := "No such file or directory (os error 2)"

def forbiddenReason : String := "Permission denied (os error 13)"

def notDirectoryReason : String := "Not a directory (os error 20)"

def directoryReason : String := "Is a directory (os error 21)"

def tooLongReason : String := "File name too long (os error 36)"

/-- The parts of a file name may not have more bytes than this. -/
def partLimit : Nat := 255

def nameLimit : Nat := 4095

/-- A place in a tree: the names of the directories from the root to it, and its own. -/
abbrev FilePlace := List String

structure FileTree where
  files : List (FilePlace × List UInt8)
  directories : List FilePlace
  /-- Where names begin that do not begin at the root. -/
  current : FilePlace
  deriving DecidableEq, Repr, Inhabited

namespace FileTree

def at? (t : FileTree) (place : FilePlace) : FileState :=
  match t.files.lookup place with
  | some content => .bytes content
  | none =>
    let known := t.current :: (t.directories ++ t.files.map (·.1))
    if known.any place.isPrefixOf then .directory else .missing

def walk (t : FileTree) (place : FilePlace) : List String → FileState
  | [] => t.at? place
  | part :: parts =>
    match t.at? place with
    | .bytes _ => .unreadable notDirectoryReason
    | .directory =>
      if part = "" ∨ part = "." then t.walk place parts
      else if part = ".." then t.walk place.dropLast parts
      else if partLimit < part.utf8ByteSize then .unreadable tooLongReason
      else t.walk (place ++ [part]) parts
    | state => state

def find (t : FileTree) (name : String) : FileState :=
  let start := if name.toList.head? = some '/' then [] else t.current
  if name.isEmpty then .missing
  else if nameLimit < name.utf8ByteSize then .unreadable tooLongReason
  else t.walk start ((name.toList.splitOn '/').map String.ofList)

end FileTree

end SpanWeave.Command
