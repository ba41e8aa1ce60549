set_option autoImplicit false

/-!
# Faults

The ways in which setting up, tearing down, configuring or replaying a trace can fail. Conditions
met while live events are being correlated are not faults; they are counted where they happen.
-/
namespace SpanWeave

inductive FilterFault where
  | badPattern (pattern : String)
  | unknownClause (clause : String)
  | noClause
  deriving DecidableEq, Repr, Inhabited

def FilterFault.message : FilterFault → String
  | .badPattern pattern => "bad regex /" ++ pattern ++ "/"
  | .unknownClause clause => clause ++ ". Expected trace=SPEC or exclude=SPEC"
  | .noClause => "empty expression"

inductive SettingsFault where
  | unreadable
  | notBoolean (name value : String)
  | notInteger (name value : String)
  | noIterations
  | noRetention
  | custom (reason : String)
  deriving DecidableEq, Repr, Inhabited

def SettingsFault.message : SettingsFault → String
  | .unreadable => "TOML parse error"
  | .notBoolean name value => name ++ " expects a boolean, got '" ++ value ++ "'"
  | .notInteger name value => name ++ " expects an integer, got '" ++ value ++ "'"
  | .noIterations => "skew_iterations must be >= 1"
  | .noRetention => "bounded lap retention needs max_entries >= 1"
  | .custom reason => reason

inductive Fault where
  | clockUnavailable (reason : String)
  | enableFailed (domain reason : String)
  | disableFailed (domain reason : String)
  | badFilter (cause : FilterFault)
  | badSettings (cause : SettingsFault)
  | inactive
  | undecodable (line : Nat)
  | file (reason : String)
  deriving DecidableEq, Repr, Inhabited

def Fault.message : Fault → String
  | .clockUnavailable reason => "Timestamp source unavailable: " ++ reason
  | .enableFailed domain reason => "Trace source failed to enable " ++ domain ++ ": " ++ reason
  | .disableFailed domain reason => "Trace source failed to disable " ++ domain ++ ": " ++ reason
  | .badFilter cause => "Invalid operation filter: " ++ cause.message
  | .badSettings cause => "Invalid configuration: " ++ cause.message
  | .inactive => "Session is not active"
  | .undecodable line => "Replay decode error at line " ++ toString line
  | .file reason => "IO error: " ++ reason

def Fault.notUtf8 : Fault := .file "stream did not contain valid UTF-8"

inductive Warning where
  | skewUnavailable (cause : Fault)
  | jobFailed
  | queueGrowing
  | enableFailed (cause : Fault)
  | disableFailed (cause : Fault)
  | routineFailed (cause : Fault)
  | routineAborted
  | forestDefect
  deriving DecidableEq, Repr, Inhabited

def Warning.message : Warning → String
  | .skewUnavailable cause => "clock skew unavailable, using offset 0: " ++ cause.message
  | .jobFailed => "deferred job panicked; continuing"
  | .queueGrowing => "deferred work queue is growing; device activity outpaces flush points"
  | .enableFailed cause => "enable failed: " ++ cause.message
  | .disableFailed cause => "disable failed: " ++ cause.message
  | .routineFailed cause => "routine failed: " ++ cause.message
  | .routineAborted => "routine panicked"
  | .forestDefect => "span forest violation"

end SpanWeave
