set_option autoImplicit false

/-!
# Help texts

What the command line says about itself.
-/
namespace SpanWeave.Command

def version : String := "hetrace 0.1.0\n"

def lines (ls : List String) : String := String.join (ls.map (· ++ "\n"))

def help : String := lines [
  "Heterogeneous CPU/GPU trace correlation engine",
  "",
  "Usage: hetrace [OPTIONS] <COMMAND>",
  "",
  "Commands:",
  "  replay       Replay a recorded JSON-lines callback stream",
  "  show-config  Print the effective configuration as TOML",
  "  help         Print this message or the help of the given subcommand(s)",
  "",
  "Options:",
  "      --debug          Enable debug tracing output to stderr",
  "      --config <FILE>  TOML configuration file",
  "  -h, --help           Print help",
  "  -V, --version        Print version"]

def showHelp : String := lines [
  "Print the effective configuration as TOML",
  "",
  "Usage: hetrace show-config [OPTIONS]",
  "",
  "Options:",
  "      --debug          Enable debug tracing output to stderr",
  "      --config <FILE>  TOML configuration file",
  "  -h, --help           Print help"]

def helpHelp : String := lines [
  "Print this message or the help of the given subcommand(s)",
  "",
  "Usage: hetrace help [COMMAND]...",
  "",
  "Arguments:",
  "  [COMMAND]...  Print help for the subcommand(s)"]

def replayOptions : List (String × String) :=
  [("      --debug", "Enable debug tracing output to stderr"),
   ("      --format <FORMAT>", "Output format (text or json)"),
   ("  -c, --summary", "Show aggregated durations instead of individual spans"),
   ("      --config <FILE>", "TOML configuration file"),
   ("      --critical-path", "Print the critical path after the spans"),
   ("      --skew-offset <NS>", "Device-to-host clock offset in nanoseconds"),
   ("      --workers <N>", "Deferred work pool size (0 = run at flush points)"),
   ("  -e, --expr <EXPR>",
    "Filter CPU API operations (e.g., -e trace=hipMemcpy,launch or -e exclude=/^hsa_/)"),
   ("      --activity-filter <EXPR>", "Filter device operation kinds (e.g., trace=DISPATCH)"),
   ("      --timeline", "Keep every aggregated sample as its own entry"),
   ("      --otlp-endpoint <URL>",
    "Export spans to an OTLP endpoint (e.g., http://localhost:4317)"),
   ("      --otlp-service-name <NAME>", "Service name reported to the OTLP endpoint")]

def shortNote (option : String) : String :=
  if option = "      --format <FORMAT>" then " [default: text] [possible values: text, json]"
  else if option = "      --otlp-service-name <NAME>" then " [default: hetrace]"
  else ""

def longNote (option : String) : List String :=
  if option = "      --format <FORMAT>" then
    ["", "          Possible values:",
     "          - text: Human-readable text format (default)",
     "          - json: JSON lines, one span per line",
     "          ", "          [default: text]"]
  else if option = "      --otlp-service-name <NAME>" then
    ["          ", "          [default: hetrace]"]
  else []

def replayHeading : List String :=
  ["Replay a recorded JSON-lines callback stream", "", "Usage: hetrace replay [OPTIONS] <INPUT>",
   "",
   "Arguments:"]

def helpColumn : Nat := 34

def replayShortHelp : String :=
  let line (option text : String) : String :=
    option ++ String.ofList (List.replicate (helpColumn - option.length) ' ') ++ text
  lines (replayHeading ++ ["  <INPUT>  Recorded event stream (JSON lines)", "", "Options:"] ++
    replayOptions.map (fun (option, text) => line option (text ++ shortNote option)) ++
    [line "  -h, --help" "Print help (see more with '--help')"])

def replayLongHelp : String :=
  let block (option text : String) : List String :=
    [option, "          " ++ text] ++ longNote option ++ [""]
  lines (replayHeading ++ block "  <INPUT>" "Recorded event stream (JSON lines)" ++ ["Options:"] ++
    replayOptions.flatMap (fun (option, text) => block option text) ++
    ["  -h, --help", "          Print help (see a summary with '-h')"])

end SpanWeave.Command
