import WebSocketEcho.CommandLine.Arguments

/-!
# Help and usage errors

The texts of the command line: help in two lengths, the version, and the messages for arguments
that cannot be used.
-/

namespace WebSocketEcho.CommandLine

def programName : String := "ws-echo"

def versionText : String := programName ++ " 0.1.0\n"

def joinLines (lines : List String) : String := String.join (lines.map (· ++ "\n"))

/-- The usage line without its title. -/
def generalUsage : String := programName ++ " [OPTIONS]"

/-- What both lengths of help start with. -/
def helpHead : List String :=
  ["WebSocket echo server with a connection-count status page", "", "Usage: " ++ generalUsage, "",
    "Options:"]

/-- The short help: one line for each option. -/
def shortHelp : String :=
  joinLines (helpHead ++
    ["      --host <HOST>  IP address to bind the listener to [default: 0.0.0.0]",
      "  -p, --port <PORT>  TCP port for both the status page and the `/ws` endpoint [default: 9000]",
      "  -h, --help         Print help (see more with '--help')",
      "  -V, --version      Print version"])

def longHelp : String :=
  joinLines (helpHead ++
    ["      --host <HOST>",
      "          IP address to bind the listener to.",
      "          ",
      "          Use `0.0.0.0` to accept connections on every interface, or `127.0.0.1` for " ++
        "local connections only.",
      "          ",
      "          [default: 0.0.0.0]",
      "",
      "  -p, --port <PORT>",
      "          TCP port for both the status page and the `/ws` endpoint",
      "          ",
      "          [default: 9000]",
      "",
      "  -h, --help",
      "          Print help (see a summary with '-h')",
      "",
      "  -V, --version",
      "          Print version"])

def signedText (n : Int) : String := (if n < 0 then "-" else "") ++ Decimal.text n.natAbs

def PortFault.message : PortFault → String
  | .empty => "cannot parse integer from empty string"
  | .invalidDigit => "invalid digit found in string"
  | .tooLarge => "number too large to fit in target type"
  | .tooSmall => "number too small to fit in target type"
  | .outOfRange n => signedText n ++ " is not in 0..=65535"

def UsageError.message : UsageError → String
  | .unexpected argument _ _ => "unexpected argument '" ++ argument ++ "' found"
  | .valueMissing s =>
    "a value is required for '" ++ s.flag.shape ++ "' but none was supplied"
  | .repeated s => "the argument '" ++ s.flag.shape ++ "' cannot be used multiple times"
  | .invalidPort value why =>
    "invalid value '" ++ value ++ "' for '" ++ Flag.port.shape ++ "': " ++ why.message
  | .needlessValue value flag _ =>
    "unexpected value '" ++ value ++ "' for '" ++ flag.shape ++ "' found; no more were expected"

/-- The usage line that goes with some words, or the general one. -/
def usageLine (words : List String) : String :=
  "Usage: " ++
    (if words.isEmpty then generalUsage else " ".intercalate (programName :: words)) ++ "\n\n"

/-- All settings as alternatives. -/
def settingsShape : String := "<" ++ "|".intercalate [Flag.host.shape, Flag.port.shape] ++ ">"

/-- What stands between the message and the hint at the help. -/
def UsageError.details : UsageError → String
  | .unexpected _ similar shown =>
    (match similar with
      | some f => "  tip: a similar argument exists: '--" ++ f.name ++ "'\n\n"
      | none => "") ++ usageLine (shown.map Flag.shape)
  | .repeated _ => usageLine []
  | .needlessValue _ flag afterSettings =>
    usageLine (flag.shape :: if afterSettings then [settingsShape] else [])
  | .valueMissing _ | .invalidPort _ _ => ""

def UsageError.text (e : UsageError) : String :=
  "error: " ++ e.message ++ "\n\n" ++ e.details ++ "For more information, try '--help'.\n"

end WebSocketEcho.CommandLine
