import WebSocketEcho.CommandLine.Filter
import WebSocketEcho.CommandLine.Usage
import WebSocketEcho.Server

/-!
# The command line

What the program prints, and the code it ends with, when it is started where every address is
taken: its arguments are read, its address is put together, and listening on it fails.
-/

namespace WebSocketEcho.CommandLine

/-- What a run of the program leaves behind. -/
structure Output where
  code : Nat
  out : String
  err : String
deriving DecidableEq, Repr

def settings (host : String) (port : UInt16) : Except StartFailure Settings :=
  match IpAddress.ofChars? host.toList with
  | some ip => .ok ⟨⟨ip, port⟩⟩
  | none => .error (.badHost host)

/-- The settings of the arguments, every interface and the default port where none is given. -/
def Arguments.settings (a : Arguments) : Except StartFailure Settings :=
  CommandLine.settings (a.host.getD "0.0.0.0") (a.port.getD defaultPort)

/-- The target of the program's own log line. -/
def logTarget : String := "ws_echo"

/-- The line that announces a start, if the filter lets it through. -/
def announcement (filter : Option String) (s : Settings) : String :=
  if filterAdmits filter logTarget .info then
    " INFO " ++ logTarget ++ ": " ++ programName ++ " starting on " ++ s.bind.text ++ "\n"
  else ""

/-- What is printed instead of a start. -/
def Stop.output : Stop → Output
  | .help long => ⟨0, if long then longHelp else shortHelp, ""⟩
  | .version => ⟨0, versionText, ""⟩
  | .error e => ⟨2, "", e.text⟩

/-- A start with settings, where the address is taken. -/
def start (filter : Option String) (s : Settings) : Output :=
  let out := announcement filter s
  match Server.listen s true with
  | .ok _ => ⟨0, out, ""⟩
  | .error failure => ⟨1, out, failure.report⟩

def run (arguments : List String) (filter : Option String) : Output :=
  match Arguments.read arguments with
  | .error stop => stop.output
  | .ok a =>
    match a.settings with
    | .error failure => ⟨1, "", failure.report⟩
    | .ok s => start filter s

end WebSocketEcho.CommandLine
