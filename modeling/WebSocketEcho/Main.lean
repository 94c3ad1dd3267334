import WebSocketEcho.CommandLine

/-!
# The program

Reads the arguments and the log filter from the environment, and prints what a run leaves behind.
There is no network here, so a start always ends as it does where every address is taken.
-/

namespace WebSocketEcho

/-- Runs the program and prints its output. -/
def runProgram (arguments : List String) : IO UInt32 := do
  let output := CommandLine.run arguments (← IO.getEnv "RUST_LOG")
  IO.print output.out
  IO.eprint output.err
  return UInt32.ofNat output.code

end WebSocketEcho

def main (arguments : List String) : IO UInt32 := WebSocketEcho.runProgram arguments
