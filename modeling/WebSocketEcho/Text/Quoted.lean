import WebSocketEcho.Text.Unprintable

/-!
# Quoted text

Text for a log or an error message: in double quotes, with an escape for everything that would not
be seen as it is.
-/

namespace WebSocketEcho.Text

def hex (n : Nat) : List Char := Nat.toDigits 16 n

/-- One character inside quotes.  Single quotes stay as they are. -/
def quoteChar (c : Char) : List Char :=
  if c = '\x00' then ['\\', '0']
  else if c = '\t' then ['\\', 't']
  else if c = '\r' then ['\\', 'r']
  else if c = '\n' then ['\\', 'n']
  else if c = '"' then ['\\', '"']
  else if c = '\\' then ['\\', '\\']
  else if isUnprintable c then ['\\', 'u', '\x7b'] ++ hex c.toNat ++ ['\x7d']
  else [c]

def quote (cs : List Char) : String := String.ofList ('"' :: cs.flatMap quoteChar ++ ['"'])

end WebSocketEcho.Text
