import Spillway.Hex
/-!
Writing JSON without blanks: strings with their escapes, and objects with their members in the given
order.
-/

namespace Spillway.Json

/-- A character as it stands inside a written string: quotes, backslashes and control characters are
escaped, everything else stands for itself. -/
def escape (c : Char) : List Char :=
  if c = '"' then ['\\', '"']
  else if c = '\\' then ['\\', '\\']
  else if c = '\x08' then ['\\', 'b']
  else if c = '\x0c' then ['\\', 'f']
  else if c = '\n' then ['\\', 'n']
  else if c = '\r' then ['\\', 'r']
  else if c = '\t' then ['\\', 't']
  else if c < ' ' then ['\\', 'u'] ++ Hex.ofNat 4 c.toNat
  else [c]

/-- A string as a JSON value. -/
def quote (s : String) : String :=
  String.ofList ('"' :: s.toList.flatMap escape ++ ['"'])

/-- An object whose members are given as names and written values. -/
def object (members : List (String × String)) : String :=
  "\x7b" ++ String.intercalate "," (members.map fun m => quote m.1 ++ ":" ++ m.2) ++ "\x7d"

def number (n : Nat) : String := toString n

def bool (b : Bool) : String := if b then "true" else "false"

end Spillway.Json
