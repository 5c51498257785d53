import TextCompletion.Text.Quoted

/-!
Writing strings and flat objects of strings, without blanks. Quotes, backslashes and controls are
escaped, by a letter where there is one and else by four digits; every other character is written
as itself.
-/

namespace TextCompletion.Json.Printer

def escape (c : Char) : List Char :=
  if c = '"' then ['\\', '"']
  else if c = '\\' then ['\\', '\\']
  else if c = '\x08' then ['\\', 'b']
  else if c = '\x0c' then ['\\', 'f']
  else if c = '\n' then ['\\', 'n']
  else if c = '\r' then ['\\', 'r']
  else if c = '\t' then ['\\', 't']
  else if c.toNat < 32 then
    ['\\', 'u', '0', '0', Nat.digitChar (c.toNat / 16), Nat.digitChar (c.toNat % 16)]
  else [c]

def text (s : String) : List Char :=
  '"' :: s.toList.flatMap escape ++ ['"']

def member (key value : String) : List Char :=
  text key ++ ':' :: text value

def object (members : List (String × String)) : String :=
  String.ofList
    ('\x7b' :: List.intercalate [','] (members.map fun m => member m.1 m.2) ++ ['\x7d'])

end TextCompletion.Json.Printer
