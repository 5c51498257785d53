import TextCompletion.Text.Unprintable

/-!
Quoted text for messages: between double quotes, with a backslash before quotes and backslashes, a
letter for the common controls, and the number in braces for what has no shape of its own.
-/

namespace TextCompletion.Text

def hexText (n : Nat) : String := String.ofList (Nat.toDigits 16 n)

def escapeCharacter (c : Char) : String :=
  if c = '\x00' then "\\0"
  else if c = '\t' then "\\t"
  else if c = '\r' then "\\r"
  else if c = '\n' then "\\n"
  else if c = '"' then "\\\""
  else if c = '\\' then "\\\\"
  else if isUnprintable c then "\\u\x7b" ++ hexText c.toNat ++ "\x7d"
  else c.toString

def quote (s : String) : String :=
  "\"" ++ String.join (s.toList.map escapeCharacter) ++ "\""

end TextCompletion.Text
