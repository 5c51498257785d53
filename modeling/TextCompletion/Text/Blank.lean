/-!
White space as the Unicode property `White_Space` lists it, and cutting it from both ends of a text.
ASCII blanks alone are not enough: a setting read from the environment may carry a no-break space.
-/

namespace TextCompletion.Text

/-- The property `White_Space`, complete. -/
def isBlank (c : Char) : Bool :=
  let n := c.toNat
  (9 ≤ n && n ≤ 13) || n == 32 || n == 0x85 || n == 0xA0 || n == 0x1680 ||
    (0x2000 ≤ n && n ≤ 0x200A) || n == 0x2028 || n == 0x2029 || n == 0x202F || n == 0x205F ||
    n == 0x3000

def trim (s : String) : String :=
  String.ofList ((s.toList.dropWhile isBlank).reverse.dropWhile isBlank).reverse

def lowerAscii (s : String) : String :=
  String.ofList (s.toList.map Char.toLower)

end TextCompletion.Text
