/-!
How alike two words are, between 0 and 1: letters match when they are equal and not too far apart,
and matching letters that stand in another order count against it.
-/

namespace TextCompletion.Text

def claim (c : Char) (low high : Nat) (word : Array Char) (taken : Array Bool) : Option Nat :=
  (List.range word.size).find? fun j =>
    low ≤ j && j < high && word.getD j ' ' == c && !taken.getD j true

/-- The letters of the first word that match, and which places of the second word they take. -/
def matchLetters (range : Nat) (b : Array Char) :
    Nat → List Char → Array Bool → List Char × Array Bool
  | _, [], taken => ([], taken)
  | i, c :: rest, taken =>
    match claim c (i - range) (i + range + 1) b taken with
    | none => matchLetters range b (i + 1) rest taken
    | some j =>
      let (found, taken) := matchLetters range b (i + 1) rest (taken.setIfInBounds j true)
      (c :: found, taken)

def similarity (a b : String) : Float :=
  let left := a.toList
  let right := b.toList.toArray
  if left.isEmpty && right.isEmpty then 1
  else
    let range := max left.length right.size / 2 - 1
    let (found, taken) := matchLetters range right 0 left (Array.replicate right.size false)
    let other := (right.toList.zip taken.toList).filterMap fun (c, t) => if t then some c else none
    if found.isEmpty then 0
    else
      let moved := ((found.zip other).filter fun (c, d) => c != d).length / 2
      let n := Nat.toFloat found.length
      (n / Nat.toFloat left.length + n / Nat.toFloat right.size +
        Nat.toFloat (found.length - moved) / n) / 3

end TextCompletion.Text
