import TextCompletion.Decimal.Binary

/-!
From logits to a token. The most likely token is the first of the greatest logits. A drawn token
comes from the softmax of the logits at a temperature, cut down to a nucleus where one is asked for:
the most likely tokens, taken until their mass reaches the given share. Sums run from left to right
in single precision, and so do cumulative masses.
-/

namespace TextCompletion

inductive DrawFault where
  | noLogits
  | noWeights
  | badWeight
  | allZero
  deriving DecidableEq, Repr

def DrawFault.message : DrawFault → String
  | .noLogits => "empty tensor for reduce"
  | .noWeights => "Weights sequence is empty/too long/unordered"
  | .badWeight => "A weight is negative, too large or not a valid number"
  | .allZero => "Not enough weights > zero"

namespace Distribution

/-- The place of the first greatest value from `place` on, given the best one before. Values that
are no numbers never win and, in the lead, are never beaten. -/
def argmaxFrom (best : Nat) (bestValue : Float32) (place : Nat) : List Float32 → Nat
  | [] => best
  | x :: xs =>
    if bestValue < x then argmaxFrom place x (place + 1) xs
    else argmaxFrom best bestValue (place + 1) xs

def argmax? : List Float32 → Option Nat
  | [] => none
  | x :: xs => some (argmaxFrom 0 x 1 xs)

def greater (x y : Float32) : Float32 :=
  if x.isNaN then y else if x < y then y else x

def greatest : List Float32 → Float32
  | [] => -(1 / 0)
  | x :: xs => xs.foldl greater x

def sum (xs : List Float32) : Float32 := xs.foldl (· + ·) 0

/-- Logits divided by a temperature, as a multiplication by its rounded inverse. -/
def scaled (temperature : Float) (logits : List Float32) : List Float32 :=
  let inverse := Decimal.nearestSingle (1 / temperature)
  logits.map fun x => x * inverse + 0

/-- The exponential of a number that is not above zero. That of zero, so of the greatest logit's own
distance, is 1 exactly; the others lie between zero and 1 and are held there. -/
def power (x : Float32) : Float32 :=
  if x.isNaN then x
  else if x == 0 then 1
  else
    let y := x.exp
    if 1 ≤ y then 1 else if 0 < y then y else 0

def softmax (logits : List Float32) : List Float32 :=
  let top := greatest logits
  let powers := logits.map fun x => power (x - top)
  let total := sum powers
  powers.map fun x => x / total

/-- A key whose order is that of the values: by size, and `-0` before `0`. -/
def orderKey (x : Float32) : Int :=
  let bits := x.toBits.toNat
  if bits < Nat.pow 2 31 then bits else -(bits - Nat.pow 2 31 : Int) - 1

def descending (weights : List Float32) : List (Float32 × Nat) :=
  weights.zipIdx.mergeSort fun x y => orderKey y.1 ≤ orderKey x.1

/-- The places at the head of a list up to the one at which the mass reaches the share. -/
def headUpTo (share : Float32) (mass : Float32) : List (Float32 × Nat) → List Nat
  | [] => []
  | (x, i) :: rest =>
    if share ≤ mass then [] else i :: headUpTo share (mass + x) rest

def nucleus (share : Float32) (weights : List Float32) : List Nat :=
  headUpTo share 0 (descending weights)

def cut (share : Float32) (weights : List Float32) : List Float32 :=
  let kept := nucleus share weights
  weights.zipIdx.map fun (x, i) => if kept.contains i then x else 0

def massBefore (mass : Float32) : List Float32 → List Float32
  | [] => []
  | x :: xs => mass :: massBefore (mass + x) xs

def totalWeight : List Float32 → Except DrawFault Float32
  | [] => .error .noWeights
  | x :: xs =>
    if (x :: xs).any fun w => !(0 ≤ w) then .error .badWeight
    else
      let total := xs.foldl (· + ·) x
      if total == 0 then .error .allZero else .ok total

/-- The place whose stretch of the total weight holds the point: so many places have all their mass
at or below it. -/
def locate (point : Float32) : List Float32 → Nat
  | [] => 0
  | x :: xs => ((massBefore x xs).filter fun mass => mass ≤ point).length

def draw (weights : List Float32) (part : Float32) : Except DrawFault Nat := do
  let total ← totalWeight weights
  pure (locate (part * total) weights)

end Distribution
end TextCompletion
