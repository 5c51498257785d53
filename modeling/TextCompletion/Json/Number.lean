import TextCompletion.Decimal.Reading
import TextCompletion.Json.Reader

/-!
Numbers. A whole number that fits 64 bits is kept exactly; any other becomes a binary fraction, and
one beyond the greatest of those is a fault. The fraction is formed from the leading digits that
fit 64 bits and a power of ten, so it is not always the nearest one.
-/

namespace TextCompletion.Json

inductive Number where
  | natural (n : Nat)
  | negative (n : Int)
  | decimal (x : Float)
  deriving DecidableEq

def Number.found : Number → Found
  | .natural n => .natural n
  | .negative n => .negative n
  | .decimal x => .decimal x

def wordToFloat (n : Nat) : Float := (UInt64.ofNat n).toFloat

def Number.toFloat : Number → Float
  | .natural n => wordToFloat n
  | .negative n => -(wordToFloat n.natAbs)
  | .decimal x => x

def isDigit (b : UInt8) : Bool := 48 ≤ b && b ≤ 57

def powerOfTen (n : Nat) : Float := (Decimal.Numeral.finite false 1 n).toFloat

/-- Multiplied or divided by ten to the exponent, at most 308 powers at once; `none` above the
greatest finite fraction. -/
def scale? : Nat → Float → Int → Option Float
  | 0, x, _ => some x
  | fuel + 1, x, e =>
    if e.natAbs ≤ 308 then
      if 0 ≤ e then
        let y := x * powerOfTen e.natAbs
        if y.isInf then none else some y
      else some (x / powerOfTen e.natAbs)
    else if x == 0 then some x
    else if 0 ≤ e then none
    else scale? fuel (x / powerOfTen 308) (e + 308)

/-- Two rounds bring every significand to zero. -/
def fraction? (negative : Bool) (significand : Nat) (e : Int) : Option Float :=
  (scale? 4 (wordToFloat significand) e).map fun x => if negative then -x else x

namespace Reader

/-- The value of the digits at the cursor added to `n`, as long as it fits 64 bits, and how many
digits were used. -/
def digits (n : Nat) : Reader (Nat × Nat) := fun c => go n 0 c.rest c.position
where
  go : Nat → Nat → List UInt8 → Position → EStateM.Result Fault Cursor (Nat × Nat)
    | n, count, [], p => .ok (n, count) ⟨[], p⟩
    | n, count, b :: rest, p =>
      if isDigit b && n * 10 + (b.toNat - 48) ≤ Decimal.wordBound then
        go (n * 10 + (b.toNat - 48)) (count + 1) rest (p.after b)
      else .ok (n, count) ⟨b :: rest, p⟩

def skipDigits : Reader Nat := fun c =>
  let after := c.skipWhile isDigit
  .ok (c.rest.length - after.rest.length) after

def peekDigit : Reader Bool := do
  match ← peek with
  | some b => pure (isDigit b)
  | none => pure false

def peekExponentMark : Reader Bool := do
  match ← peek with
  | some b => pure (b == 101 || b == 69)
  | none => pure false

def finish (negative : Bool) (significand : Nat) (e : Int) : Reader Number := do
  match fraction? negative significand e with
  | some x => pure (.decimal x)
  | none => failHere .numberOutOfRange

def exponentBound : Nat := Nat.pow 2 31 - 1

def exponentDigits (n : Nat) : Reader (Option Nat) := fun c => go n c.rest c.position
where
  go : Nat → List UInt8 → Position → EStateM.Result Fault Cursor (Option Nat)
    | n, [], p => .ok (some n) ⟨[], p⟩
    | n, b :: rest, p =>
      if isDigit b then
        if n * 10 + (b.toNat - 48) ≤ exponentBound then
          go (n * 10 + (b.toNat - 48)) rest (p.after b)
        else .ok none ⟨rest, p.after b⟩
      else .ok (some n) ⟨b :: rest, p⟩

def exponentSign : Reader Bool := do
  match ← peek with
  | some 43 => do advance; pure false
  | some 45 => do advance; pure true
  | _ => pure false

def exponentPart (negative : Bool) (significand : Nat) (start : Int) : Reader Number := do
  advance
  let down ← exponentSign
  match ← next with
  | none => failHere .endOfValue
  | some b =>
    if isDigit b then
      match ← exponentDigits (b.toNat - 48) with
      | some n => finish negative significand (if down then start - n else start + n)
      | none =>
        if significand ≠ 0 ∧ down = false then failHere .numberOutOfRange
        else
          let _ ← skipDigits
          pure (.decimal (if negative then -0.0 else 0.0))
    else failHere .invalidNumber

/-- The decimals, whose point comes next. Digits that no longer fit are passed and do not count. -/
def fractionPart (negative : Bool) (significand : Nat) (start : Int) : Reader Number := do
  advance
  let (significand, count) ← digits significand
  let dropped ← skipDigits
  if count = 0 ∧ dropped = 0 then
    match ← peek with
    | some _ => failNext .invalidNumber
    | none => failNext .endOfValue
  else if ← peekExponentMark then exponentPart negative significand (start - count)
  else finish negative significand (start - count)

/-- A number without its sign. Digits that no longer fit 64 bits count as zeros. -/
def unsigned (negative : Bool) : Reader Number := do
  match ← next with
  | none => failHere .endOfValue
  | some b =>
    if b = 48 then
      if ← peekDigit then failNext .invalidNumber else afterDigits 0 0
    else if isDigit b then
      let (n, _) ← digits (b.toNat - 48)
      let dropped ← skipDigits
      afterDigits n dropped
    else failHere .invalidNumber
where
  afterDigits (n dropped : Nat) : Reader Number := do
    match ← peek with
    | some 46 => fractionPart negative n dropped
    | some b => if b = 101 ∨ b = 69 then exponentPart negative n dropped else whole n dropped
    | none => whole n dropped
  whole (n dropped : Nat) : Reader Number := do
    if dropped ≠ 0 then finish negative n dropped
    else if negative then
      if n = 0 ∨ Nat.pow 2 63 < n then pure (.decimal (-(wordToFloat n)))
      else pure (.negative (-(n : Int)))
    else pure (.natural n)

def skipUnsigned : Reader Unit := do
  match ← next with
  | some b =>
    if b = 48 then
      if ← peekDigit then failNext .invalidNumber else rest
    else if isDigit b then
      let _ ← skipDigits
      rest
    else failHere .invalidNumber
  | none => failHere .invalidNumber
where
  rest : Reader Unit := do
    match ← peek with
    | some 46 =>
      advance
      if (← skipDigits) = 0 then failNext .invalidNumber
      else if ← peekExponentMark then exponent
    | some b => if b = 101 ∨ b = 69 then exponent
    | none => pure ()
  exponent : Reader Unit := do
    advance
    let _ ← exponentSign
    match ← next with
    | some b => if isDigit b then do let _ ← skipDigits else failHere .invalidNumber
    | none => failHere .invalidNumber

end Reader
end TextCompletion.Json
