/-!
Binary floating-point formats and rounding an exact fraction into one of them.

A format is a number of fraction bits and a number of exponent bits. A magnitude is written as the
natural number that its bits spell, so that the order of magnitudes is the order of naturals and a
carry out of the fraction moves into the exponent by plain addition.
-/

namespace TextCompletion.Decimal

structure BinaryFormat where
  fractionBits : Nat
  exponentBits : Nat
  deriving DecidableEq, Repr

namespace BinaryFormat

def binary64 : BinaryFormat := ⟨52, 11⟩
def binary32 : BinaryFormat := ⟨23, 8⟩
def binary16 : BinaryFormat := ⟨10, 5⟩
/-- The upper half of a `binary32` word. -/
def brain16 : BinaryFormat := ⟨7, 8⟩

def bias (f : BinaryFormat) : Nat := Nat.pow 2 (f.exponentBits - 1) - 1

def minExponent (f : BinaryFormat) : Int := 1 - (f.bias : Int)

def infinity (f : BinaryFormat) : Nat := (Nat.pow 2 f.exponentBits - 1) * Nat.pow 2 f.fractionBits

def notANumber (f : BinaryFormat) : Nat := f.infinity + Nat.pow 2 (f.fractionBits - 1)

def signBit (f : BinaryFormat) : Nat := Nat.pow 2 (f.fractionBits + f.exponentBits)

end BinaryFormat

/-- The quotient to the nearest natural number; a half goes to the even neighbour. -/
def roundQuotient (num den : Nat) : Nat :=
  let q := num / den
  let r := num % den
  if 2 * r < den then q
  else if den < 2 * r then q + 1
  else if q % 2 = 0 then q else q + 1

/-- The whole exponent `e` with `2 ^ e ≤ num / den < 2 ^ (e + 1)`, for positive arguments. -/
def binaryExponent (num den : Nat) : Int :=
  let guess : Int := (num.log2 : Int) - den.log2
  let below :=
    if 0 ≤ guess then num < den * Nat.pow 2 guess.toNat else num * Nat.pow 2 (-guess).toNat < den
  if below then guess - 1 else guess

/-- The bits of the magnitude of the format that is nearest to the fraction, a tie going to the
even one. Too great a fraction becomes infinity. -/
def BinaryFormat.roundRatio (f : BinaryFormat) (num den : Nat) : Nat :=
  if num = 0 then 0
  else
    let e := max (binaryExponent num den) f.minExponent
    let unit : Int := e - f.fractionBits
    let steps :=
      if 0 ≤ unit then roundQuotient num (den * Nat.pow 2 unit.toNat)
      else roundQuotient (num * Nat.pow 2 (-unit).toNat) den
    min ((e - f.minExponent).toNat * Nat.pow 2 f.fractionBits + steps) f.infinity

/-- A finite magnitude as `significand * 2 ^ exponent`. -/
def BinaryFormat.split (f : BinaryFormat) (magnitude : Nat) : Nat × Int :=
  let fraction := magnitude % Nat.pow 2 f.fractionBits
  let field := magnitude / Nat.pow 2 f.fractionBits
  if field = 0 then (fraction, f.minExponent - f.fractionBits)
  else (fraction + Nat.pow 2 f.fractionBits, f.minExponent + (field : Int) - 1 - f.fractionBits)

def BinaryFormat.convert (source target : BinaryFormat) (bits : Nat) : Nat :=
  let magnitude := bits % source.signBit
  let sign := if source.signBit ≤ bits then target.signBit else 0
  if source.infinity < magnitude then target.notANumber
  else if magnitude = source.infinity then sign + target.infinity
  else
    let (significand, exponent) := source.split magnitude
    sign +
      (if 0 ≤ exponent then target.roundRatio (significand * Nat.pow 2 exponent.toNat) 1
       else target.roundRatio significand (Nat.pow 2 (-exponent).toNat))

def nearestSingle (x : Float) : Float32 :=
  Float32.ofBits (UInt32.ofNat (BinaryFormat.binary64.convert .binary32 x.toBits.toNat))

end TextCompletion.Decimal
