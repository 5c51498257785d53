import TextCompletion.Decimal.Binary

/-!
The fewest decimal digits that read back as a given binary value, and layouts that write them.

A finite positive value of a binary format stands for all reals that round to it. Of the decimal
grids `10 ^ k`, from coarse to fine, the first one with a point in that interval gives the digits;
it is enough to try the two grid points next to the value, and of two hits the nearer is taken.
-/

namespace TextCompletion.Decimal

structure Digits where
  digits : Nat
  exponent : Int
  deriving DecidableEq, Repr

/-- The reals that round to one binary value, as fractions over one denominator. The ends belong to
it when the significand is even. -/
structure RoundingInterval where
  low : Nat
  value : Nat
  high : Nat
  den : Nat
  closed : Bool

/-- The interval of a finite positive magnitude. Below a power of two the neighbour is half as far,
except at the least normal exponent. -/
def BinaryFormat.interval (f : BinaryFormat) (magnitude : Nat) : RoundingInterval :=
  let (m, e) := f.split magnitude
  let narrow := m = Nat.pow 2 f.fractionBits ∧ f.minExponent - f.fractionBits < e
  let scale (n : Nat) : Nat := if 0 ≤ e then n * Nat.pow 2 e.toNat else n
  let den := if 0 ≤ e then 4 else 4 * Nat.pow 2 (-e).toNat
  { low := scale (4 * m - if narrow then 1 else 2)
    value := scale (4 * m)
    high := scale (4 * m + 2)
    den
    closed := m % 2 = 0 }

/-- The fraction `n * 10 ^ k` compared over the interval's denominator: its numerator, and the
factor by which the interval's own numerators grow. -/
def RoundingInterval.holds (i : RoundingInterval) (n : Nat) (k : Int) : Bool :=
  let p := if 0 ≤ k then n * Nat.pow 10 k.toNat * i.den else n * i.den
  let s := if 0 ≤ k then 1 else Nat.pow 10 (-k).toNat
  if i.closed then i.low * s ≤ p && p ≤ i.high * s else i.low * s < p && p < i.high * s

def RoundingInterval.floorOn (i : RoundingInterval) (k : Int) : Nat :=
  if 0 ≤ k then i.value / (i.den * Nat.pow 10 k.toNat) else i.value * Nat.pow 10 (-k).toNat / i.den

/-- Whether the grid point below is strictly nearer than the one above; a tie goes to the even. -/
def RoundingInterval.lowerIsNearer (i : RoundingInterval) (n : Nat) (k : Int) : Bool :=
  let v := if 0 ≤ k then 2 * i.value else 2 * i.value * Nat.pow 10 (-k).toNat
  let mid := (2 * n + 1) * (if 0 ≤ k then i.den * Nat.pow 10 k.toNat else i.den)
  v < mid || (v == mid && n % 2 == 0)

def RoundingInterval.pick? (i : RoundingInterval) (k : Int) : Option Nat :=
  let n := i.floorOn k
  match i.holds n k && n != 0, i.holds (n + 1) k with
  | true, true => some (if i.lowerIsNearer n k then n else n + 1)
  | true, false => some n
  | false, true => some (n + 1)
  | false, false => none

def RoundingInterval.search (i : RoundingInterval) : Nat → Int → Digits
  | 0, k => ⟨i.floorOn k, k⟩
  | count + 1, k =>
    match i.pick? k with
    | some n => ⟨n, k⟩
    | none => i.search count (k - 1)

def decimalBound (num den : Nat) : Int :=
  let e := binaryExponent num den + 1
  if 0 ≤ e then e * 30103 / 100000 + 1 else e * 30102 / 100000 + 1

def Digits.strip : Nat → Digits → Digits
  | 0, d => d
  | fuel + 1, d =>
    if d.digits % 10 = 0 ∧ d.digits ≠ 0 then strip fuel ⟨d.digits / 10, d.exponent + 1⟩ else d

/-- The shortest digits of a finite positive magnitude. Eighteen digits tell any two values of
`binary64` apart, and the first grid may lie two above the value. -/
def BinaryFormat.shortest (f : BinaryFormat) (magnitude : Nat) : Digits :=
  let i := f.interval magnitude
  (i.search 21 (decimalBound i.value i.den)).strip 400

/-- How digits become text: which exponents of the leading digit are written positionally, and the
mark after `e` for an exponent that is not negative. -/
structure Layout where
  least : Int
  greatest : Int
  plusSign : Bool

def Layout.log : Layout := ⟨-4, 15, false⟩

def Layout.document : Layout := ⟨-5, 15, true⟩

def zeros (n : Nat) : String := String.ofList (List.replicate n '0')

/-- The text of positive digits. A positional text always has a point. -/
def Layout.render (l : Layout) (d : Digits) : String :=
  let ds := toString d.digits
  let lead : Int := d.exponent + ds.length - 1
  if l.least ≤ lead ∧ lead ≤ l.greatest then
    if 0 ≤ d.exponent then ds ++ zeros d.exponent.toNat ++ ".0"
    else if 0 ≤ lead then
      let n := lead.toNat + 1
      String.ofList (ds.toList.take n) ++ "." ++ String.ofList (ds.toList.drop n)
    else "0." ++ zeros (-lead - 1).toNat ++ ds
  else
    let fraction := String.ofList (ds.toList.drop 1)
    String.ofList (ds.toList.take 1) ++ (if fraction.isEmpty then "" else "." ++ fraction) ++ "e" ++
      (if 0 ≤ lead ∧ l.plusSign then "+" else "") ++ toString lead

def Layout.renderBits (l : Layout) (f : BinaryFormat) (bits : Nat) : String :=
  let magnitude := bits % f.signBit
  let sign := if f.signBit ≤ bits then "-" else ""
  if f.infinity < magnitude then "NaN"
  else if magnitude = f.infinity then sign ++ "inf"
  else if magnitude = 0 then sign ++ "0.0"
  else sign ++ l.render (f.shortest magnitude)

def Layout.float (l : Layout) (x : Float) : String :=
  l.renderBits .binary64 x.toBits.toNat

def Layout.float32 (l : Layout) (x : Float32) : String :=
  l.renderBits .binary32 x.toBits.toNat

end TextCompletion.Decimal
