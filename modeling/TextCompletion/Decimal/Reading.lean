import TextCompletion.Decimal.Binary

/-!
Reading numbers from text: whole numbers of a given range, and decimal numerals with an exponent,
rounded once into a binary format. The numerals `inf`, `infinity` and `nan` are read in any case.
Blanks, digit separators and hexadecimal are refused.
-/

namespace TextCompletion.Decimal

inductive WholeError where
  | empty
  | invalidDigit
  | tooLarge
  | tooSmall
  deriving DecidableEq, Repr

def WholeError.message : WholeError → String
  | .empty => "cannot parse integer from empty string"
  | .invalidDigit => "invalid digit found in string"
  | .tooLarge => "number too large to fit in target type"
  | .tooSmall => "number too small to fit in target type"

def digitValue? (c : Char) : Option Nat :=
  if '0' ≤ c ∧ c ≤ '9' then some (c.toNat - '0'.toNat) else none

/-- The digits from the left, up to the first character that is no digit or the first prefix whose
value passes the bound. -/
def readMagnitude (bound : Nat) (tooGreat : WholeError) : Nat → List Char → Except WholeError Nat
  | n, [] => .ok n
  | n, c :: cs =>
    match digitValue? c with
    | none => .error .invalidDigit
    | some d =>
      if bound < n * 10 + d then .error tooGreat else readMagnitude bound tooGreat (n * 10 + d) cs

def readNatural (bound : Nat) (text : String) : Except WholeError Nat :=
  match text.toList with
  | [] => .error .empty
  | ['+'] => .error .invalidDigit
  | '+' :: cs => readMagnitude bound .tooLarge 0 cs
  | cs => readMagnitude bound .tooLarge 0 cs

def wordBound : Nat := Nat.pow 2 64 - 1

def signedBound : Nat := Nat.pow 2 63 - 1

def readInteger (text : String) : Except WholeError Int64 :=
  match text.toList with
  | [] => .error .empty
  | ['+'] => .error .invalidDigit
  | ['-'] => .error .invalidDigit
  | '+' :: cs => (readMagnitude signedBound .tooLarge 0 cs).map fun n => Int64.ofInt n
  | '-' :: cs =>
    (readMagnitude (signedBound + 1) .tooSmall 0 cs).map fun n => Int64.ofInt (-(n : Int))
  | cs => (readMagnitude signedBound .tooLarge 0 cs).map fun n => Int64.ofInt n

/-- What a decimal numeral denotes, before rounding: `digits * 10 ^ exponent`, or no finite value.
-/
inductive Numeral where
  | finite (negative : Bool) (digits : Nat) (exponent : Int)
  | infinite (negative : Bool)
  | notANumber (negative : Bool)
  deriving DecidableEq, Repr

inductive NumeralError where
  | empty
  | invalid
  deriving DecidableEq, Repr

def NumeralError.message : NumeralError → String
  | .empty => "cannot parse float from empty string"
  | .invalid => "invalid float literal"

def takeDigits : Nat → Nat → List Char → Nat × Nat × List Char
  | n, count, [] => (n, count, [])
  | n, count, c :: cs =>
    match digitValue? c with
    | some d => takeDigits (n * 10 + d) (count + 1) cs
    | none => (n, count, c :: cs)

def takeSign : List Char → Bool × List Char
  | '+' :: cs => (false, cs)
  | '-' :: cs => (true, cs)
  | cs => (false, cs)

/-- The exponent part that ends a numeral: nothing, or `e` and a signed whole number. -/
def readExponent? : List Char → Option Int
  | [] => some 0
  | c :: cs =>
    if c = 'e' ∨ c = 'E' then
      let (negative, ds) := takeSign cs
      match takeDigits 0 0 ds with
      | (n, count, []) => if count = 0 then none else some (if negative then -(n : Int) else n)
      | _ => none
    else none

def readUnsigned? (negative : Bool) (cs : List Char) : Option Numeral :=
  let word := String.ofList (cs.map Char.toLower)
  if word = "inf" ∨ word = "infinity" then some (.infinite negative)
  else if word = "nan" then some (.notANumber negative)
  else
    let (whole, wholeCount, rest) := takeDigits 0 0 cs
    let (digits, fractionCount, rest) :=
      match rest with
      | '.' :: rest => takeDigits whole 0 rest
      | rest => (whole, 0, rest)
    if wholeCount + fractionCount = 0 then none
    else (readExponent? rest).map fun e => .finite negative digits (e - fractionCount)

def readNumeral (text : String) : Except NumeralError Numeral :=
  match text.toList with
  | [] => .error .empty
  | cs =>
    let (negative, body) := takeSign cs
    match readUnsigned? negative body with
    | some n => .ok n
    | none => .error .invalid

/-- The bits of the numeral in the format. Exponents far outside every format are settled before a
power of ten is formed. -/
def Numeral.toBits (f : BinaryFormat) : Numeral → Nat
  | .notANumber _ => f.notANumber
  | .infinite negative => (if negative then f.signBit else 0) + f.infinity
  | .finite negative digits exponent =>
    let sign := if negative then f.signBit else 0
    let length : Int := (Nat.toDigits 10 digits).length
    sign +
      (if digits = 0 then 0
       else if 400 < exponent + length then f.infinity
       else if exponent + length < -400 then 0
       else if 0 ≤ exponent then f.roundRatio (digits * Nat.pow 10 exponent.toNat) 1
       else f.roundRatio digits (Nat.pow 10 (-exponent).toNat))

def Numeral.toFloat (n : Numeral) : Float :=
  Float.ofBits (UInt64.ofNat (n.toBits .binary64))

/-- Rounded once, not by way of the wider format. -/
def Numeral.toFloat32 (n : Numeral) : Float32 :=
  Float32.ofBits (UInt32.ofNat (n.toBits .binary32))

def readFloat (text : String) : Except NumeralError Float :=
  (readNumeral text).map Numeral.toFloat

def readFloat32 (text : String) : Except NumeralError Float32 :=
  (readNumeral text).map Numeral.toFloat32

end TextCompletion.Decimal
