import TextCompletion.Decimal.Binary
import TextCompletion.FileTree

/-!
The element types of stored tensors: how many bytes an element takes, and the single-precision
value that it stands for. Bytes stand least significant first.
-/

namespace TextCompletion.Weights

inductive ElementType where
  | bool
  | u8
  | i8
  | f8e5m2
  | f8e4m3
  | i16
  | u16
  | f16
  | bf16
  | i32
  | u32
  | f32
  | f64
  | i64
  | u64
  deriving DecidableEq, Repr

def littleEndian : Bytes → Nat
  | [] => 0
  | b :: rest => b.toNat + 256 * littleEndian rest

def signed (bits n : Nat) : Int :=
  if Nat.pow 2 (bits - 1) ≤ n then (n : Int) - Nat.pow 2 bits else n

def singleOfInt (n : Int) : Float32 :=
  let sign := if n < 0 then Decimal.BinaryFormat.binary32.signBit else 0
  Float32.ofBits (UInt32.ofNat (sign + Decimal.BinaryFormat.binary32.roundRatio n.natAbs 1))

def singleOfBits (f : Decimal.BinaryFormat) (bits : Nat) : Float32 :=
  Float32.ofBits (UInt32.ofNat (f.convert .binary32 bits))

/-- Bytes of eight bits with four for the exponent: no infinities, and one magnitude that is no
number. -/
def singleOfQuarter (bits : Nat) : Float32 :=
  let single := Decimal.BinaryFormat.binary32
  if bits % 128 = 127 then Float32.ofBits (UInt32.ofNat single.notANumber)
  else
    let format : Decimal.BinaryFormat := ⟨3, 4⟩
    let (significand, exponent) := format.split (bits % 128)
    let magnitude :=
      if 0 ≤ exponent then single.roundRatio (significand * Nat.pow 2 exponent.toNat) 1
      else single.roundRatio significand (Nat.pow 2 (-exponent).toNat)
    let sign := if 128 ≤ bits then single.signBit else 0
    Float32.ofBits (UInt32.ofNat (sign + magnitude))

namespace ElementType

def label : ElementType → String
  | bool => "BOOL"
  | u8 => "U8"
  | i8 => "I8"
  | f8e5m2 => "F8_E5M2"
  | f8e4m3 => "F8_E4M3"
  | i16 => "I16"
  | u16 => "U16"
  | f16 => "F16"
  | bf16 => "BF16"
  | i32 => "I32"
  | u32 => "U32"
  | f32 => "F32"
  | f64 => "F64"
  | i64 => "I64"
  | u64 => "U64"

def all : List ElementType :=
  [bool, u8, i8, f8e5m2, f8e4m3, i16, u16, f16, bf16, i32, u32, f32, f64, i64, u64]

def ofLabel? (s : String) : Option ElementType := all.find? fun t => t.label == s

def size : ElementType → Nat
  | bool | u8 | i8 | f8e5m2 | f8e4m3 => 1
  | i16 | u16 | f16 | bf16 => 2
  | i32 | u32 | f32 => 4
  | f64 | i64 | u64 => 8

/-- What an element's bits stand for; `none` for the types that are stored and never read. -/
def decode? : ElementType → Option (Nat → Float32)
  | bool | i8 | f8e5m2 | u64 => none
  | u8 | u16 | u32 => some fun n => singleOfInt n
  | i16 => some fun n => singleOfInt (signed 16 n)
  | i32 => some fun n => singleOfInt (signed 32 n)
  | i64 => some fun n => singleOfInt (signed 64 n)
  | f8e4m3 => some singleOfQuarter
  | f16 => some (singleOfBits .binary16)
  | bf16 => some (singleOfBits .brain16)
  | f32 => some fun n => Float32.ofBits (UInt32.ofNat n)
  | f64 => some (singleOfBits .binary64)

end ElementType

def elements (size : Nat) (decode : Nat → Float32) : Nat → Bytes → List Float32
  | 0, _ => []
  | count + 1, bytes =>
    decode (littleEndian (bytes.take size)) :: elements size decode count (bytes.drop size)

end TextCompletion.Weights
