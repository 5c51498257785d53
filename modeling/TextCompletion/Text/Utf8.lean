/-!
UTF-8 byte by byte: how long the well-formed beginning of some bytes is, and a reading that puts the
replacement character in the place of every part that is not well formed.
-/

namespace TextCompletion.Text.Utf8

/-- Bounds for the next byte of a character that has begun, and how many tails follow that byte. -/
structure Awaited where
  low : UInt8
  high : UInt8
  tails : Nat

/-- What the first byte of a character awaits: `some none` stands alone, `none` begins nothing. -/
def begin (b : UInt8) : Option (Option Awaited) :=
  if b < 0x80 then some none
  else if b < 0xC2 then none
  else if b < 0xE0 then some (some ⟨0x80, 0xBF, 0⟩)
  else if b = 0xE0 then some (some ⟨0xA0, 0xBF, 1⟩)
  else if b = 0xED then some (some ⟨0x80, 0x9F, 1⟩)
  else if b < 0xF0 then some (some ⟨0x80, 0xBF, 1⟩)
  else if b = 0xF0 then some (some ⟨0x90, 0xBF, 2⟩)
  else if b < 0xF4 then some (some ⟨0x80, 0xBF, 2⟩)
  else if b = 0xF4 then some (some ⟨0x80, 0x8F, 2⟩)
  else none

def Awaited.step (a : Awaited) (b : UInt8) : Option (Option Awaited) :=
  if a.low ≤ b ∧ b ≤ a.high then
    match a.tails with
    | 0 => some none
    | n + 1 => some (some ⟨0x80, 0xBF, n⟩)
  else none

/-- The number of bytes in the complete characters before the first ill-formed part. The counts are
those up to the last complete character, and since then. -/
def wellFormedFrom : Option Awaited → Nat → Nat → List UInt8 → Nat
  | _, done, _, [] => done
  | awaited, done, open_, b :: rest =>
    match (match awaited with | none => begin b | some a => a.step b) with
    | none => done
    | some none => wellFormedFrom none (done + open_ + 1) 0 rest
    | some (some a) => wellFormedFrom (some a) done (open_ + 1) rest

def wellFormedLength (bytes : List UInt8) : Nat := wellFormedFrom none 0 0 bytes

def decode? (bytes : List UInt8) : Option String := String.fromUTF8? ⟨bytes.toArray⟩

def encode (s : String) : List UInt8 := s.toUTF8.toList

def replacement : Char := Char.ofNat 0xFFFD

/-- Characters of the bytes; `pending` holds, in reverse, the bytes of a character that has begun. A
part that breaks off is replaced once, and the byte that broke it is read again. -/
def lossyFrom : Option Awaited → List UInt8 → List UInt8 → List Char
  | none, _, [] => []
  | some _, _, [] => [replacement]
  | none, _, b :: rest =>
    match begin b with
    | none => replacement :: lossyFrom none [] rest
    | some none => Char.ofNat b.toNat :: lossyFrom none [] rest
    | some (some a) => lossyFrom (some a) [b] rest
  | some a, pending, b :: rest =>
    match a.step b with
    | some none =>
      ((decode? (b :: pending).reverse).getD "").toList ++ lossyFrom none [] rest
    | some (some a) => lossyFrom (some a) (b :: pending) rest
    | none =>
      match begin b with
      | none => replacement :: replacement :: lossyFrom none [] rest
      | some none => replacement :: Char.ofNat b.toNat :: lossyFrom none [] rest
      | some (some a) => replacement :: lossyFrom (some a) [b] rest

def decodeLossy (bytes : List UInt8) : String := String.ofList (lossyFrom none [] bytes)

end TextCompletion.Text.Utf8
