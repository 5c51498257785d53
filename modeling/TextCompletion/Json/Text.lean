import TextCompletion.Json.Reader
import TextCompletion.Text.Utf8

/-!
Strings. A reader that wants the text decodes escapes, pairs surrogates and checks that the bytes
are well formed; one that only skips the string checks where it ends and that its escapes have the
right shape.
-/

namespace TextCompletion.Json

def Position.afterAll (p : Position) (bytes : List UInt8) : Position :=
  bytes.foldl Position.after p

def hexValue? (b : UInt8) : Option Nat :=
  if 48 ≤ b ∧ b ≤ 57 then some (b.toNat - 48)
  else if 97 ≤ b ∧ b ≤ 102 then some (b.toNat - 87)
  else if 65 ≤ b ∧ b ≤ 70 then some (b.toNat - 55)
  else none

def hexQuad? (a b c d : UInt8) : Option Nat := do
  let a ← hexValue? a
  let b ← hexValue? b
  let c ← hexValue? c
  let d ← hexValue? d
  pure (((a * 16 + b) * 16 + c) * 16 + d)

def shortEscape? (b : UInt8) : Option UInt8 :=
  if b = 34 ∨ b = 92 ∨ b = 47 then some b
  else if b = 98 then some 8
  else if b = 102 then some 12
  else if b = 110 then some 10
  else if b = 114 then some 13
  else if b = 116 then some 9
  else none

def isLeading (n : Nat) : Bool := 0xD800 ≤ n && n ≤ 0xDBFF

def isTrailing (n : Nat) : Bool := 0xDC00 ≤ n && n ≤ 0xDFFF

def pairValue (leading trailing : Nat) : Nat :=
  (leading - 0xD800) * 0x400 + (trailing - 0xDC00) + 0x10000

abbrev Scan := EStateM.Result Fault Cursor

/-- The decoded bytes up to the closing quote, in reverse, added to `acc`. `pending` is a leading
surrogate that has to be completed by the escape that comes next. -/
def scanText (pending : Option Nat) (bytes : List UInt8) (p : Position) (acc : List UInt8) :
    Scan (List UInt8) :=
  let fail (kind : FaultKind) (rest : List UInt8) (p : Position) : Scan (List UInt8) :=
    .error ⟨kind, some p⟩ ⟨rest, p⟩
  match bytes with
  | [] => fail .endOfString [] p
  | b :: rest =>
    let p₁ := p.after b
    match pending, b == 92 with
    | some _, false => fail .brokenSurrogatePair rest p₁
    | none, false =>
      if b = 34 then .ok acc ⟨rest, p₁⟩
      else if b < 32 then fail .controlCharacter rest p₁
      else scanText none rest p₁ (b :: acc)
    | _, true =>
      match rest with
      | [] => fail .endOfString [] p₁
      | e :: rest =>
        let p₂ := p₁.after e
        if e = 117 then
          match rest with
          | h₁ :: h₂ :: h₃ :: h₄ :: rest =>
            let p₃ := p₂.afterAll [h₁, h₂, h₃, h₄]
            match hexQuad? h₁ h₂ h₃ h₄, pending with
            | none, _ => fail .invalidEscape rest p₃
            | some n, some leading =>
              if isTrailing n then
                let c := Char.ofNat (pairValue leading n)
                scanText none rest p₃ ((String.utf8EncodeChar c).reverse ++ acc)
              else fail .loneSurrogate rest p₃
            | some n, none =>
              if isTrailing n then fail .loneSurrogate rest p₃
              else if isLeading n then scanText (some n) rest p₃ acc
              else scanText none rest p₃ ((String.utf8EncodeChar (Char.ofNat n)).reverse ++ acc)
          | rest => fail .endOfString [] (p₂.afterAll rest)
        else
          match pending, shortEscape? e with
          | some _, _ => fail .brokenSurrogatePair rest p₂
          | none, some x => scanText none rest p₂ (x :: acc)
          | none, none => fail .invalidEscape rest p₂

def scanSkipped (bytes : List UInt8) (p : Position) : Scan Unit :=
  let fail (kind : FaultKind) (rest : List UInt8) (p : Position) : Scan Unit :=
    .error ⟨kind, some p⟩ ⟨rest, p⟩
  match bytes with
  | [] => fail .endOfString [] p
  | b :: rest =>
    let p₁ := p.after b
    if b = 34 then .ok () ⟨rest, p₁⟩
    else if b < 32 then fail .controlCharacter (b :: rest) p
    else if b = 92 then
      match rest with
      | [] => fail .endOfString [] p₁
      | e :: rest =>
        let p₂ := p₁.after e
        if e = 117 then
          match rest with
          | h₁ :: h₂ :: h₃ :: h₄ :: rest =>
            let p₃ := p₂.afterAll [h₁, h₂, h₃, h₄]
            if (hexQuad? h₁ h₂ h₃ h₄).isSome then scanSkipped rest p₃
            else fail .invalidEscape rest p₃
          | rest => fail .endOfString [] (p₂.afterAll rest)
        else if (shortEscape? e).isSome then scanSkipped rest p₂
        else fail .invalidEscape rest p₂
    else scanSkipped rest p₁

namespace Reader

/-- The text after its opening quote. Ill-formed bytes are reported at the first byte that belongs
to no character. -/
def textTail : Reader String := fun c =>
  match scanText none c.rest c.position [] with
  | .error f c => .error f c
  | .ok acc after =>
    match Text.Utf8.decode? acc.reverse with
    | some s => .ok s after
    | none =>
      let good := c.rest.take (Text.Utf8.wellFormedLength c.rest + 1)
      .error ⟨.illFormedText, some (c.position.afterAll good)⟩ after

def skipTextTail : Reader Unit := fun c => scanSkipped c.rest c.position

end Reader
end TextCompletion.Json
