import Mathlib.Data.List.Forall2
import TextCompletion.Json.Value

/-!
Documents as they may be written: what stands for a text, a number, a list or an object, byte by
byte and with the blanks that are allowed between. Nothing is bounded here, neither numbers nor the
depth of brackets. The strings of a value need not spell a text, since the number of a surrogate
may stand alone in them; a text is spelled with the surrogates in pairs.
-/

namespace TextCompletion.Json

def IsBlank (w : List UInt8) : Prop := ∀ b ∈ w, b = 32 ∨ b = 9 ∨ b = 10 ∨ b = 13

def nullText : List UInt8 := 110 :: Reader.nullTail
def trueText : List UInt8 := 116 :: Reader.trueTail
def falseText : List UInt8 := 102 :: Reader.falseTail

/-! ## Strings -/

def shortEscapes : List (UInt8 × Char) :=
  [(34, '"'), (92, '\\'), (47, '/'), (98, '\x08'), (102, '\x0c'), (110, '\n'), (114, '\r'),
    (116, '\t')]

/-- A character that may stand for itself between quotes. -/
def IsPlain (c : Char) : Prop := 32 ≤ c.toNat ∧ c ≠ '"' ∧ c ≠ '\\'

def IsQuad (n : Nat) (t : List UInt8) : Prop :=
  ∃ a b c d, hexQuad? a b c d = some n ∧ t = [a, b, c, d]

/-- One character of a text between quotes: as itself, by a letter, by its number, or by the numbers
of the two surrogates that make it up. -/
inductive WritesChar : Char → List UInt8 → Prop
  | plain {c : Char} : IsPlain c → WritesChar c (String.utf8EncodeChar c)
  | short {e : UInt8} {c : Char} : (e, c) ∈ shortEscapes → WritesChar c [92, e]
  | number {c : Char} {quad : List UInt8} : IsQuad c.toNat quad → WritesChar c (92 :: 117 :: quad)
  | surrogates {c : Char} {leading trailing : List UInt8} : 0x10000 ≤ c.toNat →
      IsQuad (0xD800 + (c.toNat - 0x10000) / 0x400) leading →
      IsQuad (0xDC00 + (c.toNat - 0x10000) % 0x400) trailing →
      WritesChar c (92 :: 117 :: (leading ++ 92 :: 117 :: trailing))

inductive Spells : List Char → List UInt8 → Prop
  | nil : Spells [] []
  | cons {c : Char} {cs : List Char} {t more : List UInt8} :
      WritesChar c t → Spells cs more → Spells (c :: cs) (t ++ more)

def Quotes (s : String) (t : List UInt8) : Prop :=
  ∃ body, Spells s.toList body ∧ t = 34 :: (body ++ [34])

/-- What may stand between quotes: a character or an escape, of whatever number. -/
inductive IsPiece : List UInt8 → Prop
  | plain {c : Char} : IsPlain c → IsPiece (String.utf8EncodeChar c)
  | short {e : UInt8} {c : Char} : (e, c) ∈ shortEscapes → IsPiece [92, e]
  | number {n : Nat} {quad : List UInt8} : IsQuad n quad → IsPiece (92 :: 117 :: quad)

/-- A string, whether it stands for a text or not. -/
def IsString (t : List UInt8) : Prop :=
  ∃ pieces : List (List UInt8), (∀ piece ∈ pieces, IsPiece piece) ∧
    t = 34 :: (pieces.flatten ++ [34])

/-! ## Numbers -/

def IsDigits (t : List UInt8) : Prop := ∀ b ∈ t, isDigit b = true

inductive IsWhole : List UInt8 → Prop
  | zero : IsWhole [48]
  | digits {d : UInt8} {ds : List UInt8} : isDigit d = true → d ≠ 48 → IsDigits ds →
      IsWhole (d :: ds)

/-- The number that digits stand for when they follow one. -/
def wholeFrom (n : Nat) (t : List UInt8) : Nat := t.foldl (fun n b => n * 10 + (b.toNat - 48)) n

def Counts (n : Nat) (t : List UInt8) : Prop := IsWhole t ∧ wholeFrom 0 t = n

inductive IsDecimals : List UInt8 → Prop
  | none : IsDecimals []
  | point {d : UInt8} {ds : List UInt8} : isDigit d = true → IsDigits ds →
      IsDecimals (46 :: d :: ds)

inductive IsPower : List UInt8 → Prop
  | none : IsPower []
  | mark {e d : UInt8} {sign ds : List UInt8} : e = 101 ∨ e = 69 → sign ∈ [[], [43], [45]] →
      isDigit d = true → IsDigits ds → IsPower (e :: (sign ++ d :: ds))

def IsNumeral (t : List UInt8) : Prop :=
  ∃ sign whole decimals power, sign ∈ [[], [45]] ∧ IsWhole whole ∧ IsDecimals decimals ∧
    IsPower power ∧ t = sign ++ (whole ++ (decimals ++ power))

/-! ## Lists and objects -/

/-- What stands before an element: a comma before every one but the first, and blanks. -/
inductive Leads : Bool → List UInt8 → Prop
  | first {w : List UInt8} : IsBlank w → Leads true w
  | later {w w' : List UInt8} : IsBlank w → IsBlank w' → Leads false (w ++ 44 :: w')

inductive Elements : Bool → List (List UInt8) → List UInt8 → Prop
  | done {first : Bool} {w : List UInt8} : IsBlank w → Elements first [] w
  | next {first : Bool} {lead t more : List UInt8} {ts : List (List UInt8)} : Leads first lead →
      Elements false ts more → Elements first (t :: ts) (lead ++ (t ++ more))

def Encloses (opening closing : UInt8) (ts : List (List UInt8)) (t : List UInt8) : Prop :=
  ∃ body, Elements true ts body ∧ t = opening :: (body ++ [closing])

def Lists {α : Type} (writes : α → List UInt8 → Prop) (items : List α) (t : List UInt8) : Prop :=
  ∃ ts, List.Forall₂ writes items ts ∧ Encloses 91 93 ts t

/-- `null`, or the value as it is written. -/
def Nullable {α : Type} (writes : α → List UInt8 → Prop) : Option α → List UInt8 → Prop
  | none, t => t = nullText
  | some a, t => writes a t

structure Member where
  key : List UInt8
  value : List UInt8

def Member.Named (m : Member) (name : String) : Prop := Quotes name m.key

def Member.Writes (m : Member) (t : List UInt8) : Prop :=
  ∃ w w', IsBlank w ∧ IsBlank w' ∧ t = m.key ++ (w ++ 58 :: (w' ++ m.value))

def IsObject (members : List Member) (t : List UInt8) : Prop :=
  ∃ ts, List.Forall₂ Member.Writes members ts ∧ Encloses 123 125 ts t

/-- The members give the value of the name at most once, by a text that stands for it; where they do
not give it, it is as it is when left out. -/
structure Gives (members : List Member) (name : String) (writes : List UInt8 → Prop)
    (omitted : Prop) : Prop where
  once : members.Pairwise fun m m' => ¬(m.Named name ∧ m'.Named name)
  written : ∀ m ∈ members, m.Named name → writes m.value
  omitted : (∀ m ∈ members, ¬m.Named name) → omitted

/-- A value of any kind and of any depth. -/
inductive IsValue : List UInt8 → Prop
  | null : IsValue nullText
  | true : IsValue trueText
  | false : IsValue falseText
  | number {t : List UInt8} : IsNumeral t → IsValue t
  | string {t : List UInt8} : IsString t → IsValue t
  | array {ts : List (List UInt8)} {t : List UInt8} : (∀ t ∈ ts, IsValue t) → Encloses 91 93 ts t →
      IsValue t
  | object {members : List Member} {t : List UInt8} : (∀ m ∈ members, IsString m.key) →
      (∀ m ∈ members, IsValue m.value) → IsObject members t → IsValue t

def Documents (writes : List UInt8 → Prop) (text : List UInt8) : Prop :=
  ∃ w t w', IsBlank w ∧ IsBlank w' ∧ writes t ∧ text = w ++ (t ++ w')

end TextCompletion.Json
