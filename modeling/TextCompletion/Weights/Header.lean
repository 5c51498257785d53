import TextCompletion.Json.Value
import TextCompletion.Text.Utf8
import TextCompletion.Weights.Element
import TextCompletion.Weights.Fault

/-!
The header of a tensor file. The file begins with the header's length in eight bytes; the header is
a document that gives every tensor its element type, its shape and the range of its bytes among
those that follow. The ranges must cover these bytes from the first to the last without a gap or an
overlap, so a file that was cut short or lengthened is refused.
-/

namespace TextCompletion.Weights

structure TensorInfo where
  type : ElementType
  shape : List Nat
  first : Nat
  last : Nat
  deriving DecidableEq, Repr

/-- A header with its tensors in the order of their bytes, and the bytes it describes. -/
structure Header where
  tensors : List (String × TensorInfo)
  content : Bytes

namespace Header

def maxLength : Nat := 100000000

def word? : Json → Option Nat
  | .number (.natural n) => some n
  | _ => none

/-- An element type is named by a text, or by an object whose one key is the name and whose
value is empty. -/
def elementType? : Json → Option ElementType
  | .string s => ElementType.ofLabel? s
  | .object [(s, .null)] => ElementType.ofLabel? s
  | .object [(s, .object [])] => ElementType.ofLabel? s
  | _ => none

def shape? : Json → Option (List Nat)
  | .array items => items.mapM word?
  | _ => none

def range? : Json → Option (Nat × Nat)
  | .array [first, last] => do pure (← word? first, ← word? last)
  | _ => none

def only? (members : List (String × Json)) (key : String) : Option Json :=
  match members.filter fun m => m.1 == key with
  | [(_, v)] => some v
  | _ => none

def infoOf? (type shape range : Json) : Option TensorInfo := do
  let (first, last) ← range? range
  pure { type := ← elementType? type, shape := ← shape? shape, first, last }

/-- A tensor is described by an object, or by the array of its three fields. -/
def info? : Json → Option TensorInfo
  | .array [type, shape, range] => infoOf? type shape range
  | .object members => do
    infoOf? (← only? members "dtype") (← only? members "shape") (← only? members "data_offsets")
  | _ => none

def notesKey : String := "__metadata__"

def areNotes : Json → Bool
  | .null => true
  | .object members => members.all fun m => match m.2 with | .string _ => true | _ => false
  | _ => false

def lastMembers : List (String × TensorInfo) → List (String × TensorInfo)
  | [] => []
  | m :: rest => if rest.any fun n => n.1 == m.1 then lastMembers rest else m :: lastMembers rest

def tensors? : Json → Option (List (String × TensorInfo))
  | .object members => do
    let notes := members.filter fun m => m.1 == notesKey
    guard (notes.length ≤ 1 && notes.all fun m => areNotes m.2)
    let infos ← (members.filter fun m => m.1 != notesKey).mapM fun m => do pure (m.1, ← info? m.2)
    pure (lastMembers infos)
  | _ => none

def TensorInfo.startsBefore (a b : String × TensorInfo) : Bool :=
  a.2.first < b.2.first || (a.2.first == b.2.first && a.2.last ≤ b.2.last)

/-- The product of the factors, if it and every product on the way fit 64 bits. -/
def product? : Nat → List Nat → Option Nat
  | n, [] => some n
  | n, k :: ks => if n * k < Nat.pow 2 64 then product? (n * k) ks else none

/-- Checks one tensor after another; the bytes up to `start` are taken. The result is the number of
bytes that all of them take. -/
def check : Nat → List (String × TensorInfo) → Except HeaderFault Nat
  | start, [] => .ok start
  | start, (name, info) :: rest =>
    if info.first ≠ start ∨ info.last < info.first then .error (.badOffset name)
    else
      match (product? 1 info.shape).bind fun n => product? n [info.type.size] with
      | none => .error .overflow
      | some bytes =>
        if info.last - info.first ≠ bytes then .error .badSize else check info.last rest

def parse (file : Bytes) : Except HeaderFault Header := do
  if file.length < 8 then throw .tooSmall
  let length := littleEndian (file.take 8)
  if maxLength < length then throw .tooLarge
  if file.length < length + 8 then throw .beyondFile
  let document := (file.drop 8).take length
  let content := (file.drop 8).drop length
  if (Text.Utf8.decode? document).isNone then throw .notText
  match (Json.parse document).toOption.bind tensors? with
  | none => throw .notTensors
  | some tensors =>
    let sorted := tensors.mergeSort TensorInfo.startsBefore
    if (← check 0 sorted) ≠ content.length then throw .incomplete
    pure ⟨sorted, content⟩

end Header
end TextCompletion.Weights
