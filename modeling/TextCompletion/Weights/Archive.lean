import TextCompletion.Tensor
import TextCompletion.Weights.Pickle

/-!
Archives of tensors: a zip file without compression that holds one pickled dictionary of tensors,
and beside it the bytes of every storage under a number. A tensor names its storage, where in the
storage it begins, its shape and its strides. Tensors whose strides are those of their shape, and
those laid out the other way round, are read; a member of the dictionary that is no tensor, or
whose storage has a type of its own, is passed over.
-/

namespace TextCompletion.Weights.Archive

structure Entry where
  name : String
  compressed : Bool
  content : Bytes
  deriving DecidableEq, Repr

def wordAt (bytes : Bytes) (offset size : Nat) : Nat := littleEndian ((bytes.drop offset).take size)

def endSignature : Nat := 0x06054B50
def centralSignature : Nat := 0x02014B50
def localSignature : Nat := 0x04034B50

/-- The last place where the record that ends an archive can begin. -/
def findEnd : Bytes → Option Bytes
  | [] => none
  | b :: rest =>
    match findEnd rest with
    | some found => some found
    | none =>
      let here := b :: rest
      if wordAt here 0 4 = endSignature ∧ 22 + wordAt here 20 2 ≤ here.length then some here
      else none

def contentAt (file : Bytes) (offset size : Nat) : Except ArchiveFault Bytes :=
  let header := file.drop offset
  if header.length < 30 ∨ wordAt header 0 4 ≠ localSignature then .error .badEntry
  else
    let content := header.drop (30 + wordAt header 26 2 + wordAt header 28 2)
    if content.length < size then .error .truncated else .ok (content.take size)

def readDirectory (file : Bytes) : Nat → Bytes → Except ArchiveFault (List Entry)
  | 0, _ => .ok []
  | count + 1, bytes => do
    if bytes.length < 46 ∨ wordAt bytes 0 4 ≠ centralSignature then throw .badDirectory
    let nameLength := wordAt bytes 28 2
    let content ← contentAt file (wordAt bytes 42 4) (wordAt bytes 20 4)
    let entry : Entry :=
      { name := Text.Utf8.decodeLossy ((bytes.drop 46).take nameLength)
        compressed := wordAt bytes 10 2 ≠ 0
        content }
    let recordLength := 46 + nameLength + wordAt bytes 30 2 + wordAt bytes 32 2
    pure (entry :: (← readDirectory file count (bytes.drop recordLength)))

def entries (file : Bytes) : Except ArchiveFault (List Entry) :=
  match findEnd file with
  | none => .error .noDirectory
  | some record => readDirectory file (wordAt record 10 2) (file.drop (wordAt record 16 4))

/-- What a dictionary says of one tensor. Offset and strides count elements. -/
structure Layout where
  storage : String
  type : ElementType
  offset : Nat
  shape : List Nat
  strides : List Nat
  deriving DecidableEq, Repr

def storageTypes : List (String × ElementType) :=
  [("FloatStorage", .f32), ("DoubleStorage", .f64), ("HalfStorage", .f16),
    ("BFloat16Storage", .bf16), ("ByteStorage", .u8), ("LongStorage", .i64)]

open Pickle in
def sizes? : Value → Option (List Nat)
  | .tuple items => items.mapM fun v => match v with | .integer n => some n.toNat | _ => none
  | _ => none

open Pickle in
def layoutOfCall? : Value → Option Layout
  | .call (.global "torch._utils" "_rebuild_tensor_v2")
      (.tuple (storage :: offset :: size :: stride :: _)) =>
    match storage, offset with
    | .external (.tuple (_ :: .global _ type :: .text name :: _ :: .integer _ :: _)),
        .integer n => do
      pure
        { storage := name, type := ← storageTypes.lookup type, offset := n.toNat
          shape := ← sizes? size, strides := ← sizes? stride }
    | _, _ => none
  | _ => none

open Pickle in
/-- The tensor itself, or the one that a parameter or a subclass of tensors wraps. -/
def layout? : Value → Option Layout
  | .call (.global "torch._tensor" "_rebuild_from_type_v2")
      (.tuple (function :: _ :: arguments :: _)) =>
    layoutOfCall? (.call function arguments)
  | .call (.global "torch._utils" "_rebuild_parameter") (.tuple (tensor :: _)) =>
    layoutOfCall? tensor
  | v => layoutOfCall? v

def rowStrides : List Nat → List Nat
  | [] => []
  | _ :: dims => dims.foldl (· * ·) 1 :: rowStrides dims

/-- Strides agree where the dimension has more than one place; there is one for each dimension. -/
def stridesAgree : List Nat → List Nat → List Nat → Bool
  | d :: dims, s :: strides, e :: expected =>
    (d ≤ 1 || s == e) && stridesAgree dims strides expected
  | [], [], _ => true
  | _, _, _ => false

/-- Values of a tensor stored column by column, of any rank, brought into row order: the first
dimension runs fastest in `values`. -/
def transpose : List Nat → List Float32 → List Float32
  | [], values => values
  | d :: dims, values =>
    (List.range d).flatMap fun i =>
      transpose dims ((values.zipIdx.filter fun (_, k) => k % d == i).map Prod.fst)

def Layout.read (l : Layout) (storage : Bytes) : Except TensorFault Tensor :=
  let count := l.shape.foldl (· * ·) 1
  let bytes := (storage.drop (l.offset * l.type.size)).take (count * l.type.size)
  match l.type.decode? with
  | none => .error (.unusable l.type.label)
  | some decode =>
    if bytes.length < count * l.type.size then .error .tooShort
    else
      let values := elements l.type.size decode count bytes
      if stridesAgree l.shape l.strides (rowStrides l.shape) then .ok ⟨l.shape, values⟩
      else if stridesAgree l.shape l.strides (rowStrides l.shape.reverse).reverse then
        .ok ⟨l.shape, transpose l.shape values⟩
      else .error (.notContiguous l.shape l.strides (l.offset * l.type.size))

def contentOf (entries : List Entry) (name : String) : Except TensorFault Bytes :=
  match entries.find? fun e => e.name == name with
  | none => .error .noStorage
  | some e => if e.compressed then .error .compressedStorage else .ok e.content

open Pickle in
def dictionary? : Value → Option (List (Value × Value))
  | .dictionary items => some items
  | .built (.call (.global "__torch__" "Module") _) (.dictionary items) => some items
  | _ => none

def dictionaryName : String := "data.pkl"

/-- The tensors of one dictionary, whose storages lie beside it in a directory of its name. -/
def tensorsOf (entries : List Entry) (directory : String) (object : Pickle.Value) :
    List (String × Except TensorFault Tensor) :=
  ((dictionary? object).getD []).filterMap fun (key, value) =>
    match key, layout? value with
    | .text name, some l =>
      some (name, (contentOf entries (directory ++ "/" ++ l.storage)).bind l.read)
    | _, _ => none

def tensors (file : Bytes) : Except ArchiveFault (List (String × Except TensorFault Tensor)) := do
  let all ← entries file
  let dictionaries := all.filter fun e => e.name.endsWith dictionaryName
  let found ← dictionaries.mapM fun e => do
    if e.compressed then throw .compressed
    let object ← Pickle.load e.content
    pure (tensorsOf all (String.ofList (e.name.toList.take (e.name.length - 4))) object)
  pure found.flatten

end TextCompletion.Weights.Archive
