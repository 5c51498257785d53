import TextCompletion.Json.Record
import TextCompletion.Text.Sorted

/-!
What is made of a value that is already there. A record is written as an object or as an array of
its members in order. Of an object the members are looked at in the order of their names, and the
first one of the wrong shape is reported; only when all are right does a missing one count. Faults
have no place in a document.
-/

namespace TextCompletion.Json

abbrev Shape (α : Type) := Json → Except FaultKind α

namespace Shape

variable {α σ : Type}

def natural (bound : Nat) (type : String) : Shape Nat
  | .number n => Reader.boundedNatural bound type n
  | v => .error (.wrongType v.found type)

def count : Shape Nat := natural Decimal.wordBound "usize"

def real : Shape Float
  | .number n => .ok n.toFloat
  | v => .error (.wrongType v.found "f64")

def single : Shape Float32
  | .number n => .ok n.toFloat.toFloat32
  | v => .error (.wrongType v.found "f32")

def flag : Shape Bool
  | .boolean b => .ok b
  | v => .error (.wrongType v.found "a boolean")

def text : Shape String
  | .string s => .ok s
  | v => .error (.wrongType v.found "a string")

def null : Shape Unit
  | .null => .ok ()
  | v => .error (.wrongType v.found "unit")

def list (item : Shape α) : Shape (List α)
  | .array items => items.mapM item
  | v => .error (.wrongType v.found "a sequence")

def optional (shape : Shape α) : Shape (Option α)
  | .null => .ok none
  | v => some <$> shape v

/-- When a member may be left out: never, from an object only, or from an array's end as well. -/
inductive Presence where
  | required
  | optional
  | defaulted
  deriving DecidableEq, Repr

structure Member (σ : Type) where
  name : String
  presence : Presence := .required
  read : σ → Shape σ

namespace Member

def required (name : String) (shape : Shape α) (set : σ → α → σ) : Member σ :=
  { name, read := fun s v => set s <$> shape v }

def optional (name : String) (shape : Shape α) (set : σ → Option α → σ) : Member σ :=
  { name, presence := .optional, read := fun s v => set s <$> Shape.optional shape v }

def defaulted (name : String) (shape : Shape α) (set : σ → α → σ) : Member σ :=
  { name, presence := .defaulted, read := fun s v => set s <$> shape v }

end Member

/-- The members of an object, each name once with its last value, by rising names. -/
def sortedMembers (members : List (String × Json)) : List (String × Json) :=
  (Text.sortDistinct (members.map Prod.fst)).filterMap fun name =>
    (lookup? members name).map fun v => (name, v)

def readMembers (members : List (Member σ)) (s : σ) :
    List (String × Json) → Except FaultKind σ
  | [] => .ok s
  | (name, v) :: rest =>
    match members.find? fun m => m.name == name with
    | none => readMembers members s rest
    | some m =>
      match m.read s v with
      | .ok s => readMembers members s rest
      | .error f => .error f

def missing? (members : List (Member σ)) (present : List (String × Json)) : Option String :=
  (members.find? fun m =>
    m.presence = .required && (lookup? present m.name).isNone).map Member.name

def readElements (type : String) (total : Nat) :
    List (Member σ) → σ → Nat → List Json → Except FaultKind σ
  | [], s, index, rest =>
    if rest.isEmpty then .ok s
    else .error (.wrongLength (index + rest.length) "fewer elements in array")
  | m :: ms, s, index, [] =>
    if m.presence = .defaulted then readElements type total ms s index []
    else
      .error (.wrongLength index
        ("struct " ++ type ++ " with " ++ toString total ++
          if total = 1 then " element" else " elements"))
  | m :: ms, s, index, v :: rest =>
    match m.read s v with
    | .ok s => readElements type total ms s (index + 1) rest
    | .error f => .error f

/-- A record with the given members; `blank` is the one in which nothing is set yet. -/
def record (type : String) (members : List (Member σ)) (blank : σ) : Shape σ
  | .object present => do
    let s ← readMembers members blank (sortedMembers present)
    match missing? members present with
    | some name => .error (.missingField name)
    | none => .ok s
  | .array items => readElements type members.length members blank 0 items
  | v => .error (.wrongType v.found ("struct " ++ type))

structure Variant where
  name : String
  value? : Option (Shape Unit) := none

def oneOf (variants : List Variant) : Shape String
  | .string name => do
    match ← find name with
    | { value? := none, .. } => .ok name
    | _ => .error (.other "invalid type: unit variant, expected newtype variant")
  | .object members =>
    match sortedMembers members with
    | [(name, v)] => do
      let variant ← find name
      (variant.value?.getD null) v
      .ok name
    | _ => .error (.wrongValue .object "map with a single key")
  | v => .error (.wrongType v.found "string or map")
where
  find (name : String) : Except FaultKind Variant :=
    match variants.find? fun v => v.name == name with
    | some v => .ok v
    | none => .error (.unknownVariant name (variants.map Variant.name))

end Shape

/-- The value with members added that it lacks, the first of those of one name. What is no object
stays as it is. -/
def withDefaults (defaults : List (String × Json)) : Json → Json
  | .object members =>
    .object (defaults.foldl (fun members d =>
      if (lookup? members d.1).isSome then members else members ++ [d]) members)
  | v => v

end TextCompletion.Json
