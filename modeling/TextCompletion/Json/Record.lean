import TextCompletion.Json.Value

/-!
Readers for values of a known shape: strings, bounded whole numbers, lists, maps to strings, and
records. A record is written as an object, with its fields in any order and unknown members
skipped, or as an array of its fields in order. A field that occurs twice is a fault; one that is
absent keeps its default, unless it is required.
-/

namespace TextCompletion.Json.Reader

variable {α σ : Type}

/-- Reads whatever scalar stands here only to report that something else was expected. -/
def wrongType (expected : String) : Reader α := fun c =>
  match (do
      match ← peekToken with
      | none => failNext .endOfValue
      | some b =>
        if b = 91 then pure Found.array
        else if b = 123 then pure Found.object
        else Json.found <$> scalar b : Reader Found) c with
  | .ok found c => .error ⟨.wrongType found expected, some c.position⟩ c
  | .error f c => .error f c

def text : Reader String := do
  match ← peekToken with
  | none => failNext .endOfValue
  | some 34 => do advance; textTail
  | some _ => wrongType "a string"

/-- The natural number that a number stands for, if it has no sign and no point and is at most the
bound; `type` names what was asked for. -/
def boundedNatural (bound : Nat) (type : String) : Number → Except FaultKind Nat
  | .natural n => if n ≤ bound then .ok n else .error (.wrongValue (.natural n) type)
  | .negative n => .error (.wrongValue (.negative n) type)
  | .decimal x => .error (.wrongType (.decimal x) type)

def natural (bound : Nat) (type : String) : Reader Nat := do
  match ← peekToken with
  | none => failNext .endOfValue
  | some b =>
    if b = 45 ∨ isDigit b then
      let n ← if b = 45 then (do advance; unsigned true) else unsigned false
      match boundedNatural bound type n with
      | .ok n => pure n
      | .error kind => failHere kind
    else wrongType type

def optional (r : Reader α) : Reader (Option α) := do
  match ← peekToken with
  | some 110 => do advance; word nullTail; pure none
  | _ => some <$> r

def list (item : Reader α) : Reader (List α) := do
  match ← peekToken with
  | none => failNext .endOfValue
  | some 91 => do advance; closedBy closeArray (elements item)
  | some _ => wrongType "a sequence"

def mapMembersFrom (item : Reader α) : Nat → Bool → Reader (List (String × α))
  | 0, _ => failHere .endOfObject
  | fuel + 1, first => do
    if ← nextMember first then
      let k ← key
      colon
      let v ← item
      let rest ← mapMembersFrom item fuel false
      pure ((k, v) :: rest)
    else pure []

def map (item : Reader α) : Reader (List (String × α)) := do
  match ← peekToken with
  | none => failNext .endOfValue
  | some 123 => do
    advance
    closedBy closeObject (do mapMembersFrom item (← budget) true)
  | some _ => wrongType "a map"

structure Field (σ : Type) where
  name : String
  required : Bool := false
  read : σ → Reader σ

/-- A record: the name that messages use, its fields in the order of the array form, and the value
of a record with no fields given. -/
structure Schema (σ : Type) where
  name : String
  fields : List (Field σ)
  blank : σ

def positionalFields (schema : Schema σ) : List (Field σ) → Nat → σ → Reader σ
  | [], _, s => pure s
  | f :: fields, index, s => do
    if ← nextElement (index == 0) then
      positionalFields schema fields (index + 1) (← f.read s)
    else if f.required then
      let total := schema.fields.length
      let unit := if total = 1 then " element" else " elements"
      failUnplaced (.wrongLength index (schema.name ++ " with " ++ toString total ++ unit))
    else positionalFields schema fields (index + 1) s

/-- The object form up to its closing bracket; `seen` lists the fields met so far. -/
def namedFields (schema : Schema σ) : Nat → Bool → List String → σ → Reader σ
  | 0, _, _, _ => failHere .endOfObject
  | fuel + 1, first, seen, s => do
    if ← nextMember first then
      let k ← key
      match schema.fields.find? fun f => f.name == k with
      | none => do
        colon
        skipValue
        namedFields schema fuel false seen s
      | some f =>
        if seen.contains k then failUnplaced (.duplicateField k)
        else do
          colon
          let s ← f.read s
          namedFields schema fuel false (k :: seen) s
    else
      match schema.fields.find? fun f => f.required && !seen.contains f.name with
      | some f => failUnplaced (.missingField f.name)
      | none => pure s

def record (schema : Schema σ) : Reader σ := do
  match ← peekToken with
  | none => failNext .endOfValue
  | some 91 => do
    advance
    closedBy closeArray (positionalFields schema schema.fields 0 schema.blank)
  | some 123 => do
    advance
    closedBy closeObject (do namedFields schema (← budget) true [] schema.blank)
  | some _ => wrongType schema.name

def innerValue : Reader Json := value (maxDepth - 1)

end TextCompletion.Json.Reader
