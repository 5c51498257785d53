import TextCompletion.Json.Fault

/-!
Readers take a value from the front of the document and leave the cursor behind it. A reader that
fails leaves the cursor where it stopped, so that whoever reads the enclosing array or object can
place the fault.
-/

namespace TextCompletion.Json

abbrev Reader := EStateM Fault Cursor

namespace Reader

variable {α : Type}

def failHere (kind : FaultKind) : Reader α := fun c => .error ⟨kind, some c.position⟩ c

def failNext (kind : FaultKind) : Reader α := fun c => .error ⟨kind, some c.peekPosition⟩ c

def failUnplaced (kind : FaultKind) : Reader α := fun c => .error ⟨kind, none⟩ c

def peek : Reader (Option UInt8) := fun c => .ok c.peek? c

def advance : Reader Unit := fun c => .ok () c.advance

def next : Reader (Option UInt8) := fun c => .ok c.peek? c.advance

def peekToken : Reader (Option UInt8) := fun c =>
  let c := c.skipBlank
  .ok c.peek? c

/-- A fault of the reader that is still unplaced is placed where the reader stopped. -/
def placed (r : Reader α) : Reader α := fun c =>
  match r c with
  | .ok a c => .ok a c
  | .error f c => .error (f.placeAt c.position) c

/-- Reads a body and then its closing bracket. Where the body failed, the closing bracket is still
passed if it comes next, and an unplaced fault is placed after it. -/
def closedBy (close : Reader Unit) (body : Reader α) : Reader α := fun c =>
  match body c with
  | .ok a c =>
    match close c with
    | .ok _ c => .ok a c
    | .error f c => .error (f.placeAt c.position) c
  | .error f c =>
    match close c with
    | .ok _ c => .error (f.placeAt c.position) c
    | .error _ c => .error (f.placeAt c.position) c

def closeArray : Reader Unit := do
  match ← peekToken with
  | some 93 => advance
  | some 44 =>
    advance
    match ← peekToken with
    | some 93 => failNext .trailingComma
    | _ => failNext .trailingCharacters
  | some _ => failNext .trailingCharacters
  | none => failNext .endOfArray

def closeObject : Reader Unit := do
  match ← peekToken with
  | some 125 => advance
  | some 44 => failNext .trailingComma
  | some _ => failNext .trailingCharacters
  | none => failNext .endOfObject

def nextElement (first : Bool) : Reader Bool := do
  match ← peekToken with
  | none => failNext .endOfArray
  | some 93 => pure false
  | some b =>
    if first then pure true
    else if b = 44 then
      advance
      match ← peekToken with
      | some 93 => failNext .trailingComma
      | some _ => pure true
      | none => failNext .endOfValue
    else failNext .expectedArrayCommaOrEnd

def nextMember (first : Bool) : Reader Bool := do
  match ← peekToken with
  | none => failNext .endOfObject
  | some 125 => pure false
  | some b =>
    if first then
      if b = 34 then pure true else failNext .keyNotString
    else if b = 44 then
      advance
      match ← peekToken with
      | some 34 => pure true
      | some 125 => failNext .trailingComma
      | some _ => failNext .keyNotString
      | none => failNext .endOfValue
    else failNext .expectedObjectCommaOrEnd

def colon : Reader Unit := do
  match ← peekToken with
  | some 58 => advance
  | some _ => failNext .expectedColon
  | none => failNext .endOfObject

def word : List UInt8 → Reader Unit
  | [] => pure ()
  | expected :: rest => do
    match ← next with
    | none => failHere .endOfValue
    | some b => if b = expected then word rest else failHere .expectedWord

/-- `ull`, `rue` and `alse`. -/
def nullTail : List UInt8 := [117, 108, 108]
def trueTail : List UInt8 := [114, 117, 101]
def falseTail : List UInt8 := [97, 108, 115, 101]

/-- Steps that can be taken before the document ends; a loop that passes a byte in every round
never uses them up. -/
def budget : Reader Nat := fun c => .ok (c.rest.length + 1) c

def elementsFrom (item : Reader α) : Nat → Bool → Reader (List α)
  | 0, _ => failHere .endOfArray
  | fuel + 1, first => do
    if ← nextElement first then
      let a ← item
      let rest ← elementsFrom item fuel false
      pure (a :: rest)
    else pure []

def elements (item : Reader α) : Reader (List α) := do
  elementsFrom item (← budget) true

def document (r : Reader α) : Reader α := do
  let a ← r
  match ← peekToken with
  | none => pure a
  | some _ => failNext .trailingCharacters

def run (r : Reader α) (bytes : List UInt8) : Except Fault α :=
  match document r (Cursor.start bytes) with
  | .ok a _ => .ok a
  | .error f _ => .error f

end Reader
end TextCompletion.Json
