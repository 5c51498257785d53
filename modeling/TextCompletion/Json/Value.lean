import TextCompletion.Json.Number
import TextCompletion.Json.Text

/-!
Values of any shape. A value that is kept may nest 127 brackets deep in all; one that is skipped may
nest without limit. Members of an object stay in the order of the document, repeated keys included;
`lookup?` gives the last one.
-/

namespace TextCompletion

inductive Json where
  | null
  | boolean (b : Bool)
  | number (n : Json.Number)
  | string (s : String)
  | array (items : List Json)
  | object (members : List (String × Json))

namespace Json

def maxDepth : Nat := 127

def found : Json → Found
  | .null => .null
  | .boolean b => .boolean b
  | .number n => n.found
  | .string s => .string s
  | .array _ => .array
  | .object _ => .object

def lookup? (members : List (String × Json)) (key : String) : Option Json :=
  (members.reverse.find? fun m => m.1 == key).map Prod.snd

theorem lookup?_append (members more : List (String × Json)) (key : String) :
    lookup? (members ++ more) key = (lookup? more key).or (lookup? members key) := by
  unfold lookup?
  rw [List.reverse_append, List.find?_append]
  cases List.find? (fun m => m.1 == key) more.reverse <;> rfl

namespace Reader

def key : Reader String := do
  advance
  let k ← textTail
  pure k

def membersFrom (item : Reader Json) : Nat → Bool → Reader (List (String × Json))
  | 0, _ => failHere .endOfObject
  | fuel + 1, first => do
    if ← nextMember first then
      let k ← key
      colon
      let v ← item
      let rest ← membersFrom item fuel false
      pure ((k, v) :: rest)
    else pure []

def members (item : Reader Json) : Reader (List (String × Json)) := do
  membersFrom item (← budget) true

def scalar (b : UInt8) : Reader Json := do
  if b = 110 then do advance; word nullTail; pure .null
  else if b = 116 then do advance; word trueTail; pure (.boolean true)
  else if b = 102 then do advance; word falseTail; pure (.boolean false)
  else if b = 45 then do advance; let n ← unsigned true; pure (.number n)
  else if isDigit b then do let n ← unsigned false; pure (.number n)
  else if b = 34 then do advance; let s ← textTail; pure (.string s)
  else failNext .expectedValue

/-- A value that may open so many brackets inside one another. -/
def value : Nat → Reader Json
  | 0 => do
    match ← peekToken with
    | none => failNext .endOfValue
    | some b => if b = 91 ∨ b = 123 then failNext .tooDeep else scalar b
  | depth + 1 => do
    match ← peekToken with
    | none => failNext .endOfValue
    | some b =>
      if b = 91 then
        advance
        let items ← closedBy closeArray (elements (value depth))
        pure (.array items)
      else if b = 123 then
        advance
        let ms ← closedBy closeObject (members (value depth))
        pure (.object ms)
      else scalar b

inductive Frame where
  | array
  | object

def skipScalar (b : UInt8) : Reader Unit := do
  if b = 110 then do advance; word nullTail
  else if b = 116 then do advance; word trueTail
  else if b = 102 then do advance; word falseTail
  else if b = 45 then do advance; skipUnsigned
  else if isDigit b then skipUnsigned
  else if b = 34 then do advance; skipTextTail
  else failNext .expectedValue

def skipKey : Reader Unit := do
  match ← peekToken with
  | some 34 => do
    advance
    skipTextTail
    colon
  | some _ => failNext .keyNotString
  | none => failNext .endOfObject

/-- What is to be skipped next: a value, or what may follow one inside the open brackets; right
after an opening bracket no comma is accepted. -/
inductive SkipStep where
  | value
  | afterValue
  | afterOpening

def skipFrom : Nat → SkipStep → List Frame → Reader Unit
  | 0, _, _ => failHere .endOfValue
  | _ + 1, .afterValue, [] => pure ()
  | _ + 1, .afterOpening, [] => pure ()
  | fuel + 1, .value, frames => do
    match ← peekToken with
    | none => failNext .endOfValue
    | some b =>
      if b = 91 then
        advance
        skipFrom fuel .afterOpening (.array :: frames)
      else if b = 123 then
        advance
        skipFrom fuel .afterOpening (.object :: frames)
      else
        skipScalar b
        skipFrom fuel .afterValue frames
  | fuel + 1, step, frame :: frames => do
    let separated := match step with | .afterOpening => false | _ => true
    match ← peekToken, frame with
    | none, .array => failNext .endOfArray
    | none, .object => failNext .endOfObject
    | some b, .array =>
      if b = 93 then do advance; skipFrom fuel .afterValue frames
      else if separated then
        if b = 44 then do advance; skipFrom fuel .value (.array :: frames)
        else failNext .expectedArrayCommaOrEnd
      else skipFrom fuel .value (.array :: frames)
    | some b, .object =>
      if b = 125 then do advance; skipFrom fuel .afterValue frames
      else if separated then
        if b = 44 then do
          advance
          skipKey
          skipFrom fuel .value (.object :: frames)
        else failNext .expectedObjectCommaOrEnd
      else do
        skipKey
        skipFrom fuel .value (.object :: frames)

/-- Passes a value of any depth. Two rounds may go by for one byte. -/
def skipValue : Reader Unit := do
  skipFrom (2 * (← budget)) .value []

end Reader

def parse (bytes : List UInt8) : Except Fault Json :=
  Reader.run (Reader.value maxDepth) bytes

end Json
end TextCompletion
