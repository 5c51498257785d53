import TextCompletion.Decimal.Shortest
import TextCompletion.Json.Cursor
import TextCompletion.Text.Quoted

/-!
What can be wrong with a document: it breaks the grammar, or it is well formed and holds something
else than was asked for. A fault is placed where it was noticed; one that is noticed only after its
value was read is placed when the reader leaves the array or object around it, or never.
-/

namespace TextCompletion.Json

inductive Found where
  | null
  | boolean (b : Bool)
  | natural (n : Nat)
  | negative (n : Int)
  | decimal (x : Float)
  | string (s : String)
  | array
  | object

def Found.message : Found → String
  | .null => "null"
  | .boolean b => "boolean `" ++ (if b then "true" else "false") ++ "`"
  | .natural n => "integer `" ++ toString n ++ "`"
  | .negative n => "integer `" ++ toString n ++ "`"
  | .decimal x => "floating point `" ++ Decimal.Layout.document.float x ++ "`"
  | .string s => "string " ++ Text.quote s
  | .array => "sequence"
  | .object => "map"

inductive FaultKind where
  | endOfValue
  | endOfArray
  | endOfObject
  | endOfString
  | expectedColon
  | expectedArrayCommaOrEnd
  | expectedObjectCommaOrEnd
  | expectedWord
  | expectedValue
  | invalidEscape
  | invalidNumber
  | numberOutOfRange
  | illFormedText
  | controlCharacter
  | keyNotString
  | loneSurrogate
  | brokenSurrogatePair
  | trailingComma
  | trailingCharacters
  | tooDeep
  | wrongType (found : Found) (expected : String)
  | wrongValue (found : Found) (expected : String)
  | wrongLength (length : Nat) (expected : String)
  | missingField (name : String)
  | duplicateField (name : String)
  | unknownVariant (name : String) (expected : List String)
  | noVariant (type : String)
  | other (message : String)

def alternatives : List String → String
  | [] => "there are no variants"
  | [a] => "expected `" ++ a ++ "`"
  | [a, b] => "expected `" ++ a ++ "` or `" ++ b ++ "`"
  | names => "expected one of " ++ ", ".intercalate (names.map fun n => "`" ++ n ++ "`")

def FaultKind.message : FaultKind → String
  | .endOfValue => "EOF while parsing a value"
  | .endOfArray => "EOF while parsing a list"
  | .endOfObject => "EOF while parsing an object"
  | .endOfString => "EOF while parsing a string"
  | .expectedColon => "expected `:`"
  | .expectedArrayCommaOrEnd => "expected `,` or `]`"
  | .expectedObjectCommaOrEnd => "expected `,` or `\x7d`"
  | .expectedWord => "expected ident"
  | .expectedValue => "expected value"
  | .invalidEscape => "invalid escape"
  | .invalidNumber => "invalid number"
  | .numberOutOfRange => "number out of range"
  | .illFormedText => "invalid unicode code point"
  | .controlCharacter => "control character (\\u0000-\\u001F) found while parsing a string"
  | .keyNotString => "key must be a string"
  | .loneSurrogate => "lone leading surrogate in hex escape"
  | .brokenSurrogatePair => "unexpected end of hex escape"
  | .trailingComma => "trailing comma"
  | .trailingCharacters => "trailing characters"
  | .tooDeep => "recursion limit exceeded"
  | .wrongType found expected => "invalid type: " ++ found.message ++ ", expected " ++ expected
  | .wrongValue found expected => "invalid value: " ++ found.message ++ ", expected " ++ expected
  | .wrongLength n expected => "invalid length " ++ toString n ++ ", expected " ++ expected
  | .missingField name => "missing field `" ++ name ++ "`"
  | .duplicateField name => "duplicate field `" ++ name ++ "`"
  | .unknownVariant name expected =>
    "unknown variant `" ++ name ++ "`, " ++ alternatives expected
  | .noVariant type => "data did not match any variant of untagged enum " ++ type
  | .other message => message

structure Fault where
  kind : FaultKind
  position : Option Position := none

/-- An unplaced fault gets the position; a placed one keeps its own. -/
def Fault.placeAt (f : Fault) (p : Position) : Fault :=
  match f.position with
  | some _ => f
  | none => { f with position := some p }

def Fault.message (f : Fault) : String :=
  match f.position with
  | none => f.kind.message
  | some p => f.kind.message ++ " at line " ++ toString p.line ++ " column " ++ toString p.column

end TextCompletion.Json
