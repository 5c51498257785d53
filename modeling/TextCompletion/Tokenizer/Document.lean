import TextCompletion.Json.Record
import TextCompletion.ModelConfig
import TextCompletion.Tokenizer.Basic

/-!
Reading a tokenizer from `tokenizer.json`. The document is an object; its members may come in any
order and may be repeated, the last one counting, but a member of another name is refused. An added
token has the id of its text in the vocabulary, or else the next free id; the id written beside it
does not count.

The format knows more than is read here: models other than `WordLevel`, and parts of other kinds
than the ones named below, are refused.
-/

namespace TextCompletion.Tokenizer

open Json Json.Reader

def fileName : String := "tokenizer.json"

def formatVersion : String := "1.0"

def member? (j : Json) (key : String) : Option Json :=
  match j with
  | .object members => Json.lookup? members key
  | _ => none

def text? : Json → Option String
  | .string s => some s
  | _ => none

def flag? : Json → Option Bool
  | .boolean b => some b
  | _ => none

def kind? (j : Json) : Option String := (member? j "type").bind text?

/-- Of entries with the same key only the last counts. -/
def lastEntries : List (String × Nat) → List (String × Nat)
  | [] => []
  | e :: rest => if rest.any fun r => r.1 == e.1 then lastEntries rest else e :: lastEntries rest

def model? (j : Json) : Option (List (String × Nat) × String) := do
  guard (kind? j = some "WordLevel")
  let unknown ← (member? j "unk_token").bind text?
  match ← member? j "vocab" with
  | .object members =>
    let entries ← members.mapM fun m => do pure (m.1, ← TokenIds.tokenId? m.2)
    pure (lastEntries entries, unknown)
  | _ => none

def split? : Json → Option WordSplit
  | .null => some .none
  | j =>
    match kind? j with
    | some "WhitespaceSplit" => some .blanks
    | some "Whitespace" => some .classes
    | _ => none

def lowercase? : Json → Option Bool
  | .null => some false
  | j => if kind? j = some "Lowercase" then some true else none

def joining? : Json → Option Joining
  | .null => some .spaced
  | j => if kind? j = some "Fuse" then some .fused else none

def specialIds (tokens : Json) (name : String) : Option (List Nat) := do
  match ← (member? tokens name).bind (member? · "ids") with
  | .array ids => ids.mapM TokenIds.tokenId?
  | _ => none

/-- A part of a template; the second of a pair of texts never occurs. -/
def templatePart? (tokens part : Json) : Option TemplatePart :=
  match member? part "SpecialToken" with
  | some token => do
    pure (.special (← specialIds tokens (← (member? token "id").bind text?)))
  | none =>
    match member? part "Sequence" with
    | some _ => some .text
    | none => none

def template? : Json → Option (Option (List TemplatePart))
  | .null => some none
  | j => do
    guard (kind? j = some "TemplateProcessing")
    let tokens := (member? j "special_tokens").getD (.object [])
    match ← member? j "single" with
    | .array parts => some <$> parts.mapM (templatePart? tokens)
    | _ => none

def addedToken? (j : Json) : Option AddedToken := do
  let _ ← (member? j "id").bind TokenIds.tokenId?
  pure
    { text := ← (member? j "content").bind text?
      id := 0
      isSpecial := ← (member? j "special").bind flag?
      isNormalized := ← (member? j "normalized").bind flag?
      isSingleWord := ← (member? j "single_word").bind flag?
      stripsLeft := ← (member? j "lstrip").bind flag?
      stripsRight := ← (member? j "rstrip").bind flag? }

def choice {α : Type} (choices : List (String × α)) : Reader α := do
  let name ← text
  match choices.lookup name with
  | some a => pure a
  | none => failHere (.unknownVariant name (choices.map Prod.fst))

def truncationSchema : Schema Truncation where
  name := "struct TruncationParams"
  blank := {}
  fields := [
    { name := "direction"
      read := fun r => do
        pure { r with side := ← choice [("Left", .left), ("Right", .right)] } },
    { name := "max_length", required := true
      read := fun r => do pure { r with maxLength := ← count } },
    { name := "strategy", required := true
      read := fun r => do
        pure { r with
          strategy := ← choice
            [("LongestFirst", .longestFirst), ("OnlyFirst", .onlyFirst),
              ("OnlySecond", .onlySecond)] } },
    { name := "stride", required := true
      read := fun r => do
        let _ ← count
        pure r }]

def understood {α : Type} (type : String) (f : Json → Option α) : Reader α := do
  match f (← innerValue) with
  | some a => pure a
  | none => failUnplaced (.noVariant type)

def paddingLength? : Json → Option (Option Nat)
  | .string "BatchLongest" | .object [("BatchLongest", .null)] => some none
  | .object [("Fixed", .number (.natural n))] =>
    if n ≤ Decimal.wordBound then some (some n) else none
  | _ => none

def paddingSchema : Schema Padding where
  name := "struct PaddingParams"
  blank := {}
  fields := [
    { name := "strategy", required := true
      read := fun p => do
        pure { p with length := ← understood "PaddingStrategy" paddingLength? } },
    { name := "direction", required := true
      read := fun p => do
        pure { p with side := ← choice [("Left", .left), ("Right", .right)] } },
    { name := "pad_to_multiple_of"
      read := fun p => do pure { p with multiple := ← optional count } },
    { name := "pad_id", required := true
      read := fun p => do pure { p with id := ← tokenId } },
    { name := "pad_type_id", required := true
      read := fun p => do
        let _ ← tokenId
        pure p },
    { name := "pad_token", required := true
      read := fun p => do
        let _ ← Reader.text
        pure p }]

structure Draft where
  model : Option (List (String × Nat) × String) := none
  added : List AddedToken := []
  lowercase : Bool := false
  split : WordSplit := .none
  template : Option (List TemplatePart) := none
  truncation : Option Truncation := none
  padding : Option Padding := none
  joining : Joining := .spaced

def readMember? (d : Draft) : String → Option (Reader Draft)
  | "version" => some do
    let version ← Reader.text
    if version = formatVersion then pure d
    else failUnplaced (.other ("Unknown tokenizer version '" ++ version ++ "'"))
  | "truncation" => some do pure { d with truncation := ← optional (record truncationSchema) }
  | "padding" => some do pure { d with padding := ← optional (record paddingSchema) }
  | "added_tokens" => some do
    pure { d with added := ← Reader.list (understood "AddedTokenWithId" addedToken?) }
  | "normalizer" => some do
    pure { d with lowercase := ← understood "NormalizerUntagged" lowercase? }
  | "pre_tokenizer" => some do
    pure { d with split := ← understood "PreTokenizerUntagged" split? }
  | "post_processor" => some do
    pure { d with template := ← understood "PostProcessorWrapper" template? }
  | "decoder" => some do pure { d with joining := ← understood "DecoderUntagged" joining? }
  | "model" => some do
    pure { d with model := some (← understood "ModelUntagged" model?) }
  | _ => none

def membersFrom : Nat → Bool → Draft → Reader Draft
  | 0, _, _ => failHere .endOfObject
  | fuel + 1, first, d => do
    if ← nextMember first then
      let k ← key
      match readMember? d k with
      | some r =>
        colon
        membersFrom fuel false (← r)
      | none =>
        let _ ← peekToken
        failNext .expectedObjectCommaOrEnd
    else pure d

def freeId (vocabulary : List (String × Nat)) (added : List AddedToken) : Nat :=
  match added.map AddedToken.id with
  | [] => vocabulary.length
  | id :: ids =>
    let greatest := ids.foldl max id
    if vocabulary.length ≤ greatest ∨ vocabulary.length = 0 then greatest + 1 else vocabulary.length

/-- The id under which a text is added: the one that it was added with before, or has in the
vocabulary, or else a free one. -/
def idFor (vocabulary : List (String × Nat)) (done : List AddedToken) (text : String) : Nat :=
  match done.find? fun b => b.text == text with
  | some b => b.id
  | none => (vocabulary.lookup text).getD (freeId vocabulary done)

/-- Gives the added tokens their ids, in their order. A token without a text, and one that is the
last with its id already, is passed over. -/
def assignIds (vocabulary : List (String × Nat)) :
    List AddedToken → List AddedToken → List AddedToken
  | done, [] => done
  | done, a :: rest =>
    let added := { a with id := idFor vocabulary done a.text }
    if a.text.isEmpty ∨ (done.reverse.find? fun b => b.id == added.id) = some added then
      assignIds vocabulary done rest
    else assignIds vocabulary (done ++ [added]) rest

def Draft.finish (d : Draft) : Option Tokenizer :=
  d.model.map fun (vocabulary, unknownWord) =>
    { vocabulary, unknownWord
      added := assignIds vocabulary [] d.added
      lowercase := d.lowercase
      split := d.split
      template := d.template
      truncation := d.truncation
      padding := d.padding
      joining := d.joining }

def reader : Reader Tokenizer := do
  match ← peekToken with
  | none => failNext .endOfValue
  | some 91 => do
    advance
    closedBy closeArray (failUnplaced (.wrongType .array "struct Tokenizer"))
  | some 123 => do
    advance
    closedBy closeObject do
      match (← membersFrom (← budget) true {}).finish with
      | some t => pure t
      | none => failUnplaced (.other "Model missing.")
  | some _ => wrongType "struct Tokenizer"

def ofContent : Except OsError Bytes → Except Cause Tokenizer
  | .error e => .error (.os e)
  | .ok content =>
    if (Text.Utf8.decode? content).isNone then .error (.stated "stream did not contain valid UTF-8")
    else (reader.run content).mapError .document

def loadBy {τ : Type} (make : Except OsError Bytes → Except Cause τ) (t : FileTree)
    (directory : String) : Except Failure τ :=
  let path := FilePath.join directory fileName
  if t.exists? path then (make (t.read path)).mapError fun cause => ⟨[.loadFile path], cause⟩
  else .error (.of (.noTokenizer path))

def load (t : FileTree) (directory : String) : Except Failure Tokenizer :=
  loadBy ofContent t directory

end TextCompletion.Tokenizer
