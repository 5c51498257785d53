import TextCompletion.Architecture
import TextCompletion.Failure
import TextCompletion.Json.Record

/-!
The members of `config.json` that decide how a model directory is loaded, and the members of
`generation_config.json` that decide where generation starts and stops. Everything else in these
documents is passed over.
-/

namespace TextCompletion

/-- Whether a value counts as true: numbers other than zero, and whatever is not empty. -/
def Json.isTruthy : Json → Bool
  | .null => false
  | .boolean b => b
  | .number n => n.toFloat != 0
  | .string s => !s.isEmpty
  | .array items => !items.isEmpty
  | .object members => !members.isEmpty

def tokenBound : Nat := Nat.pow 2 32 - 1

inductive TokenIds where
  | one (id : Nat)
  | many (ids : List Nat)
  deriving DecidableEq, Repr

namespace TokenIds

def toList : TokenIds → List Nat
  | .one id => [id]
  | .many ids => ids

def tokenId? : Json → Option Nat
  | .number (.natural n) => if n ≤ tokenBound then some n else none
  | _ => none

def ofJson? : Json → Option TokenIds
  | .array items => (items.mapM tokenId?).map .many
  | v => (tokenId? v).map .one

end TokenIds

structure ModelConfig where
  isEncoderDecoder : Bool := false
  modelType : Option String := none
  architectures : List String := []
  eosTokenId : Option TokenIds := none
  padTokenId : Option Nat := none
  decoderStartTokenId : Option Nat := none
  maxPositionEmbeddings : Option Nat := none
  deriving DecidableEq, Repr

structure GenerationConfig where
  eosTokenId : Option TokenIds := none
  decoderStartTokenId : Option Nat := none
  deriving DecidableEq, Repr

namespace Json.Reader

def truthy : Reader Bool := do pure (← innerValue).isTruthy

def tokenId : Reader Nat := natural tokenBound "u32"

def tokenIds : Reader TokenIds := do
  match TokenIds.ofJson? (← innerValue) with
  | some ids => pure ids
  | none => failUnplaced (.noVariant "TokenIds")

def count : Reader Nat := natural Decimal.wordBound "usize"

end Json.Reader

namespace ModelConfig

open Json Json.Reader in
def schema : Schema ModelConfig where
  name := "struct ModelConfig"
  blank := {}
  fields := [
    { name := "is_encoder_decoder"
      read := fun c => do pure { c with isEncoderDecoder := ← truthy } },
    { name := "model_type"
      read := fun c => do pure { c with modelType := ← optional text } },
    { name := "architectures"
      read := fun c => do pure { c with architectures := ← list text } },
    { name := "eos_token_id"
      read := fun c => do pure { c with eosTokenId := ← optional tokenIds } },
    { name := "pad_token_id"
      read := fun c => do pure { c with padTokenId := ← optional tokenId } },
    { name := "decoder_start_token_id"
      read := fun c => do pure { c with decoderStartTokenId := ← optional tokenId } },
    { name := "max_position_embeddings"
      read := fun c => do pure { c with maxPositionEmbeddings := ← optional count } }]

def architecture (c : ModelConfig) : Architecture :=
  if c.isEncoderDecoder then .encoderDecoder else .causalDecoder

def modelTypeName (c : ModelConfig) : String := c.modelType.getD "unknown"

def appendNew (ids : List Nat) (more : List Nat) : List Nat :=
  more.foldl (fun ids id => if ids.contains id then ids else ids ++ [id]) ids

/-- The ids that end a generation, each once, those of the model configuration first. -/
def stopTokens (c : ModelConfig) (generation : Option GenerationConfig) : List Nat :=
  let fromModel := (c.eosTokenId.map TokenIds.toList).getD []
  let fromGeneration := ((generation.bind (·.eosTokenId)).map TokenIds.toList).getD []
  appendNew [] (fromModel ++ fromGeneration)

def fileName : String := "config.json"

def load (t : FileTree) (directory : String) : Except Failure ModelConfig := do
  let path := FilePath.join directory fileName
  (Json.Reader.record schema).ofFile path (← t.contentOf path)

end ModelConfig

namespace GenerationConfig

open Json Json.Reader in
def schema : Schema GenerationConfig where
  name := "struct GenerationConfig"
  blank := {}
  fields := [
    { name := "eos_token_id"
      read := fun c => do pure { c with eosTokenId := ← optional tokenIds } },
    { name := "decoder_start_token_id"
      read := fun c => do pure { c with decoderStartTokenId := ← optional tokenId } }]

def fileName : String := "generation_config.json"

/-- The file is optional, but one that is there must be readable. -/
def load (t : FileTree) (directory : String) : Except Failure (Option GenerationConfig) := do
  let path := FilePath.join directory fileName
  if t.exists? path then
    some <$> (Json.Reader.record schema).ofFile path (← t.contentOf path)
  else pure none

end GenerationConfig
end TextCompletion
