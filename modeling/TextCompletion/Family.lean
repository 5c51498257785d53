import TextCompletion.Failure

/-!
Model families, each known by one or more values of `model_type`, and the choice of a family for a
model. A name counts for one architecture only, and its case matters.
-/

namespace TextCompletion

inductive CausalFamily where
  | llama
  | mistral
  | mixtral
  | phi
  | phi3
  | gemma
  | gemma2
  | qwen2
  | qwen3
  | stableLm
  | starcoder2
  deriving DecidableEq, Repr

inductive Seq2SeqFamily where
  | t5
  | marian
  deriving DecidableEq, Repr

inductive Family where
  | causal (f : CausalFamily)
  | seq2Seq (f : Seq2SeqFamily)
  deriving DecidableEq, Repr

namespace CausalFamily

def label : CausalFamily → String
  | llama => "Llama"
  | mistral => "Mistral"
  | mixtral => "Mixtral"
  | phi => "Phi"
  | phi3 => "Phi3"
  | gemma => "Gemma"
  | gemma2 => "Gemma2"
  | qwen2 => "Qwen2"
  | qwen3 => "Qwen3"
  | stableLm => "StableLm"
  | starcoder2 => "Starcoder2"

def name : CausalFamily → String
  | llama => "llama"
  | mistral => "mistral"
  | mixtral => "mixtral"
  | phi => "phi"
  | phi3 => "phi3"
  | gemma => "gemma"
  | gemma2 => "gemma2"
  | qwen2 => "qwen2"
  | qwen3 => "qwen3"
  | stableLm => "stablelm"
  | starcoder2 => "starcoder2"

def all : List CausalFamily :=
  [llama, mistral, mixtral, phi, phi3, gemma, gemma2, qwen2, qwen3, stableLm, starcoder2]

/-- The values of `model_type`, in the order in which messages list them. -/
def names : List (String × CausalFamily) := all.map fun f => (f.name, f)

def ofName? (modelType : String) : Option CausalFamily := names.lookup modelType

end CausalFamily

namespace Seq2SeqFamily

def label : Seq2SeqFamily → String
  | t5 => "T5"
  | marian => "Marian"

def name : Seq2SeqFamily → String
  | t5 => "t5"
  | marian => "marian"

def names : List (String × Seq2SeqFamily) := [("t5", t5), ("mt5", t5), ("marian", marian)]

def ofName? (modelType : String) : Option Seq2SeqFamily := names.lookup modelType

end Seq2SeqFamily

namespace Family

def label : Family → String
  | causal f => "Causal(" ++ f.label ++ ")"
  | seq2Seq f => "Seq2Seq(" ++ f.label ++ ")"

def supported : Architecture → List String
  | .encoderDecoder => Seq2SeqFamily.names.map Prod.fst
  | .causalDecoder => CausalFamily.names.map Prod.fst

def ofName? (modelType : String) : Architecture → Option Family
  | .encoderDecoder => (Seq2SeqFamily.ofName? modelType).map seq2Seq
  | .causalDecoder => (CausalFamily.ofName? modelType).map causal

def resolve (a : Architecture) (modelType : String) : Except Failure Family :=
  match ofName? modelType a with
  | some f => .ok f
  | none => .error (.of (.unsupportedModel a.task modelType (supported a)))

end Family
end TextCompletion
