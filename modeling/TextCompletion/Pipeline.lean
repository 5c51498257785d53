import TextCompletion.Model.Basic
import TextCompletion.Runner
import TextCompletion.Tokenizer.Document

/-!
A model directory at work: its model, its tokenizer, and what its configuration says on where
generation starts and stops. Loading goes through the files of the directory in a fixed order and
stops at the first one that fails. A generation returns the pipeline as it is afterwards, so that
the next one starts from there.
-/

namespace TextCompletion

structure Loaded (μ τ : Type) where
  task : Task
  model : μ
  tokenizer : τ
  stop : StopCondition
  decoderStart : Nat

abbrev Pipeline := Loaded Model Tokenizer

/-- Only a causal model gets a limit. -/
def Pipeline.stopCondition (c : ModelConfig) (generation : Option GenerationConfig) :
    StopCondition where
  endTokens := c.stopTokens generation
  contextLimit :=
    match c.architecture with
    | .causalDecoder => c.maxPositionEmbeddings
    | .encoderDecoder => none

/-- The first start token that is stated, and the padding token failing that. -/
def Pipeline.startToken (c : ModelConfig) (generation : Option GenerationConfig) : Nat :=
  (((generation.bind (·.decoderStartTokenId)).or c.decoderStartTokenId).or c.padTokenId).getD 0

/-- How models and tokenizers are made of what a directory holds. -/
structure Makers (μ τ : Type) where
  builders : Family → Builder μ
  tokenizer : Except OsError Bytes → Except Cause τ

def Makers.load {μ τ : Type} (m : Makers μ τ) (t : FileTree) (directory : String) :
    Logged (Loaded μ τ) := do
  let config ← liftM (ModelConfig.load t directory)
  let task := config.architecture.task
  Logged.report (.taskSelected config.modelTypeName task)
  let generation ← liftM (GenerationConfig.load t directory)
  let model ← Builder.load m.builders config t directory
  let tokenizer ← liftM (Tokenizer.loadBy m.tokenizer t directory)
  let stop := Pipeline.stopCondition config generation
  let decoderStart := Pipeline.startToken config generation
  Logged.report (.stopConditionSet stop decoderStart)
  pure { task, model, tokenizer, stop, decoderStart }

namespace Pipeline

def makers : Makers Model Tokenizer := ⟨Model.builder, Tokenizer.ofContent⟩

def load (t : FileTree) (directory : String) : Logged Pipeline := makers.load t directory

/-- What came of a prompt: the calls that the model was stepped with, the new tokens, and the model
afterwards. -/
structure Continuation where
  calls : List DecoderCall := []
  tokens : Logged (List Nat)
  model : Model

variable (p : Pipeline)

def continueFrom (ids : List Nat) (config : SamplingConfig) : Continuation :=
  match p.model with
  | .causal m s =>
    let run := TokenLoop.run m.decoder config p.stop ids (CausalModel.reset s)
    { calls := run.calls, tokens := ⟨run.events p.stop, run.tokens⟩
      model := .causal m run.decoder }
  | .seq2Seq m s =>
    match m.encode s ids with
    | (.error f, s) => { tokens := ⟨[], .error f⟩, model := .seq2Seq m s }
    | (.ok _, s) =>
      let run := TokenLoop.run m.decoder config p.stop [p.decoderStart] s
      { calls := run.calls, tokens := ⟨run.events p.stop, run.tokens⟩
        model := .seq2Seq m run.decoder }

def generateText (prompt : String) (config : SamplingConfig) : Logged String × Pipeline :=
  match during .tokenizePrompt (p.tokenizer.encode prompt true) with
  | .error f => (⟨[], .error f⟩, p)
  | .ok ids =>
    let next := p.continueFrom ids config
    let text : Logged String := do
      Logged.report (.promptEncoded ids.length)
      let tokens ← next.tokens
      Logged.report (.generationDone tokens.length)
      pure (p.tokenizer.decode tokens)
    (text, { p with model := next.model })

def generate (prompt : String) (config : SamplingConfig) : Logged (List Candidate) × Pipeline :=
  let (text, next) := p.generateText prompt config
  ((do pure [Candidate.generated (← text)]), next)

def generator : Generator where
  task := p.task
  generate prompt config := (p.generate prompt config).1

end Pipeline

def Backend.ofTree (t : FileTree) : Backend where
  load directory := do pure (← Pipeline.load t directory).generator

end TextCompletion
