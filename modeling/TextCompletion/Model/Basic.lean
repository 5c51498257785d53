import TextCompletion.Model.Assembly
import TextCompletion.Model.Settings

/-!
A model of either architecture together with what it was fed, and how a directory becomes one: the
family is settled before any weight is looked for, the weights before the family's own settings are
read. What a family makes of its settings and the tensors is its builder's affair.
-/

namespace TextCompletion

inductive Model where
  | causal (m : CausalModel) (s : CausalModel.State)
  | seq2Seq (m : Seq2SeqModel) (s : Seq2SeqModel.State)

/-- How a family makes a model: it reads settings of its own from the document of the configuration,
and builds the model from them and the tensors. -/
structure Builder (μ : Type) where
  Config : Type
  typeName : String
  read : Json → Except Json.FaultKind Config
  build : Config → Weights.Store → Except Failure μ

namespace Builder

variable {μ : Type}

def make (b : Builder μ) (t : FileTree) (directory : String) (s : Weights.Store) :
    Except Failure μ := do
  b.build (← Settings.load b.typeName b.read t directory) s

def load (builders : Family → Builder μ) (c : ModelConfig) (t : FileTree) (directory : String) :
    Logged μ := do
  let family ← liftM (Family.resolve c.architecture c.modelTypeName)
  let files ← liftM (WeightFiles.find t directory)
  Logged.report (.weightsFound family files)
  let store ← Weights.load t files
  liftM ((builders family).make t directory store)

end Builder

namespace Model

def builder : Family → Builder Model
  | .causal f =>
    { Config := Hyperparameters
      typeName := (Settings.ofCausal f).typeName
      read := (Settings.ofCausal f).read
      build := fun h s => do pure (.causal (← f.assemble h s) {}) }
  | .seq2Seq f =>
    { Config := Hyperparameters
      typeName := (Settings.ofSeq2Seq f).typeName
      read := (Settings.ofSeq2Seq f).read
      build := fun h s => do pure (.seq2Seq (← f.assemble h s) {}) }

def ofFamily (f : Family) (t : FileTree) (directory : String) (s : Weights.Store) :
    Except Failure Model := (builder f).make t directory s

def load (c : ModelConfig) (t : FileTree) (directory : String) : Logged Model :=
  Builder.load builder c t directory

end Model
end TextCompletion
