import TextCompletion.Architecture
import TextCompletion.FileTree
import TextCompletion.Generation.Distribution
import TextCompletion.Json.Reader
import TextCompletion.Model.Fault
import TextCompletion.Weights.Fault

/-!
Failures: a cause, and the steps that were under way when it arose, outermost first. The text of a
failure names the steps and then the cause, joined by colons.
-/

namespace TextCompletion

/-- A step that a failure passed on its way out. -/
inductive Step where
  | readFile (path : String)
  | parseFile (path : String)
  | parseFileAs (path type : String)
  | listDirectory (path : String)
  | openFile (path : String)
  | mapFile (path : String)
  | readHeader (path : String)
  | loadFile (path : String)
  | system (e : OsError)
  | build (family : String)
  | tokenizePrompt
  | encodePrompt
  | forward (position : Nat)
  | sampleToken
  | writeOutput
  | flushOutput
  | stated (text : String)
  deriving DecidableEq, Repr

def Step.message : Step → String
  | .readFile path => "read " ++ Text.quote path
  | .parseFile path => "parse " ++ Text.quote path
  | .parseFileAs path type => "parse " ++ Text.quote path ++ " as " ++ type
  | .listDirectory path => "read_dir " ++ Text.quote path
  | .openFile path => "open " ++ Text.quote path
  | .mapFile path => "mmap " ++ Text.quote path
  | .readHeader path => "deserialize " ++ Text.quote path
  | .loadFile path => "load " ++ Text.quote path
  | .system e => "i/o error: " ++ e.message
  | .build family => "build " ++ family
  | .tokenizePrompt => "tokenize prompt"
  | .encodePrompt => "encode prompt"
  | .forward position => "forward at position " ++ toString position
  | .sampleToken => "sample next token"
  | .writeOutput => "write output"
  | .flushOutput => "flush output"
  | .stated text => text

inductive Cause where
  | os (e : OsError)
  | document (f : Json.Fault)
  | unsupportedModel (task : Task) (modelType : String) (supported : List String)
  | noWeights (directory : String)
  | noShards (index : String)
  | missingShard (shard index : String)
  | header (f : Weights.HeaderFault)
  | archive (f : Weights.ArchiveFault)
  | tensor (f : Weights.TensorFault)
  | layersUnavailable (family : String)
  | compute (f : ComputeFault)
  | noTokenizer (path : String)
  | noUnknownWord
  | noTokens
  | notEncoded
  | draw (f : DrawFault)
  | stated (text : String)

def Cause.message : Cause → String
  | .os e => e.message
  | .document f => f.message
  | .unsupportedModel task modelType supported =>
    "unsupported " ++ task.label ++ " model_type " ++ Text.quote modelType ++ " (supported: " ++
      ", ".intercalate supported ++ ")"
  | .noWeights directory =>
    "no weights found under " ++ Text.quote directory ++
      " (expected model.safetensors, model.safetensors.index.json, pytorch_model.bin or " ++
      "pytorch_model.bin.index.json)"
  | .noShards index => index ++ " lists no shards"
  | .missingShard shard index => "shard " ++ shard ++ " listed in " ++ index ++ " is missing"
  | .header f => f.message
  | .archive f => f.message
  | .tensor f => f.message
  | .layersUnavailable family => "layers of " ++ family ++ " models are not available"
  | .compute f => f.message
  | .noTokenizer path => "missing tokenizer.json at " ++ Text.quote path
  | .noUnknownWord => "WordLevel error: Missing [UNK] token from the vocabulary"
  | .noTokens => "prompt produced no tokens"
  | .notEncoded => "decoder stepped before the prompt was encoded"
  | .draw f => f.message
  | .stated text => text

structure Failure where
  steps : List Step := []
  cause : Cause

namespace Failure

def of (cause : Cause) : Failure := { cause }

def lines (f : Failure) : List String := f.steps.map Step.message ++ [f.cause.message]

def message (f : Failure) : String := ": ".intercalate f.lines

def within (f : Failure) (s : Step) : Failure := { f with steps := s :: f.steps }

end Failure

variable {α : Type}

def during (s : Step) : Except Failure α → Except Failure α
  | .ok a => .ok a
  | .error f => .error (f.within s)

def accessing (s : Step) : Except OsError α → Except Failure α
  | .ok a => .ok a
  | .error e => .error ⟨[s], .os e⟩

def FileTree.contentOf (t : FileTree) (path : String) : Except Failure Bytes :=
  accessing (.readFile path) (t.read path)

namespace Json

def Reader.ofFile (r : Reader α) (path : String) (content : Bytes) : Except Failure α :=
  match r.run content with
  | .ok a => .ok a
  | .error f => .error ⟨[.parseFile path], .document f⟩

end Json
end TextCompletion
