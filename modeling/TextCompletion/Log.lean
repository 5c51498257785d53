import TextCompletion.Decimal.Shortest
import TextCompletion.Family
import TextCompletion.Generation.Stop
import TextCompletion.Params
import TextCompletion.Verbosity
import TextCompletion.Weights.Files

/-!
What a run reports about itself. Events are values with a severity and a text of one line; a
computation collects its events in order and keeps them when it fails.
-/

namespace TextCompletion

inductive LogEvent where
  | taskSelected (modelType : String) (task : Task)
  | weightsFound (family : Family) (files : WeightFiles)
  | headersChecked (shards tensors : Nat)
  | archiveOpened (path : String)
  | archivesMerged (shards tensors : Nat)
  | stopConditionSet (stop : StopCondition) (decoderStart : Nat)
  | pipelineReady (task : Task)
  | samplingSet (config : SamplingConfig)
  | promptEncoded (tokens : Nat)
  | windowFull (limit : Option Nat) (generated : Nat)
  | endTokenDrawn (token : Nat)
  | generationDone (tokens : Nat)

def optionText : Option Nat → String
  | none => "None"
  | some n => "Some(" ++ toString n ++ ")"

def StopCondition.label (s : StopCondition) : String :=
  "StopCondition \x7b eos_ids: [" ++ ", ".intercalate (s.endTokens.map toString) ++
    "], context_limit: " ++ optionText s.contextLimit ++ " \x7d"

def SamplingConfig.label (c : SamplingConfig) : String :=
  "SamplingConfig \x7b max_new_tokens: " ++ toString c.maxNewTokens ++
    ", temperature: " ++ Decimal.Layout.log.float c.temperature ++
    ", top_p: " ++ Decimal.Layout.log.float c.topP ++
    ", do_sample: " ++ toString c.doSample ++
    ", return_full_text: " ++ toString c.returnFullText ++
    ", seed: " ++ toString c.seed ++
    ", repetition_penalty: " ++ Decimal.Layout.log.float32 c.repetitionPenalty ++
    ", repeat_last_n: " ++ toString c.repeatLastN ++ " \x7d"

namespace LogEvent

def severity : LogEvent → Verbosity
  | taskSelected .. => .info
  | pipelineReady .. => .info
  | windowFull .. => .warn
  | _ => .debug

def text : LogEvent → String
  | taskSelected modelType task =>
    "selected task model_type=" ++ Text.quote modelType ++ " task=" ++ task.label
  | weightsFound family files => "weights family=" ++ family.label ++ " files=" ++ files.label
  | headersChecked shards tensors =>
    "safetensors headers ok shards=" ++ toString shards ++ " tensors=" ++ toString tensors
  | archiveOpened path => "loading pytorch weights path=" ++ Text.quote path
  | archivesMerged shards tensors =>
    "pytorch shards loaded shards=" ++ toString shards ++ " tensors=" ++ toString tensors
  | stopConditionSet stop start =>
    "stop condition stop=" ++ stop.label ++ " decoder_start=" ++ toString start
  | pipelineReady task => "pipeline ready task=" ++ task.label
  | samplingSet config => "effective sampling cfg=" ++ config.label
  | promptEncoded tokens => "encoded prompt prompt_tokens=" ++ toString tokens
  | windowFull limit generated =>
    "context window full, stopping early limit=" ++ optionText limit ++ " generated=" ++
      toString generated
  | endTokenDrawn token => "eos token=" ++ toString token
  | generationDone tokens => "generated new_tokens=" ++ toString tokens

def line (e : LogEvent) : String := e.severity.label ++ " " ++ e.text

end LogEvent

def Verbosity.lines (v : Verbosity) (events : List LogEvent) : List String :=
  (events.filter fun e => v.shows e.severity).map LogEvent.line

/-- A result or a failure, with the events up to there. -/
structure Logged (α : Type) where
  events : List LogEvent := []
  result : Except Failure α

namespace Logged

variable {α β : Type}

def bind (x : Logged α) (f : α → Logged β) : Logged β :=
  match x.result with
  | .ok a => ⟨x.events ++ (f a).events, (f a).result⟩
  | .error e => ⟨x.events, .error e⟩

instance : Monad Logged where
  pure a := ⟨[], .ok a⟩
  bind := bind

instance : MonadLift (Except Failure) Logged where
  monadLift r := ⟨[], r⟩

def report (e : LogEvent) : Logged Unit := ⟨[e], .ok ()⟩

theorem bind_ok (events : List LogEvent) (a : α) (f : α → Logged β) :
    (⟨events, .ok a⟩ : Logged α) >>= f = ⟨events ++ (f a).events, (f a).result⟩ := rfl

theorem bind_error (events : List LogEvent) (e : Failure) (f : α → Logged β) :
    (⟨events, .error e⟩ : Logged α) >>= f = ⟨events, .error e⟩ := rfl

end Logged
end TextCompletion
