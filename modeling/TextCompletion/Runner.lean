import TextCompletion.Candidate
import TextCompletion.Log
import TextCompletion.Text.Utf8

/-!
One invocation from start to end: a backend is acquired, the model directory is checked, a model is
loaded, a text is generated and written as one line. The first stage that fails decides the outcome,
and no later stage is carried out. Each outcome has an exit status of its own.
-/

namespace TextCompletion

structure Invocation where
  modelPath : String
  prompt : String
  params : Params := {}

structure Generator where
  task : Task
  generate : String → SamplingConfig → Logged (List Candidate)

structure Backend where
  load : String → Logged Generator

inductive RunError where
  | backendUnavailable (reason : String)
  | directoryNotFound (path : String)
  | inference (text : String)
  deriving DecidableEq, Repr

namespace RunError

def message : RunError → String
  | backendUnavailable reason => "Failed to import transformers: " ++ reason
  | directoryNotFound path => "Model directory not found: " ++ path
  | inference text => "Transformers inference error: " ++ text

def exitCode : RunError → Nat
  | backendUnavailable _ => 2
  | directoryNotFound _ => 3
  | inference _ => 4

end RunError

inductive SinkFault where
  | brokenPipe
  | noSpace
  | nothingTaken
  | other (text : String)
  deriving DecidableEq, Repr

def SinkFault.message : SinkFault → String
  | brokenPipe => "Broken pipe (os error 32)"
  | noSpace => "no storage space"
  | nothingTaken => "failed to write whole buffer"
  | other text => text

/-- Where the line is written. A sink takes as many bytes as its limit allows and then refuses; it
may refuse to be flushed. -/
structure Sink where
  limit : Option Nat := none
  refusal : SinkFault := .noSpace
  flushRefusal : Option SinkFault := none

namespace Sink

def take (s : Sink) (bytes : Bytes) : Bytes :=
  match s.limit with
  | none => bytes
  | some n => bytes.take n

def write (s : Sink) (bytes : Bytes) : Bytes × Except Failure Unit :=
  (s.take bytes,
    if (s.take bytes).length = bytes.length then .ok ()
    else .error ⟨[.writeOutput], .stated s.refusal.message⟩)

def flush (s : Sink) : Except Failure Unit :=
  match s.flushRefusal with
  | none => .ok ()
  | some fault => .error ⟨[.flushOutput], .stated fault.message⟩

end Sink

inductive BackendCall where
  | load (path : String)
  | generate (prompt : String) (config : SamplingConfig)

structure RunReport where
  result : Except RunError Unit
  output : Bytes := []
  flushes : Nat := 0
  calls : List BackendCall := []
  events : List LogEvent := []

def outputLine (candidates : List Candidate) : Bytes :=
  Text.Utf8.encode (((candidates.head?.map Candidate.text).getD "") ++ "\n")

def failed (f : Failure) : Except RunError Unit := .error (.inference f.message)

def Sink.deliver (s : Sink) (line : Bytes) (r : RunReport) : RunReport :=
  match s.write line with
  | (taken, .error f) => { r with result := failed f, output := taken }
  | (taken, .ok _) =>
    match s.flush with
    | .error f => { r with result := failed f, output := taken, flushes := 1 }
    | .ok _ => { r with result := .ok (), output := taken, flushes := 1 }

def Backend.complete (b : Backend) (i : Invocation) (sink : Sink) : RunReport :=
  let loaded := b.load i.modelPath
  match loaded.result with
  | .error f => { result := failed f, calls := [.load i.modelPath], events := loaded.events }
  | .ok generator =>
    let config := i.params.effective
    let candidates := generator.generate i.prompt config
    let report : RunReport :=
      { result := .ok ()
        calls := [.load i.modelPath, .generate i.prompt config]
        events :=
          loaded.events ++
            [.pipelineReady generator.task, .samplingSet config] ++ candidates.events }
    match candidates.result with
    | .error f => { report with result := failed f }
    | .ok candidates => sink.deliver (outputLine candidates) report

def run (t : FileTree) (backend : Except RunError Backend) (i : Invocation) (sink : Sink) :
    RunReport :=
  match backend with
  | .error e => { result := .error e }
  | .ok b =>
    if t.isDirectory i.modelPath then b.complete i sink
    else { result := .error (.directoryNotFound i.modelPath) }

end TextCompletion
