import TextCompletion.CommandLine
import TextCompletion.Pipeline

/-!
The program from its arguments to what it leaves behind: an exit status, the text on its output, and
the lines on its error output, log lines before the report of a failure.
-/

namespace TextCompletion

/-- What a program finds when it starts. -/
structure Surroundings where
  arguments : List String
  verbosity : Verbosity.Setting := none
  files : FileTree
  hasBackend : Bool := true

structure ProgramResult where
  exitCode : Nat := 0
  output : Bytes := []
  errorOutput : String := ""

namespace Program

def noBackend : RunError :=
  .backendUnavailable "textgen was built without the \x60candle\x60 feature"

def backend (s : Surroundings) : Except RunError Backend :=
  if s.hasBackend then .ok (Backend.ofTree s.files) else .error noBackend

def unlines (lines : List String) : String := String.join (lines.map (· ++ "\n"))

def invoke (s : Surroundings) (i : Invocation) : ProgramResult :=
  let verbosity := (Verbosity.applyQuietDefault s.verbosity).1
  let report := TextCompletion.run s.files (backend s) i {}
  let log := verbosity.lines report.events
  match report.result with
  | .ok _ => { output := report.output, errorOutput := unlines log }
  | .error e =>
    { exitCode := e.exitCode, output := report.output
      errorOutput := unlines (log ++ [e.message]) }

def run (s : Surroundings) : ProgramResult :=
  match CommandLine.parse s.arguments with
  | .ok (.invoke i) => invoke s i
  | .ok .help => { output := Text.Utf8.encode CommandLine.helpText }
  | .ok .version => { output := Text.Utf8.encode CommandLine.versionText }
  | .error e => { exitCode := CommandLine.UsageError.exitCode, errorOutput := e.message }

def directory? (arguments : List String) : Option String :=
  match CommandLine.parse arguments with
  | .ok (.invoke i) => some i.modelPath
  | _ => none

end Program
end TextCompletion
