import TextCompletion.Text.Blank

/-!
How much of the log is shown, and the environment variable that chooses it.

The variable is read once, before anything else runs. Where it is unset, or holds bytes that are no
text, it is set to the quiet value, so that programs started later are quiet too.
-/

namespace TextCompletion

inductive Verbosity where
  | error
  | warn
  | info
  | debug
  | trace
  deriving DecidableEq, Repr

namespace Verbosity

/-- Blanks around the word and the case of ASCII letters do not count; an unknown word is `error`.
-/
def parse (raw : String) : Verbosity :=
  match Text.lowerAscii (Text.trim raw) with
  | "warning" => .warn
  | "warn" => .warn
  | "info" => .info
  | "debug" => .debug
  | "trace" => .trace
  | _ => .error

def label : Verbosity → String
  | .error => "ERROR"
  | .warn => "WARN"
  | .info => "INFO"
  | .debug => "DEBUG"
  | .trace => "TRACE"

def rank : Verbosity → Nat
  | .error => 0
  | .warn => 1
  | .info => 2
  | .debug => 3
  | .trace => 4

def shows (v severity : Verbosity) : Bool :=
  severity.rank ≤ v.rank

def variableName : String := "TRANSFORMERS_VERBOSITY"

def quietWord : String := "error"

def quietDefault : Option String → Option String
  | some _ => none
  | none => some quietWord

abbrev Setting := Option ByteArray

def Setting.text? (s : Setting) : Option String :=
  s.bind String.fromUTF8?

/-- Fills in the quiet word where the variable holds no text, and reads the verbosity. -/
def applyQuietDefault (current : Setting) : Verbosity × Setting :=
  match quietDefault current.text? with
  | some word => (parse word, some word.toUTF8)
  | none => (parse (current.text?.getD quietWord), current)

end Verbosity
end TextCompletion
