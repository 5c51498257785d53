import TextCompletion.Decimal.Reading
import TextCompletion.Runner
import TextCompletion.Text.Similarity

/-!
The command line. Every option is written `--name value` or `--name=value` and may be given once. A
value on its own may begin with a dash only where the option allows it: the prompt takes any text,
and some numbers take a numeral with a sign. An option's value is read when the next option begins
or the line ends, so an argument that belongs to no option is reported first.
-/

namespace TextCompletion.CommandLine

inductive Flag where
  | modelPath
  | prompt
  | maxNewTokens
  | temperature
  | topP
  | seed
  | repetitionPenalty
  | repeatLastN
  deriving DecidableEq, Repr

namespace Flag

def all : List Flag :=
  [modelPath, prompt, maxNewTokens, temperature, topP, seed, repetitionPenalty, repeatLastN]

def name : Flag → String
  | modelPath => "model-path"
  | prompt => "prompt"
  | maxNewTokens => "max-new-tokens"
  | temperature => "temperature"
  | topP => "top-p"
  | seed => "seed"
  | repetitionPenalty => "repetition-penalty"
  | repeatLastN => "repeat-last-n"

def valueName : Flag → String
  | modelPath => "MODEL_PATH"
  | prompt => "PROMPT"
  | maxNewTokens => "MAX_NEW_TOKENS"
  | temperature => "TEMPERATURE"
  | topP => "TOP_P"
  | seed => "SEED"
  | repetitionPenalty => "REPETITION_PENALTY"
  | repeatLastN => "REPEAT_LAST_N"

def ofName? (s : String) : Option Flag := all.find? fun f => f.name == s

def usage (f : Flag) : String := "--" ++ f.name ++ " <" ++ f.valueName ++ ">"

def isRequired : Flag → Bool
  | modelPath | prompt => true
  | _ => false

/-- Whether any text counts as the value, one that begins with dashes too. -/
def takesAnything : Flag → Bool
  | prompt => true
  | _ => false

def takesNegative : Flag → Bool
  | maxNewTokens | temperature | topP => true
  | _ => false

def help : Flag → String
  | modelPath | prompt => ""
  | maxNewTokens => "[default: 128]"
  | temperature => "[default: 0.7]"
  | topP => "[default: 0.9]"
  | seed => "[default: 299792458]"
  | repetitionPenalty => "1.0 disables the penalty [default: 1]"
  | repeatLastN => "[default: 64]"

end Flag

inductive Switch where
  | help
  | version
  deriving DecidableEq, Repr

namespace Switch

def name : Switch → String
  | help => "help"
  | version => "version"

def letter : Switch → Char
  | help => 'h'
  | version => 'V'

def ofName? (s : String) : Option Switch := [help, version].find? fun w => w.name == s

def ofLetter? (c : Char) : Option Switch := [help, version].find? fun w => w.letter == c

def usage (s : Switch) : String := "--" ++ s.name

end Switch

def programName : String := "textgen"
def programVersion : String := "0.1.0"

/-- A usage line that names the required options and those listed; with none listed it says that
there are others. -/
def usageLine (mentioned : List String) : String :=
  let required := (Flag.all.filter Flag.isRequired).map Flag.usage
  let parts :=
    if mentioned.isEmpty then "[OPTIONS]" :: required
    else required ++ mentioned.filter fun m => !required.contains m
  "Usage: " ++ programName ++ " " ++ " ".intercalate parts

inductive UsageError where
  /-- An argument that belongs to nothing; the name of an option like it; options to mention. -/
  | unknownArgument (argument : String) (similar : Option String) (mentioned : List String)
  | missingValue (flag : Flag)
  | invalidValue (flag : Flag) (value reason : String)
  | repeated (flag : Flag)
  | unwantedValue (switch : Switch) (value : String) (mentioned : List String)
  | missingRequired (flags : List Flag) (mentioned : List String)
  deriving DecidableEq, Repr

namespace UsageError

def paragraphs : UsageError → List String
  | unknownArgument argument similar mentioned =>
    ("error: unexpected argument '" ++ argument ++ "' found") ::
      (similar.map fun s => "  tip: a similar argument exists: '--" ++ s ++ "'").toList ++
      [usageLine mentioned]
  | missingValue f => ["error: a value is required for '" ++ f.usage ++ "' but none was supplied"]
  | invalidValue f value reason =>
    ["error: invalid value '" ++ value ++ "' for '" ++ f.usage ++ "': " ++ reason]
  | repeated f =>
    ["error: the argument '" ++ f.usage ++ "' cannot be used multiple times", usageLine []]
  | unwantedValue s value mentioned =>
    ["error: unexpected value '" ++ value ++ "' for '" ++ s.usage ++
      "' found; no more were expected", usageLine mentioned]
  | missingRequired flags mentioned =>
    ["error: the following required arguments were not provided:" ++
      String.join (flags.map fun f => "\n  " ++ f.usage), usageLine mentioned]

def message (e : UsageError) : String :=
  "\n\n".intercalate (e.paragraphs ++ ["For more information, try '--help'."]) ++ "\n"

def exitCode : Nat := 2

end UsageError

inductive Request where
  | invoke (i : Invocation)
  | help
  | version

def padRight (width : Nat) (s : String) : String :=
  s ++ String.ofList (List.replicate (width - s.length) ' ')

def helpText : String :=
  let rows :=
    Flag.all.map (fun f => ("      " ++ f.usage, f.help)) ++
      [("  -h, --help", "Print help"), ("  -V, --version", "Print version")]
  let width := (rows.map fun r => r.1.length).foldl max 0
  "Run one text-generation call against a local model directory (Candle backend)\n\n" ++
    usageLine [] ++ "\n\nOptions:\n" ++
    String.join (rows.map fun r => padRight width r.1 ++ "  " ++ r.2 ++ "\n")

def versionText : String := programName ++ " " ++ programVersion ++ "\n"

structure Draft where
  given : List Flag := []
  invocation : Invocation := { modelPath := "", prompt := "" }

def Flag.read (f : Flag) (value : String) (i : Invocation) : Except UsageError Invocation :=
  let whole (r : Except Decimal.WholeError Params) : Except UsageError Invocation :=
    match r with
    | .ok p => .ok { i with params := p }
    | .error e => .error (.invalidValue f value e.message)
  let decimal (r : Except Decimal.NumeralError Params) : Except UsageError Invocation :=
    match r with
    | .ok p => .ok { i with params := p }
    | .error e => .error (.invalidValue f value e.message)
  match f with
  | modelPath =>
    if value.isEmpty then .error (.missingValue f) else .ok { i with modelPath := value }
  | prompt => .ok { i with prompt := value }
  | maxNewTokens =>
    whole ((Decimal.readInteger value).map fun n => { i.params with maxNewTokens := n })
  | temperature =>
    decimal ((Decimal.readFloat value).map fun x => { i.params with temperature := x })
  | topP => decimal ((Decimal.readFloat value).map fun x => { i.params with topP := x })
  | seed =>
    whole ((Decimal.readNatural Decimal.wordBound value).map fun n =>
      { i.params with seed := UInt64.ofNat n })
  | repetitionPenalty =>
    decimal ((Decimal.readFloat32 value).map fun x => { i.params with repetitionPenalty := x })
  | repeatLastN =>
    whole ((Decimal.readNatural Decimal.wordBound value).map fun n =>
      { i.params with repeatLastN := n })

def Draft.assign (d : Draft) (f : Flag) (value : String) : Except UsageError Draft :=
  if d.given.contains f then .error (.repeated f)
  else (f.read value d.invocation).map fun i => ⟨d.given ++ [f], i⟩

/-- A line read up to some argument: the draft, and an option whose value was not read yet, or that
has none yet. -/
structure State where
  draft : Draft := {}
  pending : Option (Flag × Option String) := none

namespace State

def settle (s : State) : Except UsageError Draft :=
  match s.pending with
  | none => .ok s.draft
  | some (f, none) => .error (.missingValue f)
  | some (f, some value) => s.draft.assign f value

/-- The options that messages mention: those given, the pending one last if it has a value. One that
was repeated counts as not given. -/
def mentioned (s : State) : List String :=
  let flags :=
    match s.pending with
    | some (f, some _) =>
      if s.draft.given.contains f then s.draft.given.erase f else s.draft.given ++ [f]
    | _ => s.draft.given
  flags.map Flag.usage

def awaiting? (s : State) : Option Flag :=
  match s.pending with
  | some (f, none) => some f
  | _ => none

end State

/-- Whether the text is a numeral without a sign, as far as dashes are concerned: digits, a point
that does not come first, and an exponent mark that comes neither first nor last. -/
def isNumber (cs : List Char) : Bool :=
  go true false false cs
where
  go (first seenPoint seenMark : Bool) : List Char → Bool
    | [] => true
    | c :: cs =>
      if c.isDigit then go false seenPoint seenMark cs
      else if c == '.' && !seenPoint && !seenMark && !first then go false true seenMark cs
      else if (c == 'e' || c == 'E') && !seenMark && !first && !cs.isEmpty then
        go false seenPoint true cs
      else false

def Flag.takes (f : Flag) (argument : List Char) : Bool :=
  match argument with
  | '-' :: '-' :: _ => f.takesAnything
  | '-' :: c :: cs => f.takesAnything || (f.takesNegative && isNumber (c :: cs))
  | _ => true

def knownNames : List String := Flag.all.map Flag.name ++ [Switch.help.name, Switch.version.name]

def leastSimilarity : Float := 0.7

/-- The known name most like the given one; of equals the last. -/
def similarName? (name : String) : Option String :=
  (knownNames.foldl (fun (best : Option (Float × String)) known =>
      let likeness := Text.similarity name known
      if likeness ≤ leastSimilarity then best
      else
        match best with
        | none => some (likeness, known)
        | some (most, _) => if most ≤ likeness then some (likeness, known) else best) none).map
    Prod.snd

def usageOfName (name : String) : String :=
  match Flag.ofName? name with
  | some f => f.usage
  | none => "--" ++ name

def unknownName (s : State) (name : String) : UsageError :=
  let similar := similarName? name
  let suggested := (similar.map usageOfName).toList.filter fun u => !s.mentioned.contains u
  .unknownArgument ("--" ++ name) similar (s.mentioned ++ suggested)

def request : Switch → Request
  | .help => .help
  | .version => .version

def complete (d : Draft) : Except UsageError Request :=
  match Flag.all.filter fun f => f.isRequired && !d.given.contains f with
  | [] => .ok (.invoke d.invocation)
  | missing => .error (.missingRequired missing ((d.given ++ missing).map Flag.usage))

def splitValue (cs : List Char) : String × Option String :=
  match cs.dropWhile (· != '=') with
  | [] => (String.ofList cs, none)
  | _ :: value => (String.ofList (cs.takeWhile (· != '=')), some (String.ofList value))

def readArguments : State → List String → Except UsageError Request
  | s, [] => s.settle >>= complete
  | s, argument :: rest =>
    let cs := argument.toList
    match s.awaiting? with
    | some f =>
      if f.takes cs then readArguments { s with pending := some (f, some argument) } rest
      else readOption s cs rest
    | none => readOption s cs rest
where
  readOption (s : State) (cs : List Char) (rest : List String) : Except UsageError Request :=
    match cs with
    | ['-', '-'] =>
      match rest with
      | [] => s.settle >>= complete
      | extra :: _ => .error (.unknownArgument extra none [])
    | '-' :: '-' :: body =>
      let (name, value?) := splitValue body
      match Flag.ofName? name, Switch.ofName? name, value? with
      | some f, _, none => do
        let d ← s.settle
        readArguments { draft := d, pending := some (f, none) } rest
      | some f, _, some value => do
        let d ← s.settle
        let d ← d.assign f value
        readArguments { draft := d } rest
      | none, some w, none => do
        let _ ← s.settle
        pure (request w)
      | none, some w, some value =>
        .error (.unwantedValue w value (s.draft.given.map Flag.usage ++ [w.usage]))
      | none, none, _ => .error (unknownName s name)
    | '-' :: c :: _ =>
      match Switch.ofLetter? c with
      | some w => do
        let _ ← s.settle
        pure (request w)
      | none => .error (.unknownArgument (String.ofList ['-', c]) none [])
    | _ => .error (.unknownArgument (String.ofList cs) none [])

def parse (arguments : List String) : Except UsageError Request := readArguments {} arguments

end TextCompletion.CommandLine
