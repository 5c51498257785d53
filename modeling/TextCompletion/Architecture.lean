/-!
The two shapes of model, and the task that each of them does.
-/

namespace TextCompletion

inductive Task where
  | textToText
  | textGeneration
  deriving DecidableEq, Repr

def Task.label : Task → String
  | .textToText => "text2text-generation"
  | .textGeneration => "text-generation"

inductive Architecture where
  | encoderDecoder
  | causalDecoder
  deriving DecidableEq, Repr

def Architecture.task : Architecture → Task
  | .encoderDecoder => .textToText
  | .causalDecoder => .textGeneration

end TextCompletion
