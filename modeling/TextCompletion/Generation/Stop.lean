/-!
When a generation ends before its budget of new tokens is used up.
-/

namespace TextCompletion

structure StopCondition where
  /-- Tokens that end the generation and are not part of it. -/
  endTokens : List Nat := []
  /-- Positions that the model can attend over, those of the prompt included. -/
  contextLimit : Option Nat := none
  deriving DecidableEq, Repr

namespace StopCondition

def isFull (s : StopCondition) (length : Nat) : Bool :=
  match s.contextLimit with
  | some limit => limit ≤ length
  | none => false

end StopCondition
end TextCompletion
