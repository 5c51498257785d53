/-!
Sampling parameters as a caller gives them, and the normalised configuration that the token loop
runs with. Normalising clamps every value into its range and decides once whether tokens are drawn
or taken greedily.
-/

namespace TextCompletion

/-- Values as the caller passed them; nothing is clamped. -/
structure Params where
  maxNewTokens : Int64 := 128
  temperature : Float := 0.7
  topP : Float := 0.9
  seed : UInt64 := 299792458
  repetitionPenalty : Float32 := 1.0
  repeatLastN : Nat := 64

/-- Values that the token loop uses. `doSample = false` means greedy decoding. -/
structure SamplingConfig where
  maxNewTokens : Nat
  temperature : Float
  topP : Float
  doSample : Bool
  returnFullText : Bool := false
  seed : UInt64
  repetitionPenalty : Float32
  repeatLastN : Nat

def atLeastZero (x : Float) : Float :=
  if 0 < x then x else 0

/-- The value moved into the unit interval; one that is no number becomes 1. -/
def intoUnit (x : Float) : Float :=
  if x.isNaN then 1 else if x < 0 then 0 else if 1 < x then 1 else x

namespace Params

/-- Whether to draw is decided on the temperature as given. -/
def effective (p : Params) : SamplingConfig where
  maxNewTokens := if 1 ≤ p.maxNewTokens then p.maxNewTokens.toInt.toNat else 1
  temperature := atLeastZero p.temperature
  topP := intoUnit p.topP
  doSample := 0 < p.temperature
  seed := p.seed
  repetitionPenalty := p.repetitionPenalty
  repeatLastN := p.repeatLastN

end Params

namespace SamplingConfig

/-- The temperature to draw at; `none` takes the most likely token. A nucleus of no mass still
keeps the most likely token, so it is greedy too. -/
def samplerTemperature (c : SamplingConfig) : Option Float :=
  if c.doSample && 0 < c.topP then some c.temperature else none

def samplerTopP (c : SamplingConfig) : Option Float :=
  if c.doSample && c.topP < 1 then some c.topP else none

end SamplingConfig
end TextCompletion
