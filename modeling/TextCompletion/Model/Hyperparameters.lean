/-!
What a family needs to know about one of its models, beside the tensors.
-/

namespace TextCompletion

structure RotaryScaling where
  factor : Float32 := 1
  lowFactor : Float32 := 1
  highFactor : Float32 := 1
  trainedPositions : Nat := 0
  isActive : Bool := false

/-- A frequency, slowed down where one turn takes longer than the positions a model was first
trained on. -/
def RotaryScaling.slow (r : RotaryScaling) (frequency : Float32) : Float32 :=
  let positions := Float32.ofNat r.trainedPositions
  let length := 2 * 3.1415927 / frequency
  if length < positions / r.highFactor then frequency
  else if positions / r.lowFactor < length then frequency / r.factor
  else
    let share := (positions / length - r.lowFactor) / (r.highFactor - r.lowFactor)
    (1 - share) * frequency / r.factor + share * frequency

structure Hyperparameters where
  vocabulary : Nat := 0
  /-- Tokens that can be generated, where they differ from those that can be read. -/
  outputVocabulary : Option Nat := none
  width : Nat := 0
  innerWidth : Nat := 0
  layers : Nat := 0
  /-- Layers of the decoder, where they differ from those of the encoder. -/
  decoderLayers : Option Nat := none
  heads : Nat := 0
  keyValueHeads : Option Nat := none
  positions : Nat := 0
  epsilon : Float := 0
  rotaryBase : Float32 := 10000
  rotaryScaling : Option RotaryScaling := none
  isTied : Bool := false
  softcap : Option Float := none
  scalesEmbedding : Bool := false

end TextCompletion
