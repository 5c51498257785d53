import TextCompletion.Generation.Distribution
import TextCompletion.Generation.Random
import TextCompletion.Params

/-!
How one token is chosen: logits of tokens that occurred lately are made less likely, and then the
most likely token is taken or one is drawn. The `n`th choice of a run uses the `n`th random word of
its seed.
-/

namespace TextCompletion

inductive Sampling where
  | greedy
  | whole (temperature : Float)
  | nucleus (temperature share : Float)

def leastTemperature : Float := 1e-7

namespace SamplingConfig

def sampling (c : SamplingConfig) : Sampling :=
  match c.samplerTemperature with
  | none => .greedy
  | some t =>
    if t < leastTemperature then .greedy
    else
      match c.samplerTopP with
      | none => .whole t
      | some share => if share ≤ 0 || 1 ≤ share then .whole t else .nucleus t share

end SamplingConfig

/-- The weights that a token is drawn from, `none` where it is not drawn. -/
def Sampling.weights? (logits : List Float32) : Sampling → Option (List Float32)
  | .greedy => none
  | .whole t => some (Distribution.softmax (Distribution.scaled t logits))
  | .nucleus t share =>
    some (Distribution.cut (Decimal.nearestSingle share)
      (Distribution.softmax (Distribution.scaled t logits)))

def Sampling.choose (s : Sampling) (word : UInt32) (logits : List Float32) :
    Except DrawFault Nat :=
  match s.weights? logits with
  | some weights => Distribution.draw weights (Random.unitFloat word)
  | none =>
    match Distribution.argmax? logits with
    | some token => .ok token
    | none => .error .noLogits

/-- A logit made less likely: closer to zero above zero, and further from it below. -/
def penalised (penalty logit : Float32) : Float32 :=
  if 0 ≤ logit then logit / penalty else logit * penalty

/-- Goes through tokens and penalises the logit of each one that was not seen before. A token
without a logit is passed over. -/
def penaliseEach (penalty : Float32) : (seen tokens : List Nat) → List Float32 → List Float32
  | _, [], logits => logits
  | seen, token :: rest, logits =>
    if seen.contains token then penaliseEach penalty seen rest logits
    else penaliseEach penalty (token :: seen) rest (logits.modify token (penalised penalty))

theorem length_penaliseEach (penalty : Float32) (seen tokens : List Nat) (logits : List Float32) :
    (penaliseEach penalty seen tokens logits).length = logits.length := by
  induction tokens generalizing seen logits with
  | nil => rfl
  | cons token rest ih =>
    rw [penaliseEach]
    split
    · exact ih seen logits
    · rw [ih, List.length_modify]

namespace SamplingConfig

def window (c : SamplingConfig) (context : List Nat) : List Nat :=
  context.drop (context.length - c.repeatLastN)

def adjust (c : SamplingConfig) (context : List Nat) (logits : List Float32) : List Float32 :=
  if c.repetitionPenalty == 1 then logits
  else penaliseEach c.repetitionPenalty [] (c.window context) logits

theorem length_adjust (c : SamplingConfig) (context : List Nat) (logits : List Float32) :
    (c.adjust context logits).length = logits.length := by
  rw [adjust]
  split
  · rfl
  · exact length_penaliseEach _ _ _ _

def chooseToken (c : SamplingConfig) (n : Nat) (context : List Nat) (logits : List Float32) :
    Except DrawFault Nat :=
  c.sampling.choose (Random.word c.seed n) (c.adjust context logits)

end SamplingConfig
end TextCompletion
