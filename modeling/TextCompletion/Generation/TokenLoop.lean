import TextCompletion.Generation.Sampling
import TextCompletion.Log

/-!
The token loop. A decoder holds what it was fed so far; the loop feeds it the prompt and then one
token at a time, each fed token once and with its position, and ends when the budget is used up, no
position is left, an end token is chosen, or something fails. A run records the calls it made and
the tokens it accepted, whether it fails or not.
-/

namespace TextCompletion

/-- A model that takes tokens at a position and gives the logits of the last one. -/
structure Decoder (σ : Type) where
  step : σ → List Nat → Nat → Except Failure (List Float32) × σ

structure DecoderCall where
  tokens : List Nat
  offset : Nat
  deriving DecidableEq, Repr

inductive Ending where
  | budgetUsed
  | windowFull
  | endToken (token : Nat)
  deriving DecidableEq, Repr

structure TokenRun (σ : Type) where
  calls : List DecoderCall := []
  accepted : List Nat := []
  ending : Except Failure Ending
  decoder : σ

namespace TokenRun

variable {σ : Type}

def after (call : DecoderCall) (token : Nat) (r : TokenRun σ) : TokenRun σ :=
  { r with calls := call :: r.calls, accepted := token :: r.accepted }

def tokens (r : TokenRun σ) : Except Failure (List Nat) :=
  match r.ending with
  | .ok _ => .ok r.accepted
  | .error f => .error f

def events (stop : StopCondition) (r : TokenRun σ) : List LogEvent :=
  match r.ending with
  | .ok .windowFull => [.windowFull stop.contextLimit r.accepted.length]
  | .ok (.endToken token) => [.endTokenDrawn token]
  | _ => []

end TokenRun

namespace TokenLoop

variable {σ : Type}

/-- Goes on with a budget of tokens. `context` holds the prompt and what was accepted so far,
`count` tokens; `pending` is what the decoder was not fed yet, and begins at `offset`. -/
def resume (d : Decoder σ) (config : SamplingConfig) (stop : StopCondition) :
    (budget count : Nat) → (context pending : List Nat) → (offset : Nat) → σ → TokenRun σ
  | 0, _, _, _, _, s => { ending := .ok .budgetUsed, decoder := s }
  | budget + 1, count, context, pending, offset, s =>
    if stop.isFull context.length then { ending := .ok .windowFull, decoder := s }
    else
      let call : DecoderCall := ⟨pending, offset⟩
      match d.step s pending offset with
      | (.error f, s) =>
        { calls := [call], ending := .error (f.within (.forward offset)), decoder := s }
      | (.ok logits, s) =>
        match config.chooseToken count context logits with
        | .error f =>
          { calls := [call], ending := .error ⟨[.sampleToken], .draw f⟩, decoder := s }
        | .ok token =>
          if stop.endTokens.contains token then
            { calls := [call], ending := .ok (.endToken token), decoder := s }
          else
            (resume d config stop budget (count + 1) (context ++ [token]) [token]
              (offset + pending.length) s).after call token

/-- A run from a prompt; an empty prompt fails before the first call. -/
def run (d : Decoder σ) (config : SamplingConfig) (stop : StopCondition) (prompt : List Nat)
    (s : σ) : TokenRun σ :=
  match prompt with
  | [] => { ending := .error (.of .noTokens), decoder := s }
  | _ => resume d config stop config.maxNewTokens 0 prompt prompt 0 s

end TokenLoop
end TextCompletion
