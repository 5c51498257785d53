import TextCompletion.Generation.TokenLoop
import TextCompletion.Model.Attention

/-!
Models that go on with a text. Tokens become rows, pass the layers, and the last one becomes the
logits of the token that follows. What the layers keep of earlier tokens is the model's state; a
state that was never stepped is the initial one, so a reset has nothing to do there.
-/

namespace TextCompletion

structure CausalModel where
  embedding : Embedding
  layers : List Layer := []
  norm : Norm
  head : Head
  /-- Logits come with a dimension for their position, which is one long. -/
  keepsPosition : Bool

namespace CausalModel

structure State where
  stepped : Bool := false
  caches : List KeyValueCache := []

def reset (s : State) : State := if s.stepped then {} else s

variable (m : CausalModel)

def logits (x : Row) : Tensor :=
  let values := m.head.logits (m.norm.apply x)
  { shape := if m.keepsPosition then [1, 1, values.length] else [1, values.length], values }

/-- Takes tokens that follow the ones before, the first of them at position `offset`. -/
def step (s : State) (tokens : List Nat) (offset : Nat) : Except Failure Tensor × State :=
  match m.embedding.rows tokens with
  | .error f => (.error (.of (.compute f)), { s with stepped := true })
  | .ok xs =>
    let (result, caches) := Layer.forwardAll offset m.layers s.caches xs
    let answer :=
      match result with
      | .error f => .error (.of (.compute f))
      | .ok ys =>
        match ys.getLast? with
        | none => .error (.of .noTokens)
        | some y => .ok (m.logits y)
    (answer, { stepped := true, caches })

def decoder : Decoder State where
  step s tokens offset :=
    let (answer, s) := m.step s tokens offset
    (answer.map Tensor.values, s)

end CausalModel
end TextCompletion
