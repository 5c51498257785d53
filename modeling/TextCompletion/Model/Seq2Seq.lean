import TextCompletion.Generation.TokenLoop
import TextCompletion.Model.Arithmetic
import TextCompletion.Model.EncoderDecoder

/-!
Models that answer a text: an encoder takes the whole prompt, then a decoder takes the answer token
by token. Both give rows to tokens, which differ by their positions in some models, and the decoder
makes the last row the logits of the token that follows.
-/

namespace TextCompletion

/-- Rows that tell positions apart: sines of angles that grow with the position, then cosines. -/
structure PositionTable where
  size : Nat
  width : Nat

namespace PositionTable

def angle (t : PositionTable) (position index : Nat) : Float32 :=
  let exponent := Float32.ofNat (2 * index) / Float32.ofNat t.width
  Float32.ofNat position * (1 / (10000 : Float32).pow exponent)

def row (t : PositionTable) (position : Nat) : Except ComputeFault Row :=
  if position < t.size then
    let angles := (List.range ((t.width + 1) / 2)).map (t.angle position)
    .ok (angles.map Float32.sin ++ angles.map Float32.cos)
  else .error (.badIndex position t.size)

def rows (t : PositionTable) (offset count : Nat) : Except ComputeFault (List Row) :=
  (List.range count).mapM fun i => t.row (offset + i)

end PositionTable

structure Seq2SeqModel where
  embedding : Embedding
  positions : Option PositionTable := none
  encoderNorm : Option Norm := none
  decoderNorm : Option Norm := none
  factor : Option Float32 := none
  head : Head
  finalBias : Option Row := none
  /-- Logits come with a dimension for their position, which is one long. -/
  keepsPosition : Bool

namespace Seq2SeqModel

abbrev State : Type := EncoderDecoder.State (List Row) (List Nat)

variable (m : Seq2SeqModel)

def placedRows (tokens : List Nat) (offset : Nat) : Except ComputeFault (List Row) := do
  let xs ← m.embedding.rows tokens
  match m.positions with
  | none => pure xs
  | some table => pure (List.zipWith Row.add xs (← table.rows offset tokens.length))

def normalize (norm : Option Norm) (x : Row) : Row :=
  match norm with
  | none => x
  | some n => n.apply x

def encoderRows (tokens : List Nat) : Except ComputeFault (List Row) := do
  pure ((← m.placedRows tokens 0).map (normalize m.encoderNorm))

/-- Adds the final bias to the logits of the last of `count` rows. A row of one number is added to
all numbers of the other. -/
def addBias (count : Nat) (logits : Row) : Except ComputeFault Row :=
  match m.finalBias with
  | none => .ok logits
  | some bias =>
    match logits, bias with
    | _, [b] => .ok (logits.map (· + b))
    | [x], _ => .ok (bias.map (x + ·))
    | _, _ =>
      if logits.length = bias.length then .ok (Row.add logits bias)
      else .error (.cannotAdd [1, count, logits.length] [1, bias.length])

/-- The logits that follow some tokens. Layers would look at the encoded prompt; rows that pass none
do not change with it. -/
def decode (_encoded : List Row) (tokens : List Nat) (offset : Nat) : Except Failure Tensor :=
  match m.placedRows tokens offset with
  | .error f => .error (.of (.compute f))
  | .ok xs =>
    match xs.getLast? with
    | none => .error (.of .noTokens)
    | some x =>
      let y := normalize m.decoderNorm x
      let scaled := match m.factor with | none => y | some factor => Row.scale factor y
      match m.addBias tokens.length (m.head.logits scaled) with
      | .error f => .error (.of (.compute f))
      | .ok values =>
        .ok
          { shape := if m.keepsPosition then [1, 1, values.length] else [1, values.length]
            values }

/-- The two halves at work; tokens that the decoder fails on are not kept. -/
def coder : EncoderDecoder (List Row) (List Nat) where
  encoder tokens := (m.encoderRows tokens).mapError fun f => .of (.compute f)
  decoder encoded taken tokens offset :=
    match m.decode encoded tokens offset with
    | .error f => (.error f, taken)
    | .ok logits => (.ok logits, taken ++ tokens)

def encode (s : State) (tokens : List Nat) : Except Failure Unit × State := m.coder.encode s tokens

def step (s : State) (tokens : List Nat) (offset : Nat) : Except Failure Tensor × State :=
  m.coder.step s tokens offset

def decoder : Decoder State where
  step s tokens offset :=
    let (answer, s) := m.step s tokens offset
    (answer.map Tensor.values, s)

end Seq2SeqModel
end TextCompletion
