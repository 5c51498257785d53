import TextCompletion.Model.Causal
import TextCompletion.Model.Hyperparameters
import TextCompletion.Model.Seq2Seq
import TextCompletion.Weights.Store

/-!
How the families put a model together from its hyperparameters and its tensors. Tensors are looked
up in an order of the family's own, and the first one that is missing or has another shape is
reported. The layers themselves are put together for one family only. A model of another family must
have none: one whose first layer is there is refused, where the family's own code would go on.
-/

namespace TextCompletion

namespace Weights.Store

def tensor (s : Store) (name : String) (shape : List Nat) : Except Failure Tensor :=
  match s.get name shape with
  | .ok t => .ok t
  | .error f => .error (.of (.tensor f))

def matrix (s : Store) (name : String) (height width : Nat) : Except Failure (List Row) :=
  Tensor.rows <$> s.tensor name [height, width]

def vector (s : Store) (name : String) (width : Nat) : Except Failure Row :=
  Tensor.values <$> s.tensor name [width]

end Weights.Store

open Weights (Store)

namespace Assembly

variable (h : Hyperparameters) (s : Store)

def embedding : Except Failure (List Row) :=
  s.matrix "model.embed_tokens.weight" h.vocabulary h.width

def ownHead : Except Failure (List Row) := s.matrix "lm_head.weight" h.vocabulary h.width

def rootMeanSquare (name : String) : Except Failure Norm := do
  pure (.rootMeanSquare h.epsilon.toFloat32 (← s.vector name h.width))

/-- A norm whose stored weights are deviations from one. -/
def deviation (name : String) : Except Failure Norm := do
  pure (.rootMeanSquare h.epsilon.toFloat32 ((← s.vector name h.width).map (· + 1)))

def standard (weight bias : String) : Except Failure Norm := do
  pure (.standard h.epsilon.toFloat32 (← s.vector weight h.width) (← s.vector bias h.width))

/-- A model without layers passes; the first tensor of a first layer is looked for otherwise. -/
def noLayers (family firstTensor : String) (layers : Nat) : Except Failure Unit :=
  if layers = 0 then .ok ()
  else if s.contains firstTensor then .error (.of (.layersUnavailable family))
  else .error (.of (.tensor (.notFound firstTensor)))

def frequencies (headWidth : Nat) : Row :=
  let plain := (List.range ((headWidth + 1) / 2)).map fun i =>
    1 / h.rotaryBase.pow (Float32.ofNat (2 * i) / Float32.ofNat headWidth)
  match h.rotaryScaling with
  | some r => if r.isActive then plain.map r.slow else plain
  | none => plain

def layer (index : Nat) : Except Failure Layer := do
  let name (part : String) : String := "model.layers." ++ toString index ++ "." ++ part ++ ".weight"
  let headWidth := h.width / h.heads
  let keyValueHeads := h.keyValueHeads.getD h.heads
  let queryWidth := headWidth * h.heads
  let keyWidth := headWidth * keyValueHeads
  let attention : Attention :=
    { heads := h.heads, keyValueHeads, headWidth, positions := h.positions
      frequencies := frequencies h headWidth
      query := ← s.matrix (name "self_attn.q_proj") queryWidth h.width
      key := ← s.matrix (name "self_attn.k_proj") keyWidth h.width
      value := ← s.matrix (name "self_attn.v_proj") keyWidth h.width
      output := ← s.matrix (name "self_attn.o_proj") h.width queryWidth }
  let gate ← s.matrix (name "mlp.gate_proj") h.innerWidth h.width
  let up ← s.matrix (name "mlp.up_proj") h.innerWidth h.width
  let down ← s.matrix (name "mlp.down_proj") h.width h.innerWidth
  let attentionNorm ← rootMeanSquare h s (name "input_layernorm")
  let innerNorm ← rootMeanSquare h s (name "post_attention_layernorm")
  pure { attention, attentionNorm, innerNorm, gate, up, down }

def llama : Except Failure CausalModel := do
  let table ← embedding h s
  let matrix ← if h.isTied then pure table else ownHead h s
  let norm ← rootMeanSquare h s "model.norm.weight"
  let layers ← (List.range h.layers).mapM (layer h s)
  pure { embedding := { table }, layers, norm, head := { matrix }, keepsPosition := false }

/-- Embedding, layers, norm and head, in this order; `head` gets the embedding. -/
def plain (family firstTensor : String) (norm : Except Failure Norm)
    (head : List Row → Except Failure (List Row)) : Except Failure CausalModel := do
  let table ← embedding h s
  noLayers s family firstTensor h.layers
  let norm ← norm
  let matrix ← head table
  pure { embedding := { table }, norm, head := { matrix }, keepsPosition := true }

def phi (family firstTensor : String) : Except Failure CausalModel := do
  let table ← embedding h s
  let norm ← standard h s "model.final_layernorm.weight" "model.final_layernorm.bias"
  noLayers s family firstTensor h.layers
  let matrix ← ownHead h s
  let bias ← s.vector "lm_head.bias" h.vocabulary
  pure { embedding := { table }, norm, head := { matrix, bias }, keepsPosition := false }

def gemma (family firstTensor : String) : Except Failure CausalModel := do
  let model ← plain h s family firstTensor (deviation h s "model.norm.weight") .ok
  let factor := (Float.ofNat h.width).sqrt.toFloat32
  pure
    { model with
      embedding := { model.embedding with factor := some factor }
      head := { model.head with cap := h.softcap } }

def t5 : Except Failure Seq2SeqModel := do
  let shared :=
    if s.contains "shared.weight" then "shared.weight" else "decoder.embed_tokens.weight"
  let table ← s.matrix shared h.vocabulary h.width
  noLayers s "t5" "encoder.block.0.layer.0.SelfAttention.q.weight" h.layers
  let encoderNorm ← rootMeanSquare h s "encoder.final_layer_norm.weight"
  noLayers s "t5" "decoder.block.0.layer.0.SelfAttention.q.weight" (h.decoderLayers.getD h.layers)
  let decoderNorm ← rootMeanSquare h s "decoder.final_layer_norm.weight"
  let matrix ← if h.isTied then pure table else ownHead h s
  let factor := if h.isTied then some (Float.ofNat h.width).sqrt.toFloat32 else none
  pure
    { embedding := { table }, encoderNorm := some encoderNorm, decoderNorm := some decoderNorm
      factor, head := { matrix }, keepsPosition := false }

def marian : Except Failure Seq2SeqModel := do
  let finalBias ←
    s.tensor "final_logits_bias" [1, h.outputVocabulary.getD h.vocabulary]
  let table ← s.matrix "model.shared.weight" h.vocabulary h.width
  noLayers s "marian" "model.encoder.layers.0.self_attn.q_proj.weight" h.layers
  noLayers s "marian" "model.decoder.layers.0.self_attn.q_proj.weight" (h.decoderLayers.getD 0)
  let factor := if h.scalesEmbedding then some (Float.ofNat h.width).sqrt.toFloat32 else none
  pure
    { embedding := { table, factor }, positions := some ⟨h.positions, h.width⟩
      head := { matrix := table }, finalBias := some finalBias.values, keepsPosition := true }

end Assembly

namespace CausalFamily

def firstLayerTensor : CausalFamily → String
  | phi3 => "model.layers.0.self_attn.qkv_proj.weight"
  | _ => "model.layers.0.self_attn.q_proj.weight"

open Assembly in
def assemble (f : CausalFamily) (h : Hyperparameters) (s : Store) : Except Failure CausalModel :=
  let plain := plain h s f.name f.firstLayerTensor
  let tied (table : List Row) : Except Failure (List Row) := .ok table
  let own (_ : List Row) : Except Failure (List Row) := ownHead h s
  let rms := rootMeanSquare h s "model.norm.weight"
  let centred := standard h s "model.norm.weight" "model.norm.bias"
  during (.build f.name) <|
    match f with
    | llama => Assembly.llama h s
    | mistral | mixtral => plain rms own
    | phi3 | qwen3 => plain rms (if h.isTied then tied else own)
    | qwen2 => plain rms (if s.contains "lm_head.weight" then own else tied)
    | phi => Assembly.phi h s f.name f.firstLayerTensor
    | stableLm => plain centred own
    | starcoder2 => plain centred tied
    | gemma | gemma2 => Assembly.gemma h s f.name f.firstLayerTensor

end CausalFamily

namespace Seq2SeqFamily

def assemble (f : Seq2SeqFamily) (h : Hyperparameters) (s : Store) :
    Except Failure Seq2SeqModel :=
  during (.build f.name) <|
    match f with
    | t5 => Assembly.t5 h s
    | marian => Assembly.marian h s

end Seq2SeqFamily
end TextCompletion
