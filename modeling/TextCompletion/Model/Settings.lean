import TextCompletion.Family
import TextCompletion.Json.Shape
import TextCompletion.Model.Hyperparameters
import TextCompletion.ModelConfig

/-!
How the families state their models' hyperparameters in `config.json`: each by its own names and
with its own rules on what may be left out. Members that only some layers would use are checked and
otherwise passed over.
-/

namespace TextCompletion

namespace Settings

open Json Json.Shape

abbrev Field := Member Hyperparameters

def token : Shape Nat := natural tokenBound "u32"

def activations : List Variant :=
  let weighted (name : String) : Variant := ⟨name, some fun v => (fun _ => ()) <$> real v⟩
  [⟨"gelu", none⟩, ⟨"gelu_new", none⟩, ⟨"newgelu", none⟩, ⟨"relu", none⟩, ⟨"relu2", none⟩,
    ⟨"relu6", none⟩, ⟨"silu", none⟩, ⟨"sigmoid", none⟩, ⟨"hardsigmoid", none⟩, ⟨"swiglu", none⟩,
    ⟨"swish", none⟩, ⟨"mish", none⟩, ⟨"hardswish", none⟩, weighted "elu", weighted "leakyrelu",
    ⟨"gelu_pytorch_tanh", none⟩, ⟨"gelupytorchtanh", none⟩]

def activation : Shape String := oneOf activations

def gatedActivation : Shape String := fun v => do
  let name ← text v
  if name = "gated-gelu" ∨ name = "gated-silu" then .ok name else activation (.string name)

def endTokens : Shape TokenIds := fun v =>
  match TokenIds.ofJson? v with
  | some ids => .ok ids
  | none => .error (.noVariant "LlamaEosToks")

def rotaryScalingShape : Shape RotaryScaling :=
  record "Llama3RopeConfig"
    [.required "factor" single fun r x => { r with factor := x },
      .required "low_freq_factor" single fun r x => { r with lowFactor := x },
      .required "high_freq_factor" single fun r x => { r with highFactor := x },
      .required "original_max_position_embeddings" count fun r n =>
        { r with trainedPositions := n },
      .required "rope_type" (oneOf [⟨"llama3", none⟩, ⟨"default", none⟩]) fun r name =>
        { r with isActive := name == "llama3" }]
    {}

def rotaryFactors : Shape Unit :=
  record "RopeScaling"
    [.required "short_factor" (list single) fun _ _ => (),
      .required "long_factor" (list single) fun _ _ => (),
      .required "type" (oneOf [⟨"longrope", none⟩]) fun _ _ => ()]
    ()

/-! Members that are only checked. -/

def checked {α : Type} (name : String) (shape : Shape α) : Field :=
  .required name shape fun h _ => h

def checkedOptional {α : Type} (name : String) (shape : Shape α) : Field :=
  .optional name shape fun h _ => h

def checkedDefaulted {α : Type} (name : String) (shape : Shape α) : Field :=
  .defaulted name shape fun h _ => h

/-! Members that most families have. -/

def vocabularyField : Field := .required "vocab_size" count fun h n => { h with vocabulary := n }
def widthField : Field := .required "hidden_size" count fun h n => { h with width := n }
def innerWidthField : Field :=
  .required "intermediate_size" count fun h n => { h with innerWidth := n }
def layersField : Field := .required "num_hidden_layers" count fun h n => { h with layers := n }
def headsField : Field := .required "num_attention_heads" count fun h n => { h with heads := n }
def keyValueHeadsField : Field :=
  .required "num_key_value_heads" count fun h n => { h with keyValueHeads := some n }
def optionalKeyValueHeadsField : Field :=
  .optional "num_key_value_heads" count fun h n => { h with keyValueHeads := n }
def positionsField : Field :=
  .required "max_position_embeddings" count fun h n => { h with positions := n }
def defaultedPositionsField : Field :=
  .defaulted "max_position_embeddings" count fun h n => { h with positions := n }
def epsilonField (name : String) : Field := .required name real fun h x => { h with epsilon := x }
def tiedField : Field := .required "tie_word_embeddings" flag fun h b => { h with isTied := b }
def defaultedTiedField : Field :=
  .defaulted "tie_word_embeddings" flag fun h b => { h with isTied := b }

def llamaFields : List Field :=
  [widthField, innerWidthField, vocabularyField, layersField, headsField,
    optionalKeyValueHeadsField, epsilonField "rms_norm_eps",
    .defaulted "rope_theta" single fun h x => { h with rotaryBase := x },
    checkedOptional "bos_token_id" token, checkedOptional "eos_token_id" endTokens,
    .optional "rope_scaling" rotaryScalingShape fun h r => { h with rotaryScaling := r },
    positionsField,
    .optional "tie_word_embeddings" flag fun h b => { h with isTied := b.getD false }]

def mistralFields : List Field :=
  [vocabularyField, widthField, innerWidthField, layersField,
    .defaulted "num_attention_heads" count fun h n => { h with heads := n },
    checkedOptional "head_dim" count, keyValueHeadsField, checkedDefaulted "hidden_act" activation,
    positionsField, epsilonField "rms_norm_eps", checked "rope_theta" real,
    checkedOptional "sliding_window" count, checkedDefaulted "use_flash_attn" flag]

def mixtralFields : List Field :=
  [vocabularyField, widthField, innerWidthField, layersField, headsField, keyValueHeadsField,
    checked "hidden_act" activation, positionsField, epsilonField "rms_norm_eps",
    checked "rope_theta" real, checked "sliding_window" count, checked "num_experts_per_tok" count,
    checked "num_local_experts" count, checked "use_flash_attn" flag]

def phiFields : List Field :=
  [vocabularyField, widthField, innerWidthField, layersField, headsField,
    optionalKeyValueHeadsField, checked "hidden_act" activation, positionsField,
    epsilonField "layer_norm_eps", tiedField, checked "rope_theta" single,
    checked "partial_rotary_factor" real, checked "qk_layernorm" flag]

def phi3Fields : List Field :=
  [vocabularyField, checked "hidden_act" activation, widthField, innerWidthField, layersField,
    headsField, keyValueHeadsField, epsilonField "rms_norm_eps", checked "rope_theta" real,
    checkedOptional "bos_token_id" token, checkedOptional "eos_token_id" token,
    checkedOptional "rope_scaling" rotaryFactors, positionsField,
    checkedOptional "original_max_position_embeddings" count,
    checkedOptional "partial_rotary_factor" real, defaultedTiedField]

def gemmaFields : List Field :=
  [checked "attention_bias" flag, checked "head_dim" count,
    checkedOptional "hidden_act" activation, checkedOptional "hidden_activation" activation,
    widthField, innerWidthField, headsField, layersField, keyValueHeadsField,
    epsilonField "rms_norm_eps", checked "rope_theta" real, vocabularyField,
    defaultedPositionsField]

def gemma2Fields : List Field :=
  [checked "attention_bias" flag, checked "head_dim" count, checked "hidden_activation" activation,
    widthField, innerWidthField, headsField, layersField, keyValueHeadsField,
    epsilonField "rms_norm_eps", checked "rope_theta" real, vocabularyField,
    .optional "final_logit_softcapping" real fun h x => { h with softcap := x },
    checkedOptional "attn_logit_softcapping" real, checked "query_pre_attn_scalar" count,
    checkedOptional "sliding_window" count, defaultedPositionsField]

def qwen2Fields : List Field :=
  [vocabularyField, widthField, innerWidthField, layersField, headsField, keyValueHeadsField,
    positionsField, checked "sliding_window" count, checked "max_window_layers" count, tiedField,
    checked "rope_theta" real, epsilonField "rms_norm_eps", checked "use_sliding_window" flag,
    checked "hidden_act" activation]

def qwen3Fields : List Field :=
  [vocabularyField, widthField, innerWidthField, layersField, headsField, checked "head_dim" count,
    checked "attention_bias" flag, keyValueHeadsField, positionsField,
    checkedOptional "sliding_window" count, checked "max_window_layers" count, tiedField,
    checked "rope_theta" real, epsilonField "rms_norm_eps", checked "use_sliding_window" flag,
    checked "hidden_act" activation]

def stableLmFields : List Field :=
  [vocabularyField, innerWidthField, widthField, layersField, headsField, keyValueHeadsField,
    checked "hidden_act" activation, checked "partial_rotary_factor" real,
    checked "rope_theta" real, positionsField, epsilonField "layer_norm_eps",
    checked "use_cache" flag, checkedDefaulted "use_qkv_bias" flag,
    checkedDefaulted "use_flash_attn" flag]

def starcoder2Fields : List Field :=
  [vocabularyField, widthField, innerWidthField, layersField, headsField, keyValueHeadsField,
    checked "hidden_act" activation, positionsField, epsilonField "norm_epsilon",
    checked "rope_theta" real, checked "use_bias" flag, checkedOptional "sliding_window" count]

def t5Fields : List Field :=
  [vocabularyField, .required "d_model" count fun h n => { h with width := n },
    checked "d_kv" count, .required "d_ff" count fun h n => { h with innerWidth := n },
    .required "num_layers" count fun h n => { h with layers := n },
    .optional "num_decoder_layers" count fun h n => { h with decoderLayers := n },
    .required "num_heads" count fun h n => { h with heads := n },
    checked "relative_attention_num_buckets" count,
    checkedDefaulted "relative_attention_max_distance" count, checked "dropout_rate" real,
    epsilonField "layer_norm_epsilon", checked "initializer_factor" real,
    checkedDefaulted "feed_forward_proj" gatedActivation, defaultedTiedField,
    checkedDefaulted "is_decoder" flag, checked "is_encoder_decoder" flag,
    checkedDefaulted "use_cache" flag, checked "pad_token_id" count, checked "eos_token_id" count,
    checkedOptional "decoder_start_token_id" count]

def marianFields : List Field :=
  [vocabularyField,
    .optional "decoder_vocab_size" count fun h n => { h with outputVocabulary := n },
    positionsField, .required "encoder_layers" count fun h n => { h with layers := n },
    .required "encoder_ffn_dim" count fun h n => { h with innerWidth := n },
    .required "encoder_attention_heads" count fun h n => { h with heads := n },
    .required "decoder_layers" count fun h n => { h with decoderLayers := some n },
    checked "decoder_ffn_dim" count, checked "decoder_attention_heads" count,
    checked "use_cache" flag, checked "is_encoder_decoder" flag,
    checked "activation_function" activation,
    .required "d_model" count fun h n => { h with width := n },
    checked "decoder_start_token_id" token,
    .required "scale_embedding" flag fun h b => { h with scalesEmbedding := b },
    checked "pad_token_id" token, checked "eos_token_id" token,
    checked "forced_eos_token_id" token, checked "share_encoder_decoder_embeddings" flag]

def defaultPositions : Nat := 4096

/-- How a family states its settings: the names that messages use, the members in the order of the
array form, what holds where nothing is stated, and members taken to be there. -/
structure Form where
  scope : String
  type : String := "Config"
  fields : List Field
  blank : Hyperparameters := {}
  defaults : List (String × Json) := []

def ofCausal : CausalFamily → Form
  | .llama => { scope := "llama", type := "LlamaConfig", fields := llamaFields }
  | .mistral => { scope := "mistral", fields := mistralFields, blank := { heads := 32 } }
  | .mixtral =>
    { scope := "mixtral", fields := mixtralFields
      defaults := [("use_flash_attn", .boolean false)] }
  | .phi => { scope := "phi", fields := phiFields }
  | .phi3 => { scope := "phi3", fields := phi3Fields }
  | .gemma =>
    { scope := "gemma", fields := gemmaFields, blank := { positions := defaultPositions } }
  | .gemma2 =>
    { scope := "gemma2", fields := gemma2Fields, blank := { positions := defaultPositions } }
  | .qwen2 => { scope := "qwen2", fields := qwen2Fields }
  | .qwen3 => { scope := "qwen3", fields := qwen3Fields }
  | .stableLm => { scope := "stable_lm", fields := stableLmFields }
  | .starcoder2 => { scope := "starcoder2", fields := starcoder2Fields }

def ofSeq2Seq : Seq2SeqFamily → Form
  | .t5 => { scope := "t5", fields := t5Fields, blank := { isTied := true } }
  | .marian => { scope := "marian", fields := marianFields }

def Form.read (r : Form) (document : Json) : Except FaultKind Hyperparameters :=
  record r.type r.fields r.blank (withDefaults r.defaults document)

def Form.typeName (r : Form) : String :=
  "candle_transformers::models::" ++ r.scope ++ "::" ++ r.type

def load {σ : Type} (typeName : String) (read : Json → Except FaultKind σ) (t : FileTree)
    (directory : String) : Except Failure σ := do
  let path := FilePath.join directory ModelConfig.fileName
  let document ← (Json.Reader.value Json.maxDepth).ofFile path (← t.contentOf path)
  match read document with
  | .ok settings => .ok settings
  | .error kind => .error ⟨[.parseFileAs path typeName], .document ⟨kind, none⟩⟩

def Form.load (r : Form) (t : FileTree) (directory : String) : Except Failure Hyperparameters :=
  Settings.load r.typeName r.read t directory

end Settings
end TextCompletion
