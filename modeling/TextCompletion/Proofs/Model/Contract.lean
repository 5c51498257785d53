import TextCompletion.Proofs.Model.Vocabulary
import TextCompletion.Proofs.Pipeline.History
import TextCompletion.Proofs.Pipeline.PositionTable

/-!
What the token loop relies on in a causal model: that a token fed after others is answered as if all
were fed at once, and that an answer is the logits of the last token, one for each token of the
vocabulary. Main statement: every causal model that is loaded has it, whatever it was fed before it
is reset, as far as its positions go.
-/

namespace TextCompletion

namespace CausalModel

variable {m : CausalModel} {s : State}

variable (m) in
/-- A state that the model comes to from the start, by any steps and resets. -/
inductive Reachable : State → Prop
  | start : Reachable {}
  | step {s : State} (tokens : List Nat) (offset : Nat) :
      Reachable s → Reachable (m.step s tokens offset).2
  | reset {s : State} : Reachable s → Reachable (reset s)

theorem Reachable.honest (reached : m.Reachable s) : s.Honest := by
  induction reached with
  | start => exact honest_empty
  | step tokens offset _ _ => exact honest_step m _ tokens offset
  | reset _ ih => exact honest_reset ih

theorem Reachable.reset_eq (reached : m.Reachable s) : CausalModel.reset s = {} :=
  reset_of_honest reached.honest

/-- An answer to some tokens: one row of logits, that of the last token. The rows of all of them are
those that the tokens up to each would have alone. -/
structure IsLastRow (m : CausalModel) (vocabulary : Nat) (s : State) (tokens : List Nat)
    (offset : Nat) (answer : Tensor) : Prop where
  size : answer.values.length = vocabulary
  shape : answer.shape = [1, vocabulary] ∨ answer.shape = [1, 1, vocabulary]
  last : ∃ all, m.positionLogits s tokens offset = .ok all ∧ all.length = tokens.length ∧
    all.getLast? = some answer ∧
      ∀ k, 0 < k → k ≤ tokens.length →
        m.positionLogits s (tokens.take k) offset = .ok (all.take k)

/-- The model can be fed in pieces. -/
structure KeepsContract (m : CausalModel) (vocabulary positions : Nat) : Prop where
  /-- Tokens and then one more are answered as all of them at once, on a model that was reset in any
  two states; where the tokens fail, so do all of them. -/
  inTurn : ∀ s s', m.Reachable s → m.Reachable s' →
    ∀ tokens token, tokens ≠ [] → tokens.length + 1 ≤ positions →
      ((m.step (reset s) tokens 0).1 >>= fun _ =>
          (m.step (m.step (reset s) tokens 0).2 [token] tokens.length).1) =
        (m.step (reset s') (tokens ++ [token]) 0).1
  /-- The same for any number of tokens after the first ones, each by itself. -/
  trail : ∀ s s', m.Reachable s → m.Reachable s' →
    ∀ prompt further, prompt ≠ [] → (prompt ++ further).length ≤ positions →
      (∀ token ∈ prompt ++ further, token < vocabulary) →
        ∀ i ≤ further.length,
          m.decoder.answer? (reset s) (TokenLoop.trail prompt 0 further) i =
            some (m.decoder.step (reset s') (prompt ++ further.take i) 0).1
  answers : ∀ s, m.Reachable s → ∀ tokens, tokens ≠ [] → tokens.length ≤ positions →
    (∀ token ∈ tokens, token < vocabulary) → ∃ answer, (m.step (reset s) tokens 0).1 = .ok answer
  oneRow : ∀ s tokens offset answer, (m.step s tokens offset).1 = .ok answer →
    m.IsLastRow vocabulary s tokens offset answer

variable {vocabulary positions : Nat}

namespace Sized

variable (sized : m.Sized vocabulary positions)

include sized

theorem fits {n : Nat} (within : n ≤ positions) : ∀ l ∈ m.layers, n ≤ l.attention.positions :=
  fun l member => (sized.layers l member).symm ▸ within

theorem isLastRow {tokens : List Nat} {offset : Nat} {answer : Tensor}
    (answered : (m.step s tokens offset).1 = .ok answer) :
    m.IsLastRow vocabulary s tokens offset answer := by
  obtain ⟨all, made, last⟩ := step_eq_ok.1 answered
  obtain ⟨xs, ys, -, -, rows⟩ := positionLogits_eq_ok.1 made
  obtain ⟨y, -, rfl⟩ : ∃ y ∈ ys, m.logits y = answer :=
    List.mem_map.1 (rows ▸ List.mem_of_getLast? last)
  exact ⟨sized.length_logits y, sized.shape_logits y, all, made, length_positionLogits made, last,
    fun k first inside => positionLogits_take made first inside⟩

theorem keepsContract : m.KeepsContract vocabulary positions where
  inTurn s s' reached reached' tokens token start within := by
    rw [reached.reset_eq, reached'.reset_eq]
    exact step_in_turn start (sized.fits within)
  trail s s' reached reached' prompt further start within known i inside := by
    rw [reached.reset_eq, reached'.reset_eq]
    exact answer?_trail start (sized.table.symm ▸ known) (sized.fits within) inside
  answers s reached tokens start within known := by
    obtain ⟨xs, embedded⟩ := Embedding.rows_of_lt (sized.table.symm ▸ known)
    obtain ⟨y, -, stepped⟩ := step_fresh embedded start (sized.fits within)
    rw [reached.reset_eq, stepped]
    exact ⟨_, rfl⟩
  oneRow _ _ _ _ answered := sized.isLastRow answered

end Sized
end CausalModel

/-- A causal model that is loaded keeps the contract for the vocabulary and the positions that its
configuration states, whatever its family. -/
theorem Model.keepsContract_of_load {t : FileTree} {directory : String} {c : ModelConfig}
    {m : CausalModel} {s : CausalModel.State} (configured : ModelConfig.load t directory = .ok c)
    (loaded : (Model.load c t directory).result = .ok (.causal m s)) :
    ∃ f h, Family.resolve c.architecture c.modelTypeName = .ok (.causal f) ∧
      (Settings.ofCausal f).load t directory = .ok h ∧
      h.positions = c.maxPositionEmbeddings.getD (Settings.ofCausal f).blank.positions ∧
      m.Reachable s ∧ m.KeepsContract h.vocabulary h.positions := by
  obtain ⟨family, files, store, resolved, -, stored, made⟩ := load_eq_ok.1 loaded
  cases family with
  | seq2Seq f =>
    obtain ⟨_, _, -, -, same⟩ := ofFamily_seq2Seq.1 made
    cases same
  | causal f =>
    obtain ⟨h, model, settings, assembled, same⟩ := ofFamily_causal.1 made
    obtain ⟨rfl, rfl⟩ := Model.causal.inj same
    have sized := CausalFamily.sized_of_assemble (Weights.isFilled_of_load stored) assembled
    have settings' : (Settings.ofFamily (.causal f)).load t directory = .ok h := settings
    have positions := (positions_of_load configured settings' nofun).1
    exact ⟨f, h, resolved, settings, positions, .start, sized.keepsContract⟩

/-! A model of two tokens with one layer and three positions. -/

namespace OneLayer

open Overrun (bytes isSome_decode_bytes)

def configuration : Bytes := bytes [
  "\x7b\"model_type\":\"llama\",\"hidden_size\":2,\"intermediate_size\":1,\"vocab_size\":2,",
  "\"num_hidden_layers\":1,\"num_attention_heads\":1,\"rms_norm_eps\":1,",
  "\"max_position_embeddings\":3,\"tie_word_embeddings\":true\x7d"]

def entry (name shape range : String) : String :=
  "\"" ++ name ++ "\":\x7b\"dtype\":\"F32\",\"shape\":[" ++ shape ++ "],\"data_offsets\":[" ++
    range ++ "]\x7d"

def layerEntry (part shape range : String) : String :=
  "," ++ entry ("model.layers.0." ++ part ++ ".weight") shape range

def document : Bytes := bytes [
  "\x7b", entry "model.embed_tokens.weight" "2,2" "0,16",
  layerEntry "self_attn.q_proj" "2,2" "16,32", layerEntry "self_attn.k_proj" "2,2" "32,48",
  layerEntry "self_attn.v_proj" "2,2" "48,64", layerEntry "self_attn.o_proj" "2,2" "64,80",
  layerEntry "mlp.gate_proj" "1,2" "80,88", layerEntry "mlp.up_proj" "1,2" "88,96",
  layerEntry "mlp.down_proj" "2,1" "96,104", layerEntry "input_layernorm" "2" "104,112",
  layerEntry "post_attention_layernorm" "2" "112,120",
  "," ++ entry "model.norm.weight" "2" "120,128", "\x7d"]

def sheet : Weights.Header where
  tensors := [
    ("model.embed_tokens.weight", ⟨.f32, [2, 2], 0, 16⟩),
    ("model.layers.0.self_attn.q_proj.weight", ⟨.f32, [2, 2], 16, 32⟩),
    ("model.layers.0.self_attn.k_proj.weight", ⟨.f32, [2, 2], 32, 48⟩),
    ("model.layers.0.self_attn.v_proj.weight", ⟨.f32, [2, 2], 48, 64⟩),
    ("model.layers.0.self_attn.o_proj.weight", ⟨.f32, [2, 2], 64, 80⟩),
    ("model.layers.0.mlp.gate_proj.weight", ⟨.f32, [1, 2], 80, 88⟩),
    ("model.layers.0.mlp.up_proj.weight", ⟨.f32, [1, 2], 88, 96⟩),
    ("model.layers.0.mlp.down_proj.weight", ⟨.f32, [2, 1], 96, 104⟩),
    ("model.layers.0.input_layernorm.weight", ⟨.f32, [2], 104, 112⟩),
    ("model.layers.0.post_attention_layernorm.weight", ⟨.f32, [2], 112, 120⟩),
    ("model.norm.weight", ⟨.f32, [2], 120, 128⟩)]
  content := List.replicate 128 0

def lead : Bytes :=
  [UInt8.ofNat document.length, UInt8.ofNat (document.length / 256), 0, 0, 0, 0, 0, 0]

def weights : Bytes := lead ++ (document ++ sheet.content)

def tree : FileTree where
  root := .directory [("config.json", .file configuration), ("model.safetensors", .file weights)]

theorem parse_weights : Weights.Header.parse weights = .ok sheet := by
  have counts : Weights.littleEndian lead = document.length := by decide +kernel
  have short : document.length ≤ Weights.Header.maxLength := by decide +kernel
  have described : (Json.parse document).toOption.bind Weights.Header.tensors? =
      some sheet.tensors := by decide +kernel
  exact Weights.Header.parse_of_layout rfl counts short (isSome_decode_bytes _) described
    (by decide +kernel) rfl

def store : Weights.Store := Weights.Store.join [sheet.store]

theorem load_weights :
    (Weights.load tree (.safetensors ["/model.safetensors"])).result = .ok store := by
  have inspected : ["/model.safetensors"].map (Weights.inspect tree) = [sheet].map .ok :=
    congrArg ([·]) (Weights.inspect_of_parse rfl parse_weights)
  exact Weights.load_safetensors (mapM_eq_ok.2 inspected)

def stated : ModelConfig := { modelType := some "llama", maxPositionEmbeddings := some 3 }

theorem load_configuration : ModelConfig.load tree "/" = .ok stated :=
  eq_ok_of_toOption (by decide +kernel)

theorem load_eq_ok {m : CausalModel}
    (made : Model.ofFamily (.causal .llama) tree "/" store = .ok (.causal m {})) :
    (Model.load stated tree "/").result = .ok (.causal m {}) :=
  Model.load_eq_ok.2 ⟨.causal .llama, .safetensors ["/model.safetensors"], store, by rfl,
    eq_ok_of_toOption (by decide +kernel), load_weights, made⟩

def isOneLayer : Model → Bool
  | .causal m ⟨false, []⟩ => m.layers.length == 1
  | _ => false

theorem ofFamily_eq_ok : ∃ m, Model.ofFamily (.causal .llama) tree "/" store = .ok (.causal m {}) ∧
    m.layers.length = 1 := by
  have evaluated : ((Model.ofFamily (.causal .llama) tree "/" store).toOption.any isOneLayer) =
      true := by decide +kernel
  obtain ⟨model, made, evaluated⟩ := (Option.any_eq_true _ _).1 evaluated
  unfold isOneLayer at evaluated
  split at evaluated
  · exact ⟨_, eq_ok_of_toOption made, eq_of_beq evaluated⟩
  · cases evaluated

theorem settings_eq_ok {h : Hyperparameters}
    (settings : (Settings.ofCausal .llama).load tree "/" = .ok h) :
    h.vocabulary = 2 ∧ h.positions = 3 := by
  have evaluated : ((Settings.ofCausal .llama).load tree "/").toOption.all
      (fun h => h.vocabulary == 2 && h.positions == 3) = true := by decide +kernel
  simpa [settings, Except.toOption] using evaluated

end OneLayer

/-- A model with a layer, fed one token or two and then another one. -/
theorem Model.keepsContract_of_load_oneLayer :
    ∃ m : CausalModel, m.layers.length = 1 ∧
      (Model.load OneLayer.stated OneLayer.tree "/").result = .ok (.causal m {}) ∧
      m.KeepsContract 2 3 := by
  obtain ⟨m, made, layered⟩ := OneLayer.ofFamily_eq_ok
  have loaded := OneLayer.load_eq_ok made
  obtain ⟨f, h, resolved, settings, -, -, keeps⟩ :=
    Model.keepsContract_of_load OneLayer.load_configuration loaded
  obtain rfl : .llama = f := by
    have resolved' : Family.resolve OneLayer.stated.architecture OneLayer.stated.modelTypeName =
        .ok (.causal .llama) := by rfl
    exact Family.causal.inj (eq_of_eq_ok resolved' resolved)
  obtain ⟨vocabulary, positions⟩ := OneLayer.settings_eq_ok settings
  exact ⟨m, layered, loaded, vocabulary ▸ positions ▸ keeps⟩

end TextCompletion
