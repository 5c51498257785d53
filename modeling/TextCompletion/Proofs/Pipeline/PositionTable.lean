import TextCompletion.Proofs.Generation.Window
import TextCompletion.Proofs.Model.Positions
import TextCompletion.Proofs.Model.Sinusoids
import TextCompletion.Proofs.Weights.Shards

/-!
Generations against the position table of the model. Only a causal model whose configuration states
a number of positions is stopped at the end of its table; a model of the other architecture, or one
that relies on the number of its family, is not. Main statement: which generations stay inside the
table.
-/

namespace TextCompletion

namespace TokenRun

variable {σ : Type}

def forget (r : TokenRun σ) : TokenRun Unit :=
  { calls := r.calls, accepted := r.accepted, ending := r.ending, decoder := () }

@[simp] theorem reaches_forget {r : TokenRun σ} {budget k : Nat} :
    r.forget.Reaches budget k ↔ r.Reaches budget k := Iff.rfl

@[simp] theorem feedsBelow_forget {r : TokenRun σ} {n : Nat} :
    r.forget.FeedsBelow n ↔ r.FeedsBelow n := Iff.rfl

theorem keepsToTable_forget {r : TokenRun σ} {n length budget : Nat} :
    r.forget.KeepsToTable n length budget ↔ r.KeepsToTable n length budget :=
  ⟨fun h => ⟨h.feeds, h.ends⟩, fun h => ⟨h.feeds, h.ends⟩⟩

end TokenRun

namespace Pipeline

variable (p : Pipeline) (ids : List Nat) (config : SamplingConfig)

def seed : List Nat :=
  match p.model with
  | .causal _ _ => ids
  | .seq2Seq _ _ => [p.decoderStart]

/-- The run of the token loop for the ids of a prompt, unless they cannot be encoded. -/
def tokenRun? : Option (TokenRun Unit) :=
  match p.model with
  | .causal m s => some (TokenLoop.run m.decoder config p.stop ids (CausalModel.reset s)).forget
  | .seq2Seq m s =>
    match m.encode s ids with
    | (.error _, _) => none
    | (.ok _, s) => some (TokenLoop.run m.decoder config p.stop [p.decoderStart] s).forget

variable {p ids config} {r : TokenRun Unit}

theorem tokenRun?_of_seq2Seq {m : Seq2SeqModel} {s : Seq2SeqModel.State}
    (model : p.model = .seq2Seq m s) (made : p.tokenRun? ids config = some r) :
    ∃ s', r = (TokenLoop.run m.decoder config p.stop [p.decoderStart] s').forget := by
  rcases encoded : m.encode s ids with ⟨f | _, s'⟩
  · simp [tokenRun?, model, encoded] at made
  · simp only [tokenRun?, model, encoded, Option.some.injEq] at made
    exact ⟨s', made.symm⟩

theorem tokenRun?_eq_some (made : p.tokenRun? ids config = some r) :
    ∃ (σ : Type) (d : Decoder σ) (s : σ),
      r = (TokenLoop.run d config p.stop (p.seed ids) s).forget := by
  unfold seed
  cases model : p.model with
  | causal m s =>
    simp only [tokenRun?, model, Option.some.injEq] at made
    exact ⟨_, m.decoder, CausalModel.reset s, made.symm⟩
  | seq2Seq m s =>
    obtain ⟨s', run⟩ := tokenRun?_of_seq2Seq model made
    exact ⟨_, m.decoder, s', run⟩

theorem continueFrom_of_tokenRun? (made : p.tokenRun? ids config = some r) :
    (p.continueFrom ids config).calls = r.calls ∧
      (p.continueFrom ids config).tokens = ⟨r.events p.stop, r.tokens⟩ := by
  unfold tokenRun? at made
  unfold continueFrom
  cases model : p.model with
  | causal m s =>
    simp only [model, Option.some.injEq] at made
    subst made
    exact ⟨rfl, rfl⟩
  | seq2Seq m s =>
    rcases encoded : m.encode s ids with ⟨f | _, s'⟩
    · simp [model, encoded] at made
    · simp only [model, encoded, Option.some.injEq] at made
      subst made
      simp only [encoded]
      exact ⟨rfl, rfl⟩

variable {prompt : String}

theorem generateText_of_tokenRun? (encoded : p.tokenizer.encode prompt true = .ok ids)
    (made : p.tokenRun? ids config = some r) :
    (p.generateText prompt config).1 =
      match r.ending with
      | .ok _ =>
        ⟨.promptEncoded ids.length :: r.events p.stop ++ [.generationDone r.accepted.length],
          .ok (p.tokenizer.decode r.accepted)⟩
      | .error f => ⟨.promptEncoded ids.length :: r.events p.stop, .error f⟩ := by
  have tokens := (continueFrom_of_tokenRun? made).2
  simp only [generateText, encoded, during, tokens, TokenRun.tokens]
  cases r.ending <;> rfl

/-- The answer of a run that ended for want of room after so many tokens. -/
def windowAnswer (p : Pipeline) (ids : List Nat) (r : TokenRun Unit) (count : Nat) :
    Logged String :=
  ⟨[.promptEncoded ids.length, .windowFull p.stop.contextLimit count, .generationDone count],
    .ok (p.tokenizer.decode r.accepted)⟩

theorem generateText_eq_windowAnswer {count : Nat}
    (encoded : p.tokenizer.encode prompt true = .ok ids)
    (made : p.tokenRun? ids config = some r) :
    (p.generateText prompt config).1 = p.windowAnswer ids r count ↔
      r.accepted.length = count ∧ r.ending = .ok .windowFull := by
  rw [generateText_of_tokenRun? encoded made, windowAnswer]
  rcases ending : r.ending with f | _ | _ | token <;> simp [TokenRun.events, ending]

end Pipeline

/-- The size of the position table of the model in a directory, as the model's family reads it;
`none` for a model that has no table. -/
def tableSize (t : FileTree) (directory : String) : Except Failure (Option Nat) := do
  let config ← ModelConfig.load t directory
  let family ← Family.resolve config.architecture config.modelTypeName
  let h ← (Settings.ofFamily family).load t directory
  pure (if Settings.HasTable family then some h.positions else none)

/-- The configuration is that of a causal model and states a number of positions. -/
def StatesLimit (t : FileTree) (directory : String) : Prop :=
  ∃ c, ModelConfig.load t directory = .ok c ∧ c.architecture = .causalDecoder ∧
    c.maxPositionEmbeddings.isSome = true

def Family.architecture : Family → Architecture
  | .causal _ => .causalDecoder
  | .seq2Seq _ => .encoderDecoder

theorem Family.architecture_of_resolve {a : Architecture} {modelType : String} {f : Family}
    (resolved : resolve a modelType = .ok f) : a = f.architecture := by
  unfold resolve at resolved
  cases a with
  | causalDecoder =>
    cases name : CausalFamily.ofName? modelType <;> simp [ofName?, name] at resolved
    rw [← resolved, architecture]
  | encoderDecoder =>
    cases name : Seq2SeqFamily.ofName? modelType <;> simp [ofName?, name] at resolved
    rw [← resolved, architecture]

variable {t : FileTree} {directory : String}

theorem ofFile_eq_ok {α : Type} {r : Json.Reader α} {path : String} {content : Bytes} {a : α} :
    r.ofFile path content = .ok a ↔ r.run content = .ok a := by
  unfold Json.Reader.ofFile
  cases r.run content <;> simp

theorem positions_of_load {c : ModelConfig} {family : Family} {h : Hyperparameters}
    (configured : ModelConfig.load t directory = .ok c)
    (settings : (Settings.ofFamily family).load t directory = .ok h)
    (table : Settings.HasTable family) :
    h.positions = c.maxPositionEmbeddings.getD (Settings.ofFamily family).blank.positions ∧
      (¬Settings.HasDefault family → c.maxPositionEmbeddings.isSome = true) := by
  obtain ⟨content, found, read⟩ := bind_eq_ok.1 configured
  obtain ⟨content', found', settings⟩ := bind_eq_ok.1 settings
  obtain rfl := eq_of_eq_ok found found'
  obtain ⟨document, kept, settings⟩ := bind_eq_ok.1 settings
  cases shaped : (Settings.ofFamily family).read document with
  | error kind => simp [shaped] at settings
  | ok h' =>
    obtain rfl : h' = h := by simpa [shaped] using settings
    exact Settings.positions_agree table (ofFile_eq_ok.1 read) (ofFile_eq_ok.1 kept) shaped

/-- A generation that comes to the token loop, of a model with a position table. -/
structure TabledGeneration (t : FileTree) (directory : String) where
  pipeline : Pipeline
  loaded : (Pipeline.load t directory).result = .ok pipeline
  size : Nat
  table : tableSize t directory = .ok (some size)
  prompt : String
  ids : List Nat
  encoded : pipeline.tokenizer.encode prompt true = .ok ids
  config : SamplingConfig
  run : TokenRun Unit
  made : pipeline.tokenRun? ids config = some run
  begun : pipeline.seed ids ≠ []

namespace TabledGeneration

variable (g : TabledGeneration t directory)

def Reaches (k : Nat) : Prop := g.run.Reaches g.config.maxNewTokens k

/-- The tokens that the generation would have after `k` new ones. -/
def lengthAfter (k : Nat) : Nat := (g.pipeline.seed g.ids).length + k

def FeedsTable : Prop :=
  ∀ call ∈ (g.pipeline.continueFrom g.ids g.config).calls,
    ∀ i < call.tokens.length, call.offset + i < g.size

/-- The generation stays inside the position table of its model: it feeds positions of the table
only, and where the next token would have none, it answers with the tokens so far and a warning. -/
structure KeepsToTable : Prop where
  feeds : g.FeedsTable
  ends : ∀ k, g.Reaches k → g.size ≤ g.lengthAfter k →
    (g.pipeline.generateText g.prompt g.config).1 = g.pipeline.windowAnswer g.ids g.run k

theorem feedsTable_iff_run : g.FeedsTable ↔ g.run.FeedsBelow g.size := by
  rw [FeedsTable, (Pipeline.continueFrom_of_tokenRun? g.made).1, TokenRun.FeedsBelow]

theorem keepsToTable_iff_run :
    g.KeepsToTable ↔
      g.run.KeepsToTable g.size (g.pipeline.seed g.ids).length g.config.maxNewTokens := by
  constructor
  · rintro ⟨feeds, ends⟩
    refine ⟨g.feedsTable_iff_run.1 feeds, fun k reached beyond => ?_⟩
    exact (Pipeline.generateText_eq_windowAnswer g.encoded g.made).1 (ends k reached beyond)
  · rintro ⟨feeds, ends⟩
    refine ⟨g.feedsTable_iff_run.2 feeds, fun k reached beyond => ?_⟩
    exact (Pipeline.generateText_eq_windowAnswer g.encoded g.made).2 (ends k reached beyond)

theorem parts : ∃ c family store h, ModelConfig.load t directory = .ok c ∧
    Family.resolve c.architecture c.modelTypeName = .ok family ∧
    Model.ofFamily family t directory store = .ok g.pipeline.model ∧
    (Settings.ofFamily family).load t directory = .ok h ∧
    Settings.HasTable family ∧ h.positions = g.size ∧
    g.pipeline.stop.contextLimit =
      match c.architecture with
      | .causalDecoder => c.maxPositionEmbeddings
      | .encoderDecoder => none := by
  obtain ⟨c, generation, model, tokenizer, configured, -, modelled, -, pipeline⟩ :=
    Pipeline.load_eq_ok.1 g.loaded
  obtain ⟨family, files, store, resolved, -, -, modelled⟩ := Model.load_eq_ok.1 modelled
  -- loading and the table go through the same files, so their parts are the same
  obtain ⟨c', configured', table⟩ := bind_eq_ok.1 g.table
  obtain rfl := eq_of_eq_ok configured configured'
  obtain ⟨family', resolved', table⟩ := bind_eq_ok.1 table
  obtain rfl := eq_of_eq_ok resolved resolved'
  obtain ⟨h, settings, table⟩ := bind_eq_ok.1 table
  refine ⟨c, family, store, h, configured, resolved, by rw [pipeline]; exact modelled, settings, ?_⟩
  by_cases tabled : Settings.HasTable family
  · have size : some h.positions = some g.size := by
      simpa [tabled, pure, Except.pure] using table
    exact ⟨tabled, Option.some.inj size, by rw [pipeline]; rfl⟩
  · simp [tabled, pure, Except.pure] at table

theorem limit_eq {n : Nat} (limit : g.pipeline.stop.contextLimit = some n) : n = g.size := by
  obtain ⟨c, family, store, h, configured, -, -, settings, table, size, stated⟩ := g.parts
  have agree := (positions_of_load configured settings table).1
  rw [limit] at stated
  cases architecture : c.architecture with
  | encoderDecoder => simp [architecture] at stated
  | causalDecoder =>
    have positions : c.maxPositionEmbeddings = some n := by simpa [architecture] using stated.symm
    rw [← size, agree, positions, Option.getD_some]

theorem statesLimit_iff :
    StatesLimit t directory ↔ g.pipeline.stop.contextLimit.isSome = true := by
  obtain ⟨c, family, store, h, configured, -, -, settings, table, size, stated⟩ := g.parts
  rw [stated]
  constructor
  · rintro ⟨c', configured', causal, states⟩
    obtain rfl := eq_of_eq_ok configured configured'
    simpa [causal] using states
  · intro states
    cases architecture : c.architecture with
    | encoderDecoder => simp [architecture] at states
    | causalDecoder => exact ⟨c, configured, architecture, by simpa [architecture] using states⟩

theorem contextLimit_eq_none (silent : ¬StatesLimit t directory) :
    g.pipeline.stop.contextLimit = none := by
  simpa [g.statesLimit_iff] using silent

theorem statesLimit_of_causal (g : TabledGeneration t directory) {c : ModelConfig}
    {f : CausalFamily}
    (configured : ModelConfig.load t directory = .ok c)
    (resolved : Family.resolve c.architecture c.modelTypeName = .ok (.causal f))
    (insists : ¬Settings.HasDefault (.causal f)) : StatesLimit t directory := by
  obtain ⟨c', family, store, h, configured', resolved', -, settings, table, -, -⟩ := g.parts
  obtain rfl := eq_of_eq_ok configured configured'
  obtain rfl := eq_of_eq_ok resolved resolved'
  exact ⟨c, configured, Family.architecture_of_resolve resolved,
    (positions_of_load configured settings table).2 insists⟩

/-- A marian model has no row for a position outside its table, and is not stopped there. -/
theorem fails_of_marian {c : ModelConfig} (configured : ModelConfig.load t directory = .ok c)
    (resolved : Family.resolve c.architecture c.modelTypeName = .ok (.seq2Seq .marian))
    {k : Nat} (reached : g.Reaches k) (beyond : g.size < g.lengthAfter k) :
    g.run.accepted.length = g.size ∧
      ∃ f : Failure, (g.pipeline.generateText g.prompt g.config).1.result =
        .error (f.within (.forward g.size)) := by
  obtain ⟨c', family, store, h, configured', resolved', modelled, settings, -, size, stated⟩ :=
    g.parts
  obtain rfl := eq_of_eq_ok configured configured'
  obtain rfl := eq_of_eq_ok resolved resolved'
  obtain ⟨h', m, settings', assembled, same⟩ := Model.ofFamily_seq2Seq.1 modelled
  obtain rfl := eq_of_eq_ok settings settings'
  have unlimited : g.pipeline.stop.contextLimit = none := by
    rw [stated, Family.architecture_of_resolve resolved]
    rfl
  have below : m.decoder.StaysBelow g.size :=
    size ▸ Seq2SeqModel.decoder_staysBelow (Seq2SeqFamily.positions_of_marian assembled)
  obtain ⟨s, run⟩ := Pipeline.tokenRun?_of_seq2Seq same g.made
  have seed : (g.pipeline.seed g.ids).length = 1 := by rw [Pipeline.seed, same]; rfl
  rw [lengthAfter, seed] at beyond
  rw [Reaches, run, TokenRun.reaches_forget] at reached
  obtain ⟨accepted, f, ending⟩ := TokenLoop.run_outside unlimited below _ reached beyond
  refine ⟨run ▸ accepted, f, ?_⟩
  have ending' : g.run.ending = .error (f.within (.forward g.size)) := run ▸ ending
  rw [Pipeline.generateText_of_tokenRun? g.encoded g.made, ending']

theorem keepsToTable_of_statesLimit (states : StatesLimit t directory) : g.KeepsToTable := by
  obtain ⟨n, limit⟩ := Option.isSome_iff_exists.1 (g.statesLimit_iff.1 states)
  obtain ⟨σ, d, s, run⟩ := Pipeline.tokenRun?_eq_some g.made
  rw [g.keepsToTable_iff_run, run, TokenRun.keepsToTable_forget, ← g.limit_eq limit]
  exact TokenLoop.run_keepsToTable limit g.begun

/-- A generation stays inside the table if the configuration is that of a causal model and states a
number of positions, as all causal families but two insist on. Any other generation does exactly if
it ends before its tokens fill the table, and feeds no other position exactly if it comes to no
round that would; where that of a marian model comes to such a round, it fails. -/
theorem keepsToTable_iff :
    (g.KeepsToTable ↔ StatesLimit t directory ∨ ∀ k, g.Reaches k → g.lengthAfter k < g.size) ∧
      (g.FeedsTable ↔ StatesLimit t directory ∨ ∀ k, g.Reaches k → g.lengthAfter k ≤ g.size) ∧
      (∀ c f, ModelConfig.load t directory = .ok c →
        Family.resolve c.architecture c.modelTypeName = .ok (.causal f) →
          f ≠ .gemma → f ≠ .gemma2 → StatesLimit t directory) ∧
      ∀ c k, ModelConfig.load t directory = .ok c →
        Family.resolve c.architecture c.modelTypeName = .ok (.seq2Seq .marian) →
          g.Reaches k → g.size < g.lengthAfter k →
            g.run.accepted.length = g.size ∧
              ∃ f : Failure, (g.pipeline.generateText g.prompt g.config).1.result =
                .error (f.within (.forward g.size)) := by
  refine ⟨?_, ?_, ?_, fun c k configured resolved => g.fails_of_marian configured resolved⟩
  · by_cases states : StatesLimit t directory
    · exact iff_of_true (g.keepsToTable_of_statesLimit states) (.inl states)
    · obtain ⟨σ, d, s, run⟩ := Pipeline.tokenRun?_eq_some g.made
      have unlimited := g.contextLimit_eq_none states
      simp only [states, false_or, Reaches, lengthAfter]
      rw [g.keepsToTable_iff_run, run, TokenRun.keepsToTable_forget]
      exact TokenLoop.run_keepsToTable_iff unlimited g.begun
  · by_cases states : StatesLimit t directory
    · exact iff_of_true (g.keepsToTable_of_statesLimit states).feeds (.inl states)
    · obtain ⟨σ, d, s, run⟩ := Pipeline.tokenRun?_eq_some g.made
      have unlimited := g.contextLimit_eq_none states
      simp only [states, false_or, Reaches, lengthAfter]
      rw [g.feedsTable_iff_run, run, TokenRun.feedsBelow_forget]
      exact TokenLoop.run_feedsBelow_iff unlimited g.begun
  · intro c f configured resolved other other'
    exact g.statesLimit_of_causal configured resolved (by simp [Settings.HasDefault, other, other'])

end TabledGeneration

/-! A model with a table of two positions that is asked for three tokens. -/

namespace Overrun

def bytes (lines : List String) : Bytes := lines.flatMap fun line => line.toUTF8.data.toList

theorem isSome_decode_bytes (lines : List String) : (Text.Utf8.decode? (bytes lines)).isSome := by
  have joined : bytes lines = (lines.foldr (· ++ ·) "").toUTF8.data.toList := by
    induction lines with
    | nil => rfl
    | cons line lines ih =>
      rw [bytes, List.flatMap_cons, ← bytes, ih]
      simp
  rw [joined]
  exact Text.Utf8.isSome_decode?_toUTF8 _

def configuration : Bytes := bytes [
  "\x7b\"model_type\":\"marian\",\"is_encoder_decoder\":true,\"vocab_size\":1,",
  "\"max_position_embeddings\":2,\"d_model\":2,\"encoder_layers\":0,\"encoder_ffn_dim\":1,",
  "\"encoder_attention_heads\":1,\"decoder_layers\":0,\"decoder_ffn_dim\":1,",
  "\"decoder_attention_heads\":1,\"use_cache\":true,\"activation_function\":\"relu\",",
  "\"decoder_start_token_id\":0,\"scale_embedding\":false,\"pad_token_id\":0,",
  "\"eos_token_id\":1,\"forced_eos_token_id\":1,\"share_encoder_decoder_embeddings\":true\x7d"]

def words : Bytes := bytes [
  "\x7b\"version\":\"1.0\",\"pre_tokenizer\":\x7b\"type\":\"WhitespaceSplit\"\x7d,",
  "\"model\":\x7b\"type\":\"WordLevel\",\"vocab\":\x7b\"a\":0\x7d,\"unk_token\":\"a\"\x7d\x7d"]

def header : Bytes := bytes [
  "\x7b\"final_logits_bias\":\x7b\"dtype\":\"F32\",\"shape\":[1,1],\"data_offsets\":[0,4]\x7d,",
  "\"model.shared.weight\":\x7b\"dtype\":\"F32\",\"shape\":[1,2],\"data_offsets\":[4,12]\x7d\x7d"]

def weights : Bytes := [146, 0, 0, 0, 0, 0, 0, 0] ++ header ++ List.replicate 12 0

def tree : FileTree where
  root := .directory
    [("config.json", .file configuration), ("model.safetensors", .file weights),
      ("tokenizer.json", .file words)]

def sheet : Weights.Header where
  tensors :=
    [("final_logits_bias", ⟨.f32, [1, 1], 0, 4⟩), ("model.shared.weight", ⟨.f32, [1, 2], 4, 12⟩)]
  content := List.replicate 12 0

theorem parse_weights : Weights.Header.parse weights = .ok sheet := by
  have counts : Weights.littleEndian [146, 0, 0, 0, 0, 0, 0, 0] = header.length := by
    decide +kernel
  have short : header.length ≤ Weights.Header.maxLength := by decide +kernel
  have described : (Json.parse header).toOption.bind Weights.Header.tensors? =
      some sheet.tensors := by decide +kernel
  rw [weights, List.append_assoc]
  exact Weights.Header.parse_of_layout rfl counts short (isSome_decode_bytes _) described
    (by decide) rfl

def store : Weights.Store := Weights.Store.join [sheet.store]

theorem load_weights :
    (Weights.load tree (.safetensors ["/model.safetensors"])).result = .ok store := by
  have inspected : ["/model.safetensors"].map (Weights.inspect tree) = [sheet].map .ok :=
    congrArg ([·]) (Weights.inspect_of_parse rfl parse_weights)
  exact Weights.load_safetensors (mapM_eq_ok.2 inspected)

def config : SamplingConfig := { maxNewTokens := 3, temperature := 0 : Params }.effective

def pipeline : Except Failure Pipeline := do
  let model ← Model.ofFamily (.seq2Seq .marian) tree "/" store
  let tokenizer ← Tokenizer.load tree "/"
  pure
    { task := .textToText, model, tokenizer, stop := { endTokens := [1] }, decoderStart := 0 }

def endsOutside : Except Failure Ending → Bool
  | .error ⟨[.forward 2], .compute (.badIndex 2 2)⟩ => true
  | _ => false

theorem pipeline_eq_ok :
    ∃ p r, pipeline = .ok p ∧ p.tokenizer.encode "a" true = .ok [0] ∧
      p.tokenRun? [0] config = some r ∧ r.accepted = [0, 0] ∧
        r.ending = .error ⟨[.forward 2], .compute (.badIndex 2 2)⟩ := by
  have evaluated : (pipeline.toOption.any fun p =>
      (p.tokenizer.encode "a" true).toOption == some [0] &&
        (p.tokenRun? [0] config).any fun r =>
          r.accepted == [0, 0] && endsOutside r.ending) = true := by decide +kernel
  obtain ⟨p, made, evaluated⟩ := (Option.any_eq_true _ _).1 evaluated
  obtain ⟨encoded, evaluated⟩ := (Bool.and_eq_true _ _).mp evaluated
  obtain ⟨r, run, evaluated⟩ := (Option.any_eq_true _ _).1 evaluated
  obtain ⟨accepted, ending⟩ := (Bool.and_eq_true _ _).mp evaluated
  refine ⟨p, r, eq_ok_of_toOption made, eq_ok_of_toOption (eq_of_beq encoded), run,
    eq_of_beq accepted, ?_⟩
  unfold endsOutside at ending
  split at ending
  · assumption
  · cases ending

def stated : ModelConfig :=
  { isEncoderDecoder := true, modelType := some "marian", eosTokenId := some (.one 1)
    padTokenId := some 0, decoderStartTokenId := some 0, maxPositionEmbeddings := some 2 }

theorem load_eq_ok {p : Pipeline} (made : pipeline = .ok p) :
    (Pipeline.load tree "/").result = .ok p := by
  obtain ⟨model, tokenizer, modelled, tokenized, rfl⟩ := bind_pure_eq_ok.1 made
  have configured : ModelConfig.load tree "/" = .ok stated :=
    eq_ok_of_toOption (by decide +kernel)
  have found : WeightFiles.find tree "/" = .ok (.safetensors ["/model.safetensors"]) :=
    eq_ok_of_toOption (by decide +kernel)
  have resolved : Family.resolve stated.architecture stated.modelTypeName =
      .ok (.seq2Seq .marian) := by rfl
  exact Pipeline.load_eq_ok.2 ⟨stated, none, model, tokenizer, configured, by rfl,
    Model.load_eq_ok.2 ⟨_, _, store, resolved, found, load_weights, modelled⟩, tokenized, by rfl⟩

/-- A generation of two tokens that ends with a failure at the first position outside the table. -/
theorem exists_not_keepsToTable : ∃ g : TabledGeneration tree "/", g.size = 2 ∧
    (g.pipeline.generateText g.prompt g.config).1.result =
      .error ⟨[.forward 2], .compute (.badIndex 2 2)⟩ ∧ ¬g.KeepsToTable := by
  obtain ⟨p, r, made, encoded, run, accepted, ending⟩ := pipeline_eq_ok
  have table : tableSize tree "/" = .ok (some 2) := eq_ok_of_toOption (by decide +kernel)
  have one : (p.seed [0]).length = 1 := by
    unfold Pipeline.seed
    cases p.model <;> rfl
  let g : TabledGeneration tree "/" :=
    { pipeline := p, loaded := load_eq_ok made, size := 2, table, prompt := "a", ids := [0], encoded
      config, run := r, made := run
      begun := List.ne_nil_of_length_eq_add_one one }
  refine ⟨g, rfl, ?_, fun keeps => ?_⟩
  · rw [Pipeline.generateText_of_tokenRun? encoded run, ending]
  · have answer := keeps.ends 2 ⟨by simp [g, accepted], show 2 < config.maxNewTokens by decide⟩
      (by simp [g, TabledGeneration.lengthAfter, one])
    have full := ((Pipeline.generateText_eq_windowAnswer encoded run).1 answer).2
    rw [ending] at full
    cases full

end Overrun

end TextCompletion
