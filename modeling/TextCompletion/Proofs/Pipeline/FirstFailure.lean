import TextCompletion.Proofs.Pipeline.PositionTable
import TextCompletion.Proofs.Pipeline.Probes

/-!
Loading by its stages: the two configurations, the family, which files hold the weights, the
weights, the model, the tokenizer. Main statement: the first stage that fails gives the failure of
the whole, and what it asks of the file tree, with what the stages before it ask, settles that
failure; files that only later stages look at have no part in it. So it is whatever the families
make of their settings and tensors, and whatever is made of the tokenizer's file.
-/

namespace TextCompletion

inductive LoadStage where
  | modelConfig
  | generationConfig
  | family
  | weightFiles
  | weights
  | model
  | tokenizer
  deriving DecidableEq, Repr

namespace LoadStage

def all : List LoadStage :=
  [modelConfig, generationConfig, family, weightFiles, weights, model, tokenizer]

def before (stage : LoadStage) : List LoadStage := all.takeWhile (· != stage)

def upTo (stage : LoadStage) : List LoadStage := stage.before ++ [stage]

theorem mem_before_or {stage stage' : LoadStage} (other : stage ≠ stage') :
    stage ∈ stage'.before ∨ stage' ∈ stage.before := by
  revert other
  cases stage <;> cases stage' <;> decide

theorem upTo_subset {stage stage' : LoadStage} (earlier : stage ∈ stage'.before) :
    stage.upTo ⊆ stage'.upTo := by
  revert earlier
  cases stage <;> cases stage' <;> decide

variable {μ τ : Type}

section

variable (m : Makers μ τ) (t : FileTree) (directory : String)

/-! What the stages hand to later ones, where they pass. -/

def config? : Option ModelConfig := (ModelConfig.load t directory).toOption

def family? : Option Family :=
  (config? t directory).bind fun c => (Family.resolve c.architecture c.modelTypeName).toOption

def files? : Option WeightFiles := (WeightFiles.find t directory).toOption

def store? : Option Weights.Store :=
  (files? t directory).bind fun files => (Weights.load t files).result.toOption

/-- How a stage ends, given what it gets from the ones before; `none` if it does not get that. -/
def outcome? : LoadStage → Option (Except Failure Unit)
  | modelConfig => some (settled (ModelConfig.load t directory))
  | generationConfig => some (settled (GenerationConfig.load t directory))
  | family =>
    (config? t directory).map fun c => settled (Family.resolve c.architecture c.modelTypeName)
  | weightFiles => some (settled (WeightFiles.find t directory))
  | weights => (files? t directory).map fun files => settled (Weights.load t files).result
  | model =>
    (family? t directory).bind fun f =>
      (store? t directory).map fun s => settled ((m.builders f).make t directory s)
  | tokenizer => some (settled (Tokenizer.loadBy m.tokenizer t directory))

/-- What a stage asks of the file tree. The model is built from the settings in `config.json`, which
is read again, and from the content of the weight files. -/
def probes : LoadStage → List Probe
  | modelConfig => ModelConfig.probes directory
  | generationConfig => GenerationConfig.probes t directory
  | family => []
  | weightFiles => WeightFiles.probes t directory
  | weights => ((files? t directory).map (Weights.probes t)).getD []
  | model =>
    ModelConfig.probes directory ++
      ((files? t directory).map fun files => files.paths.map Probe.content).getD []
  | tokenizer => Tokenizer.probes t directory

def Passes (stage : LoadStage) : Prop := outcome? m t directory stage = some (.ok ())

def FailsFirst (stage : LoadStage) (f : Failure) : Prop :=
  outcome? m t directory stage = some (.error f) ∧ ∀ s ∈ stage.before, s.Passes m t directory

end

variable {m : Makers μ τ} {t t' : FileTree} {directory : String} {stage stage' : LoadStage}
  {f f' : Failure}

theorem FailsFirst.not_passes (fails : stage.FailsFirst m t directory f) :
    ¬stage.Passes m t directory := by
  intro passes
  cases fails.1.symm.trans passes

theorem FailsFirst.unique (fails : stage.FailsFirst m t directory f)
    (fails' : stage'.FailsFirst m t directory f') : stage = stage' ∧ f = f' := by
  by_cases same : stage = stage'
  · subst same
    exact ⟨rfl, Except.error.inj (Option.some.inj (fails.1.symm.trans fails'.1))⟩
  · rcases mem_before_or same with earlier | earlier
    · exact absurd (fails'.2 stage earlier) fails.not_passes
    · exact absurd (fails.2 stage' earlier) fails'.not_passes

section

variable {c : ModelConfig} {chosen : Family} {files : WeightFiles} {store : Weights.Store}

theorem config?_of_load (configured : ModelConfig.load t directory = .ok c) :
    config? t directory = some c := by
  rw [config?, configured]
  rfl

theorem family?_of_resolve (configured : ModelConfig.load t directory = .ok c)
    (resolved : Family.resolve c.architecture c.modelTypeName = .ok chosen) :
    family? t directory = some chosen := by
  rw [family?, config?_of_load configured, Option.bind_some, resolved]
  rfl

theorem files?_of_find (found : WeightFiles.find t directory = .ok files) :
    files? t directory = some files := by
  rw [files?, found]
  rfl

theorem store?_of_load (found : WeightFiles.find t directory = .ok files)
    (stored : (Weights.load t files).result = .ok store) : store? t directory = some store := by
  rw [store?, files?_of_find found, Option.bind_some, stored]
  rfl

end

theorem load_result (m : Makers μ τ) (t : FileTree) (directory : String) :
    (m.load t directory).result = (do
      let config ← ModelConfig.load t directory
      let generation ← GenerationConfig.load t directory
      let family ← Family.resolve config.architecture config.modelTypeName
      let files ← WeightFiles.find t directory
      let store ← (Weights.load t files).result
      let model ← (m.builders family).make t directory store
      let tokenizer ← Tokenizer.loadBy m.tokenizer t directory
      pure
        { task := config.architecture.task, model, tokenizer
          stop := Pipeline.stopCondition config generation
          decoderStart := Pipeline.startToken config generation }) := by
  simp only [Makers.load, Builder.load, Logged.result_bind, Logged.result_lift,
    Logged.result_report, Logged.result_pure, bind_assoc]
  rfl

variable (m t directory) in
/-- All stages pass and the directory is loaded, or there is the failure of the first one that does
not. -/
def EndsAs (result : Except Failure (Loaded μ τ)) : Prop :=
  (∃ p, result = .ok p ∧ ∀ stage : LoadStage, stage.Passes m t directory) ∨
    ∃ (stage : LoadStage) (f : Failure), result = .error f ∧ stage.FailsFirst m t directory f

theorem EndsAs.bind {α : Type} {x : Except Failure α} {next : α → Except Failure (Loaded μ τ)}
    (stage : LoadStage) (outcome : stage.outcome? m t directory = some (settled x))
    (passed : ∀ s ∈ stage.before, s.Passes m t directory)
    (further : ∀ a, x = .ok a → (∀ s ∈ stage.upTo, s.Passes m t directory) →
      EndsAs m t directory (next a)) :
    EndsAs m t directory (x >>= next) := by
  cases x with
  | error f => exact .inr ⟨stage, f, rfl, outcome, passed⟩
  | ok a =>
    have passes : ∀ s ∈ [stage], s.Passes m t directory := List.forall_mem_singleton.2 outcome
    exact further a rfl (List.forall_mem_append.2 ⟨passed, passes⟩)

theorem load_endsAs (m : Makers μ τ) (t : FileTree) (directory : String) :
    EndsAs m t directory (m.load t directory).result := by
  rw [load_result]
  refine .bind modelConfig rfl nofun fun c configured passed => ?_
  refine .bind generationConfig rfl passed fun generation generated passed => ?_
  have config := config?_of_load configured
  refine .bind family (by rw [outcome?, config, Option.map_some]) passed
    fun chosen resolved passed => ?_
  refine .bind weightFiles rfl passed fun files found passed => ?_
  have files' := files?_of_find found
  refine .bind weights (by rw [outcome?, files', Option.map_some]) passed
    fun store stored passed => ?_
  have chosen' := family?_of_resolve configured resolved
  have store' := store?_of_load found stored
  refine .bind model (by rw [outcome?, chosen', store', Option.bind_some, Option.map_some]) passed
    fun made modelled passed => ?_
  refine .bind tokenizer rfl passed fun words tokenized passed => ?_
  exact .inl ⟨_, rfl, fun stage => passed stage (by cases stage <;> decide)⟩

/-! Trees that agree on what the stages up to one ask. -/

def Agree (t t' : FileTree) (directory : String) (stage : LoadStage) : Prop :=
  ∀ s ∈ stage.upTo, Probe.Agree t t' (s.probes t directory)

theorem Agree.earlier (agree : Agree t t' directory stage) (earlier : stage' ∈ stage.before) :
    Agree t t' directory stage' :=
  fun s member => agree s (upTo_subset earlier member)

theorem config?_congr (agree : Probe.Agree t t' (probes t directory modelConfig)) :
    config? t' directory = config? t directory := by
  rw [config?, config?, ModelConfig.load_congr agree]

theorem family?_congr (agree : Probe.Agree t t' (probes t directory modelConfig)) :
    family? t' directory = family? t directory := by
  rw [family?, family?, config?_congr agree]

theorem files?_congr (agree : Probe.Agree t t' (probes t directory weightFiles)) :
    files? t' directory = files? t directory := by
  rw [files?, files?, WeightFiles.find_congr agree]

theorem store?_congr (found : Probe.Agree t t' (probes t directory weightFiles))
    (agree : Probe.Agree t t' (probes t directory model)) :
    store? t' directory = store? t directory := by
  rw [store?, store?, files?_congr found]
  cases files : files? t directory with
  | none => rfl
  | some files' =>
    have contents : Probe.Agree t t' (files'.paths.map Probe.content) := by
      rw [probes, files] at agree
      exact (List.forall_mem_append.1 agree).2
    rw [Option.bind_some, Option.bind_some, Weights.load_congr contents]

theorem outcome?_congr (agree : Agree t t' directory stage) :
    stage.outcome? m t' directory = stage.outcome? m t directory := by
  have own : Probe.Agree t t' (stage.probes t directory) := agree stage (by simp [upTo])
  cases stage with
  | modelConfig => rw [outcome?, outcome?, ModelConfig.load_congr own]
  | generationConfig => rw [outcome?, outcome?, GenerationConfig.load_congr own]
  | family => rw [outcome?, outcome?, config?_congr (agree modelConfig (by decide))]
  | weightFiles => rw [outcome?, outcome?, WeightFiles.find_congr own]
  | weights =>
    rw [outcome?, outcome?, files?_congr (agree weightFiles (by decide))]
    cases files : files? t directory with
    | none => rfl
    | some files' =>
      rw [probes, files] at own
      rw [Option.map_some, Option.map_some, Weights.settled_load_congr own]
  | model =>
    have configured := agree modelConfig (by decide)
    rw [outcome?, outcome?, family?_congr configured,
      store?_congr (agree weightFiles (by decide)) own]
    simp only [Builder.make_congr configured]
  | tokenizer => rw [outcome?, outcome?, Tokenizer.loadBy_congr own]

theorem FailsFirst.congr (agree : Agree t t' directory stage)
    (fails : stage.FailsFirst m t directory f) : stage.FailsFirst m t' directory f := by
  refine ⟨(outcome?_congr agree).trans fails.1, fun s earlier => ?_⟩
  exact (outcome?_congr (agree.earlier earlier)).trans (fails.2 s earlier)

theorem FailsFirst.load (fails : stage.FailsFirst m t directory f) :
    (m.load t directory).result = .error f := by
  rcases load_endsAs m t directory with ⟨p, -, passed⟩ | ⟨stage', f', failed, fails'⟩
  · exact absurd (passed stage) fails.not_passes
  · rw [failed, (fails.unique fails').2]

theorem failsFirst_family {c : ModelConfig} {generation : Option GenerationConfig}
    (configured : ModelConfig.load t directory = .ok c)
    (generated : GenerationConfig.load t directory = .ok generation)
    (unknown : Family.ofName? c.modelTypeName c.architecture = none) :
    family.FailsFirst m t directory
      (.of (.unsupportedModel c.architecture.task c.modelTypeName
        (Family.supported c.architecture))) := by
  refine ⟨?_, ?_⟩
  · rw [outcome?, config?_of_load configured, Option.map_some, Family.resolve, unknown]
    rfl
  · show ∀ s ∈ [modelConfig, generationConfig], s.Passes m t directory
    simp [Passes, outcome?, configured, generated]

end LoadStage

namespace Makers

/-- Whatever models and tokenizers are made of, loading succeeds exactly if all stages pass, and
otherwise gives the failure of the first stage that does not; and so it does on every tree that
agrees on what the stages up to that one ask. A model of no known family is refused whatever else
there is beside its two configurations. -/
theorem load_stopsAtFirst {μ τ : Type} (m : Makers μ τ) (t : FileTree) (directory : String) :
    ((∃ p, (m.load t directory).result = .ok p) ↔
        ∀ stage : LoadStage, stage.Passes m t directory) ∧
      (∀ f, (m.load t directory).result = .error f ↔
        ∃ stage : LoadStage, stage.FailsFirst m t directory f) ∧
      (∀ (stage : LoadStage) f t', stage.FailsFirst m t directory f →
        LoadStage.Agree t t' directory stage →
          stage.FailsFirst m t' directory f ∧ (m.load t' directory).result = .error f) ∧
      ∀ c generation t', ModelConfig.load t directory = .ok c →
        GenerationConfig.load t directory = .ok generation →
          Family.ofName? c.modelTypeName c.architecture = none →
            LoadStage.Agree t t' directory .generationConfig →
              (m.load t' directory).result =
                .error (.of (.unsupportedModel c.architecture.task c.modelTypeName
                  (Family.supported c.architecture))) := by
  refine ⟨?_, fun f => ?_, fun stage f t' fails agree => ?_, ?_⟩
  · constructor
    · rintro ⟨p, loaded⟩
      rcases LoadStage.load_endsAs m t directory with ⟨_, -, passed⟩ | ⟨stage, f, failed, -⟩
      · exact passed
      · cases loaded.symm.trans failed
    · intro passed
      rcases LoadStage.load_endsAs m t directory with ⟨p, loaded, -⟩ | ⟨stage, f, -, fails⟩
      · exact ⟨p, loaded⟩
      · exact absurd (passed stage) fails.not_passes
  · constructor
    · intro failed
      rcases LoadStage.load_endsAs m t directory with
        ⟨p, loaded, -⟩ | ⟨stage, f', failed', fails⟩
      · cases loaded.symm.trans failed
      · obtain rfl := Except.error.inj (failed.symm.trans failed')
        exact ⟨stage, fails⟩
    · rintro ⟨stage, fails⟩
      exact fails.load
  · exact ⟨fails.congr agree, (fails.congr agree).load⟩
  · intro c generation t' configured generated unknown agree
    have agree' : LoadStage.Agree t t' directory .family := by
      refine List.forall_mem_append.2 ⟨agree, ?_⟩
      simp [LoadStage.probes]
    exact ((LoadStage.failsFirst_family configured generated unknown).congr agree').load

/-! A directory without weights, and one that has what later stages look at. -/

namespace Unsupported

def configuration : Bytes := Overrun.bytes ["\x7b\"model_type\":\"gpt_neox\"\x7d"]

def bare : FileTree where
  root := .directory [("config.json", .file configuration)]

def furnished : FileTree where
  root := .directory
    [("config.json", .file configuration), ("model.safetensors", .file [0]),
      ("tokenizer.json", .file Overrun.words)]

theorem load_configuration : ModelConfig.load bare "/" = .ok { modelType := some "gpt_neox" } :=
  eq_ok_of_toOption (by decide +kernel)

theorem agree : LoadStage.Agree bare furnished "/" .generationConfig := by
  show ∀ s ∈ [LoadStage.modelConfig, .generationConfig], _
  refine List.forall_mem_cons.2 ⟨?_, List.forall_mem_cons.2 ⟨?_, nofun⟩⟩
  · exact Probe.agree_cons.2 ⟨.file rfl, Probe.agree_nil⟩
  · exact Probe.agree_cons.2 ⟨by rfl, Probe.agree_nil⟩

end Unsupported

/-- The failure of a directory without weights is that of one with weights and a tokenizer. -/
theorem load_stopsAtFirst_unsupported :
    ∃ f, LoadStage.family.FailsFirst Pipeline.makers Unsupported.bare "/" f ∧
      (Pipeline.load Unsupported.bare "/").result = .error f ∧
      (Pipeline.load Unsupported.furnished "/").result = .error f ∧
      f.message = "unsupported text-generation model_type \"gpt_neox\" (supported: llama, " ++
        "mistral, mixtral, phi, phi3, gemma, gemma2, qwen2, qwen3, stablelm, starcoder2)" := by
  obtain ⟨-, failing, -, refused⟩ := load_stopsAtFirst Pipeline.makers Unsupported.bare "/"
  have generated : GenerationConfig.load Unsupported.bare "/" = .ok none := by rfl
  have fails := LoadStage.failsFirst_family (m := Pipeline.makers) Unsupported.load_configuration
    generated (by decide)
  exact ⟨_, fails, (failing _).2 ⟨_, fails⟩, refused _ none Unsupported.furnished
    Unsupported.load_configuration generated (by decide) Unsupported.agree, by decide +kernel⟩

end Makers
end TextCompletion
