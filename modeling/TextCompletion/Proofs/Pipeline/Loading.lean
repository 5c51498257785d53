import TextCompletion.Pipeline
import TextCompletion.Proofs.Results

/-!
What a successful load went through. Each of the loading functions succeeds exactly if its parts
do; the events on the way have no part in it.
-/

namespace TextCompletion

namespace Logged

variable {α β : Type}

@[simp] theorem result_lift (x : Except Failure α) : (liftM x : Logged α).result = x := rfl

@[simp] theorem result_pure (a : α) : (pure a : Logged α).result = .ok a := rfl

@[simp] theorem result_report (e : LogEvent) : (report e).result = .ok () := rfl

theorem result_bind (x : Logged α) (f : α → Logged β) :
    (x >>= f).result = x.result >>= fun a => (f a).result := by
  rcases x with ⟨events, failure | a⟩
  · rw [bind_error]
    rfl
  · rw [bind_ok]
    rfl

end Logged

theorem during_eq_ok {α : Type} {step : Step} {x : Except Failure α} {a : α} :
    during step x = .ok a ↔ x = .ok a := by
  cases x <;> simp [during]

namespace Model

variable {t : FileTree} {directory : String} {store : Weights.Store} {m : Model}

theorem ofFamily_causal {f : CausalFamily} :
    ofFamily (.causal f) t directory store = .ok m ↔
      ∃ h model, (Settings.ofCausal f).load t directory = .ok h ∧
        f.assemble h store = .ok model ∧ m = .causal model {} :=
  bind_pure_eq_ok (x := (Settings.ofCausal f).load t directory) (f := (f.assemble · store))
    (g := fun _ model => causal model {})

theorem ofFamily_seq2Seq {f : Seq2SeqFamily} :
    ofFamily (.seq2Seq f) t directory store = .ok m ↔
      ∃ h model, (Settings.ofSeq2Seq f).load t directory = .ok h ∧
        f.assemble h store = .ok model ∧ m = .seq2Seq model {} :=
  bind_pure_eq_ok (x := (Settings.ofSeq2Seq f).load t directory) (f := (f.assemble · store))
    (g := fun _ model => seq2Seq model {})

theorem load_eq_ok {c : ModelConfig} :
    (load c t directory).result = .ok m ↔
      ∃ family files store, Family.resolve c.architecture c.modelTypeName = .ok family ∧
        WeightFiles.find t directory = .ok files ∧ (Weights.load t files).result = .ok store ∧
        ofFamily family t directory store = .ok m := by
  simp only [load, Builder.load, Logged.result_bind, Logged.result_lift, Logged.result_report,
    bind_eq_ok]
  constructor
  · rintro ⟨family, resolved, files, found, -, -, store, stored, made⟩
    exact ⟨family, files, store, resolved, found, stored, made⟩
  · rintro ⟨family, files, store, resolved, found, stored, made⟩
    exact ⟨family, resolved, files, found, (), trivial, store, stored, made⟩

end Model

namespace Pipeline

variable {t : FileTree} {directory : String} {p : Pipeline}

theorem load_eq_ok :
    (load t directory).result = .ok p ↔
      ∃ config generation model tokenizer, ModelConfig.load t directory = .ok config ∧
        GenerationConfig.load t directory = .ok generation ∧
        (Model.load config t directory).result = .ok model ∧
        Tokenizer.load t directory = .ok tokenizer ∧
        p =
          { task := config.architecture.task, model, tokenizer
            stop := stopCondition config generation
            decoderStart := startToken config generation } := by
  show (makers.load t directory).result = .ok p ↔ _
  simp only [Makers.load, Logged.result_bind, Logged.result_lift, Logged.result_report,
    Logged.result_pure, bind_eq_ok, Except.ok.injEq]
  constructor
  · rintro ⟨config, configured, -, -, generation, generated, model, modelled, tokenizer, tokenized,
      -, -, rfl⟩
    exact ⟨config, generation, model, tokenizer, configured, generated, modelled, tokenized, rfl⟩
  · rintro ⟨config, generation, model, tokenizer, configured, generated, modelled, tokenized, rfl⟩
    exact ⟨config, configured, (), trivial, generation, generated, model, modelled, tokenizer,
      tokenized, (), trivial, rfl⟩

end Pipeline
end TextCompletion
