import TextCompletion.Proofs.Generation.Attempt
import TextCompletion.Proofs.Pipeline.Loading

/-!
Generations one after another on the same pipeline. A causal model forgets at the start of a
generation what earlier ones left in it, provided that its flag tells truly whether anything was;
a model of the other architecture replaces what it kept, or fails before looking at it. Main
statement: what a loaded pipeline answers does not depend on the prompts it was given before.
-/

namespace TextCompletion

namespace CausalModel

/-- Only a state whose flag is set holds anything. -/
def State.Honest (s : State) : Prop := s.stepped = false → s.caches = []

theorem honest_empty : State.Honest {} := fun _ => rfl

theorem honest_reset {s : State} (honest : s.Honest) : (reset s).Honest := by
  unfold reset
  split
  · exact honest_empty
  · exact honest

theorem reset_of_honest {s : State} (honest : s.Honest) : reset s = {} := by
  obtain ⟨stepped, caches⟩ := s
  cases stepped with
  | true => rfl
  | false =>
    obtain rfl : caches = [] := honest rfl
    rfl

theorem honest_step (m : CausalModel) (s : State) (tokens : List Nat) (offset : Nat) :
    (m.decoder.step s tokens offset).2.Honest := by
  have flag : (m.step s tokens offset).2.stepped = true := by
    unfold step
    split <;> rfl
  intro unset
  rw [decoder] at unset
  simp [flag] at unset

end CausalModel

namespace Seq2SeqModel

variable (m : Seq2SeqModel) (s s' : State) (tokens : List Nat)

theorem encode_result : (m.encode s tokens).1 = (m.encode s' tokens).1 := by
  unfold encode EncoderDecoder.encode
  split
  · rfl
  · cases during .encodePrompt (m.coder.encoder tokens) <;> rfl

theorem encode_state (encoded : (m.encode s tokens).1 = .ok ()) :
    (m.encode s tokens).2 = (m.encode s' tokens).2 := by
  unfold encode EncoderDecoder.encode at encoded ⊢
  split
  · simp_all
  · cases rows : during .encodePrompt (m.coder.encoder tokens) with
    | error f => simp_all
    | ok rows => rfl

end Seq2SeqModel

namespace Model

def fresh : Model → Model
  | causal m _ => causal m {}
  | seq2Seq m _ => seq2Seq m {}

def Resettable : Model → Prop
  | causal _ s => s.Honest
  | seq2Seq _ _ => True

end Model

namespace Pipeline

def fresh (p : Pipeline) : Pipeline := { p with model := p.model.fresh }

def after (p : Pipeline) (history : List (String × SamplingConfig)) : Pipeline :=
  history.foldl (fun p request => (p.generateText request.1 request.2).2) p

variable {p : Pipeline}

theorem continueFrom_fresh (resettable : p.model.Resettable) (ids : List Nat)
    (config : SamplingConfig) :
    (p.fresh.continueFrom ids config).calls = (p.continueFrom ids config).calls ∧
      (p.fresh.continueFrom ids config).tokens = (p.continueFrom ids config).tokens := by
  obtain ⟨task, model, tokenizer, stop, start⟩ := p
  cases model with
  | causal m s =>
    have same : CausalModel.reset s = CausalModel.reset {} :=
      CausalModel.reset_of_honest resettable
    simp only [continueFrom, fresh, Model.fresh, same, and_self]
  | seq2Seq m s =>
    -- either both prompts fail before the state is looked at, or nothing of it is left
    have result := m.encode_result {} s ids
    have state := m.encode_state {} s ids
    simp only [continueFrom, fresh, Model.fresh]
    rcases old : m.encode s ids with ⟨failure | _, s₁⟩
    · rcases new : m.encode {} ids with ⟨failure' | _, s₂⟩
      · rw [old, new] at result
        simp [Except.error.inj result]
      · simp [old, new] at result
    · rcases new : m.encode {} ids with ⟨failure' | _, s₂⟩
      · simp [old, new] at result
      · rw [old, new] at state
        obtain rfl : s₂ = s₁ := state rfl
        simp

theorem model_continueFrom (resettable : p.model.Resettable) (ids : List Nat)
    (config : SamplingConfig) :
    (p.continueFrom ids config).model.Resettable ∧
      (p.continueFrom ids config).model.fresh = p.model.fresh := by
  obtain ⟨task, model, tokenizer, stop, start⟩ := p
  cases model with
  | causal m s =>
    -- every step leaves the flag set, so the state after a run is honest however it ended
    refine ⟨?_, rfl⟩
    exact TokenLoop.run_preserves (fun s tokens offset _ => m.honest_step s tokens offset) stop ids
      (CausalModel.honest_reset resettable)
  | seq2Seq m s =>
    simp only [continueFrom]
    rcases m.encode s ids with ⟨failure | _, s₁⟩
    · exact ⟨trivial, rfl⟩
    · exact ⟨trivial, rfl⟩

theorem generateText_fresh (resettable : p.model.Resettable) (prompt : String)
    (config : SamplingConfig) :
    (p.fresh.generateText prompt config).1 = (p.generateText prompt config).1 := by
  have tokenizer : p.fresh.tokenizer = p.tokenizer := rfl
  unfold generateText
  rw [tokenizer]
  cases during .tokenizePrompt (p.tokenizer.encode prompt true) with
  | error f => rfl
  | ok ids => simp only [(continueFrom_fresh resettable ids config).2]

theorem generateText_next (resettable : p.model.Resettable) (prompt : String)
    (config : SamplingConfig) :
    (p.generateText prompt config).2.model.Resettable ∧
      (p.generateText prompt config).2.fresh = p.fresh := by
  unfold generateText
  cases during .tokenizePrompt (p.tokenizer.encode prompt true) with
  | error f => exact ⟨resettable, rfl⟩
  | ok ids =>
    obtain ⟨resettable', same⟩ := model_continueFrom resettable ids config
    refine ⟨resettable', ?_⟩
    simp only [fresh, same]

theorem after_next (resettable : p.model.Resettable) (history : List (String × SamplingConfig)) :
    (p.after history).model.Resettable ∧ (p.after history).fresh = p.fresh := by
  induction history generalizing p with
  | nil => exact ⟨resettable, rfl⟩
  | cons request history ih =>
    obtain ⟨resettable', same⟩ := generateText_next resettable request.1 request.2
    obtain ⟨resettable'', same'⟩ := ih resettable'
    exact ⟨resettable'', same'.trans same⟩

theorem resettable_of_load {t : FileTree} {directory : String}
    (loaded : (load t directory).result = .ok p) : p.model.Resettable := by
  obtain ⟨config, generation, model, tokenizer, -, -, modelled, -, rfl⟩ := load_eq_ok.1 loaded
  obtain ⟨family, files, store, -, -, -, made⟩ := Model.load_eq_ok.1 modelled
  cases family with
  | causal f =>
    obtain ⟨h, m, -, -, rfl⟩ := Model.ofFamily_causal.1 made
    exact CausalModel.honest_empty
  | seq2Seq f =>
    obtain ⟨h, m, -, -, rfl⟩ := Model.ofFamily_seq2Seq.1 made
    exact trivial

/-- What the pipeline in a directory answers to a prompt after it was given others. -/
def answerAfter (t : FileTree) (directory : String) (history : List (String × SamplingConfig))
    (prompt : String) (config : SamplingConfig) : Except Failure (Logged String) := do
  let p ← (load t directory).result
  pure ((p.after history).generateText prompt config).1

/-- A generation does not depend on the ones before, whether they failed or not. -/
theorem answerAfter_eq_fresh (t : FileTree) (directory : String)
    (history : List (String × SamplingConfig)) (prompt : String) (config : SamplingConfig) :
    answerAfter t directory history prompt config = answerAfter t directory [] prompt config := by
  unfold answerAfter
  cases loaded : (load t directory).result with
  | error f => rfl
  | ok p =>
    obtain ⟨resettable, same⟩ := after_next (resettable_of_load loaded) history
    have answer : ((p.after history).generateText prompt config).1 =
        (p.generateText prompt config).1 := by
      rw [← generateText_fresh resettable, same, generateText_fresh (resettable_of_load loaded)]
    exact congrArg Except.ok answer

end Pipeline
end TextCompletion
