import TextCompletion.Proofs.Generation.Outcome

/-!
Which logits a token is chosen from. The tokens of a window are gone through one by one, and the
loop that skips those seen before changes the logit of every token of the window once. Main
statement: at each call of a run the window holds the last tokens of the prompt and of what was
accepted by then. It leaves the run alone when it is empty, and is as good as any other when it
holds all tokens that a run can have.
-/

namespace TextCompletion

def Penalises (penalty : Float32) (tokens : List Nat) (logits adjusted : List Float32) : Prop :=
  ∀ i, adjusted[i]? = logits[i]?.map fun logit =>
    if i ∈ tokens then
      if 0 ≤ logit then logit / penalty else logit * penalty
    else logit

theorem getElem?_penaliseEach (penalty : Float32) (seen tokens : List Nat) (logits : List Float32)
    (i : Nat) :
    (penaliseEach penalty seen tokens logits)[i]? =
      logits[i]?.map fun logit =>
        if i ∈ tokens ∧ i ∉ seen then penalised penalty logit else logit := by
  induction tokens generalizing seen logits with
  | nil => simp [penaliseEach]
  | cons token rest ih =>
    rw [penaliseEach]
    by_cases known : token ∈ seen
    · have same : (i ∈ token :: rest ∧ i ∉ seen) ↔ (i ∈ rest ∧ i ∉ seen) := by
        by_cases here : i = token <;> simp [here, known]
      rw [if_pos (List.contains_iff_mem.2 known), ih]
      simp only [same]
    · rw [if_neg (mt List.contains_iff_mem.1 known), ih, List.getElem?_modify]
      -- the token is seen from here on, so that the rest leaves its logit alone
      by_cases here : token = i
      · subst here
        simp [known, Function.comp_def]
      · simp [here, Ne.symm here]

theorem penalises_penaliseEach (penalty : Float32) (tokens : List Nat) (logits : List Float32) :
    Penalises penalty tokens logits (penaliseEach penalty [] tokens logits) := by
  intro i
  rw [getElem?_penaliseEach]
  simp only [List.not_mem_nil, not_false_eq_true, and_true]
  rfl

namespace SamplingConfig

variable {c : SamplingConfig} {context : List Nat}

theorem window_append (c : SamplingConfig) (context : List Nat) :
    context.take (context.length - c.repeatLastN) ++ c.window context = context :=
  List.take_append_drop _ _

theorem length_window (c : SamplingConfig) (context : List Nat) :
    (c.window context).length = min c.repeatLastN context.length := by
  rw [window, List.length_drop]
  omega

theorem window_of_zero (none : c.repeatLastN = 0) : c.window context = [] := by
  rw [← List.length_eq_zero_iff, length_window, none, Nat.zero_min]

theorem window_of_length_le (whole : context.length ≤ c.repeatLastN) :
    c.window context = context := by
  rw [window, Nat.sub_eq_zero_of_le whole, List.drop_zero]

def withPenalty (c : SamplingConfig) (penalty : Float32) : SamplingConfig :=
  { c with repetitionPenalty := penalty }

def withWindow (c : SamplingConfig) (length : Nat) : SamplingConfig :=
  { c with repeatLastN := length }

theorem adjust_of_zero (none : c.repeatLastN = 0) (logits : List Float32) :
    c.adjust context logits = logits := by
  rw [adjust, window_of_zero none]
  split <;> rfl

theorem adjust_withPenalty_one (logits : List Float32) :
    (c.withPenalty 1).adjust context logits = logits := by
  have off : ((1 : Float32) == 1) = true := by decide
  exact if_pos off

theorem adjust_congr {c' : SamplingConfig} (penalties : c'.repetitionPenalty = c.repetitionPenalty)
    (windows : c'.window context = c.window context) (logits : List Float32) :
    c'.adjust context logits = c.adjust context logits := by
  rw [adjust, adjust, penalties, windows]

end SamplingConfig

namespace TokenRun

variable {σ : Type}

/-- The run draws at its call number `k` from logits that are penalised for the last tokens before
that call, so many or all there are. -/
def DrawsPenalised (config : SamplingConfig) (prompt : List Nat) (r : TokenRun σ) (k : Nat)
    (logits : List Float32) : Prop :=
  ∃ older window adjusted, prompt ++ r.accepted.take k = older ++ window ∧
    window.length = min config.repeatLastN (prompt.length + k) ∧
    Penalises config.repetitionPenalty window logits adjusted ∧
    r.Follows k
      (TokenLoop.chosen (config.sampling.choose (Random.word config.seed k) adjusted))

end TokenRun

namespace TokenLoop

variable {σ : Type} {d : Decoder σ} {config : SamplingConfig} {stop : StopCondition}
  {prompt : List Nat} {s : σ} {r : TokenRun σ}

theorem Course.drawsPenalised
    (h : Course d config stop config.maxNewTokens 0 prompt prompt 0 s r)
    (penalty : (config.repetitionPenalty == 1) = false) {k : Nat} {logits : List Float32}
    (answer : d.answer? s r.calls k = some (.ok logits)) :
    r.DrawsPenalised config prompt k logits := by
  obtain ⟨call, made, -⟩ := Option.map_eq_some_iff.1 answer
  have inside : k < r.calls.length := (List.getElem?_eq_some_iff.1 made).1
  have idle := idleCalls_le r
  have count := h.traced.count
  have length : (prompt ++ r.accepted.take k).length = prompt.length + k := by
    rw [List.length_append, List.length_take, Nat.min_eq_left (by omega)]
  have outcome := h.follows_logits answer
  rw [Nat.zero_add] at outcome
  refine ⟨_, config.window (prompt ++ r.accepted.take k), _, (config.window_append _).symm, ?_, ?_,
    outcome⟩
  · rw [SamplingConfig.length_window, length]
  · rw [SamplingConfig.adjust, penalty]
    exact penalises_penaliseEach _ _ _

/-- Every answer that a run draws from is penalised for the window of its round. A window of no
length is as good as no penalty, and all windows that hold every token of the run are alike. -/
theorem run_drawsPenalised (d : Decoder σ) (config : SamplingConfig) (stop : StopCondition)
    (prompt : List Nat) (s : σ) :
    ((config.repetitionPenalty == 1) = false → ∀ k logits,
      d.answer? s (run d config stop prompt s).calls k = some (.ok logits) →
        (run d config stop prompt s).DrawsPenalised config prompt k logits) ∧
    run d (config.withWindow 0) stop prompt s = run d (config.withPenalty 1) stop prompt s ∧
    ∀ length length', prompt.length + config.maxNewTokens ≤ length →
      prompt.length + config.maxNewTokens ≤ length' →
        run d (config.withWindow length) stop prompt s =
          run d (config.withWindow length') stop prompt s := by
  refine ⟨fun penalty k logits answer => ?_, ?_, fun length length' long long' => ?_⟩
  · by_cases start : prompt = []
    · rw [start, run_nil] at answer
      simp [Decoder.answer?] at answer
    · exact (run_course start).drawsPenalised penalty answer
  · refine run_congr rfl fun count context logits _ => ?_
    have left : (config.withWindow 0).adjust context logits = logits :=
      SamplingConfig.adjust_of_zero rfl logits
    have right : (config.withPenalty 1).adjust context logits = logits :=
      SamplingConfig.adjust_withPenalty_one logits
    rw [SamplingConfig.chooseToken, SamplingConfig.chooseToken, left, right]
    rfl
  · refine run_congr rfl fun count context logits short => ?_
    have whole : (config.withWindow length).window context = context :=
      SamplingConfig.window_of_length_le (Nat.le_of_lt (Nat.lt_of_lt_of_le short long))
    have whole' : (config.withWindow length').window context = context :=
      SamplingConfig.window_of_length_le (Nat.le_of_lt (Nat.lt_of_lt_of_le short long'))
    have same : (config.withWindow length).adjust context logits =
        (config.withWindow length').adjust context logits := by
      apply SamplingConfig.adjust_congr
      · rfl
      · rw [whole, whole']
    rw [SamplingConfig.chooseToken, SamplingConfig.chooseToken, same]
    rfl

def secondOfThree : ContextModel := fun _ => .ok [0, 2, 1.5]

/-- The second token is drawn from the logits with that of the first one halved. The window holds
the token of the prompt, too. -/
theorem run_drawsPenalised_secondOfThree :
    let config := ({ maxNewTokens := 2, temperature := 0, repetitionPenalty := 2 } :
      Params).effective
    let r := run (Decoder.recording secondOfThree) config {} [0] []
    r.accepted = [1, 2] ∧ r.DrawsPenalised config [0] 1 [0, 2, 1.5] ∧
      (run (Decoder.recording secondOfThree) (config.withWindow 3) {} [0] []).accepted = [1, 2] := by
  have answer : (Decoder.recording secondOfThree).answer? [] (run (Decoder.recording secondOfThree)
      ({ maxNewTokens := 2, temperature := 0, repetitionPenalty := 2 } : Params).effective {} [0]
        []).calls 1 = some (.ok [0, 2, 1.5]) := by rfl
  obtain ⟨draws, -, alike⟩ := run_drawsPenalised (Decoder.recording secondOfThree)
    ({ maxNewTokens := 2, temperature := 0, repetitionPenalty := 2 } : Params).effective {} [0] []
  have wide := alike 3 64 (by decide) (by decide)
  refine ⟨by rfl, draws (by decide +kernel) 1 _ answer, ?_⟩
  exact (congrArg TokenRun.accepted wide).trans (by rfl)

end TokenLoop
end TextCompletion
