import TextCompletion.Proofs.Generation.Trace
import TextCompletion.Proofs.Generation.Truncation
import TextCompletion.Proofs.Generation.Window

/-!
Where a run ends. Three things end it without a failure, and they are looked at in a fixed order:
the budget is used up, no position is left, the token drawn is an end token. Main statement: what a
successful run returned says which of them it was, and no run calls its decoder more often than the
budget and the positions allow.
-/

namespace TextCompletion

namespace StopCondition

theorem room_le_budget (s : StopCondition) (budget length : Nat) :
    s.room budget length ≤ budget := by
  unfold room
  split
  · exact Nat.le_refl _
  · exact Nat.min_le_left _ _

theorem room_of_limit {s : StopCondition} {limit : Nat} (limited : s.contextLimit = some limit)
    (budget length : Nat) : s.room budget length = min budget (limit - length) := by
  simp only [room, limited]

theorem isFull_eq_true_iff {s : StopCondition} {n : Nat} :
    s.isFull n = true ↔ ∃ limit, s.contextLimit = some limit ∧ limit ≤ n := by
  unfold isFull
  cases s.contextLimit <;> simp

theorem isFull_eq_false_iff {s : StopCondition} {n : Nat} :
    s.isFull n = false ↔ ∀ limit, s.contextLimit = some limit → n < limit := by
  unfold isFull
  cases s.contextLimit <;> simp

end StopCondition

namespace TokenRun

variable {σ : Type}

/-- Why a run ends after so many tokens: the first of three reasons that holds. -/
inductive EndsFor (d : Decoder σ) (config : SamplingConfig) (stop : StopCondition)
    (prompt : List Nat) (s : σ) (r : TokenRun σ) (count : Nat) : Ending → Prop
  | budgetUsed (used : count = config.maxNewTokens) :
      EndsFor d config stop prompt s r count .budgetUsed
  | windowFull {limit : Nat} (left : count ≠ config.maxNewTokens)
      (limited : stop.contextLimit = some limit) (full : limit ≤ prompt.length + count) :
      EndsFor d config stop prompt s r count .windowFull
  | endToken {token : Nat} (left : count ≠ config.maxNewTokens)
      (room : ∀ limit, stop.contextLimit = some limit → prompt.length + count < limit)
      (drawn : r.Chooses d config prompt s count token) (ends : token ∈ stop.endTokens) :
      EndsFor d config stop prompt s r count (.endToken token)

def warnings (stop : StopCondition) (r : TokenRun σ) : List LogEvent :=
  (r.events stop).filter fun e => e.severity = .warn

/-- What is known of a run that returned some tokens. -/
structure Concludes (d : Decoder σ) (config : SamplingConfig) (stop : StopCondition)
    (prompt : List Nat) (s : σ) (tokens : List Nat) (r : TokenRun σ) : Prop where
  withinBudget : tokens.length ≤ config.maxNewTokens
  withoutEnd : ∀ token ∈ tokens, token ∉ stop.endTokens
  withinWindow : ∀ limit, stop.contextLimit = some limit →
    tokens.length ≤ limit - prompt.length ∧ r.FeedsBelow limit
  reason : ∃ e, r.EndsFor d config stop prompt s tokens.length e ∧
    (∀ e', r.EndsFor d config stop prompt s tokens.length e' → e' = e) ∧
      r.warnings stop =
        if e = .windowFull then [.windowFull stop.contextLimit tokens.length] else []

variable {d : Decoder σ} {config : SamplingConfig} {stop : StopCondition} {prompt : List Nat}
  {s : σ} {r : TokenRun σ} {count : Nat} {e e' : Ending}

theorem Chooses.unique {i token token' : Nat} (chosen : r.Chooses d config prompt s i token)
    (chosen' : r.Chooses d config prompt s i token') : token = token' := by
  obtain ⟨logits, answer, choice⟩ := chosen
  obtain ⟨logits', answer', choice'⟩ := chosen'
  have same : logits = logits' := by simpa using answer.symm.trans answer'
  subst same
  exact Except.ok.inj (choice.symm.trans choice')

theorem EndsFor.unique (h : r.EndsFor d config stop prompt s count e)
    (h' : r.EndsFor d config stop prompt s count e') : e = e' := by
  cases h with
  | budgetUsed used =>
    cases h' with
    | budgetUsed _ => rfl
    | windowFull left _ _ => exact absurd used left
    | endToken left _ _ _ => exact absurd used left
  | windowFull left limited full =>
    cases h' with
    | budgetUsed used => exact absurd used left
    | windowFull _ _ _ => rfl
    | endToken _ room _ _ => exact absurd (room _ limited) (Nat.not_lt.2 full)
  | endToken left room drawn _ =>
    cases h' with
    | budgetUsed used => exact absurd used left
    | windowFull _ limited full => exact absurd (room _ limited) (Nat.not_lt.2 full)
    | endToken _ _ drawn' _ => rw [drawn.unique drawn']

theorem ending_of_tokens_ok {tokens : List Nat} (returned : r.tokens = .ok tokens) :
    ∃ e, r.ending = .ok e := by
  unfold TokenRun.tokens at returned
  cases ending : r.ending with
  | ok e => exact ⟨e, rfl⟩
  | error f => simp [ending] at returned

theorem warnings_of_ending (ending : r.ending = .ok e) :
    r.warnings stop =
      if e = .windowFull then [.windowFull stop.contextLimit r.accepted.length] else [] := by
  unfold warnings events
  cases e <;> simp [ending, LogEvent.severity]

end TokenRun

namespace TokenLoop

variable {σ : Type} {d : Decoder σ} {config : SamplingConfig} {stop : StopCondition}
  {budget count offset : Nat} {context pending prompt : List Nat} {s : σ} {r : TokenRun σ}

namespace Course

theorem accepted_free (h : Course d config stop budget count context pending offset s r) :
    ∀ token ∈ r.accepted, token ∉ stop.endTokens := by
  induction h with
  | budgetUsed => simp
  | windowFull _ => simp
  | failed _ _ => simp
  | stopped _ _ _ => simp
  | accepted _ _ goesOn _ ih => simpa [goesOn] using ih

theorem calls_le (h : Course d config stop budget count context pending offset s r) :
    r.calls.length ≤ stop.room budget context.length := by
  induction h with
  | budgetUsed => simp
  | windowFull _ => simp
  | failed room _ =>
    rw [StopCondition.room_succ room]
    simp
  | stopped room _ _ =>
    rw [StopCondition.room_succ room]
    simp
  | accepted room _ _ _ ih =>
    rw [StopCondition.room_succ room]
    simpa using ih

theorem budgetUsed_iff (h : Course d config stop budget count context pending offset s r) :
    r.ending = .ok .budgetUsed ↔ r.accepted.length = budget := by
  induction h with
  | budgetUsed => simp
  | windowFull _ => simp
  | failed _ _ => simp
  | stopped _ _ _ => simp
  | accepted _ _ _ _ ih => simpa using ih

theorem isFull_of_ending (h : Course d config stop budget count context pending offset s r) :
    (r.ending = .ok .windowFull → stop.isFull (context.length + r.accepted.length) = true) ∧
      ∀ token, r.ending = .ok (.endToken token) →
        stop.isFull (context.length + r.accepted.length) = false := by
  induction h with
  | budgetUsed => simp
  | windowFull full => simpa using full
  | failed _ _ => simp
  | stopped room _ _ => simpa using room
  | accepted _ _ _ _ ih =>
    simpa [Nat.add_assoc, Nat.add_comm 1] using ih

theorem endsFor (h : Course d config stop config.maxNewTokens 0 prompt prompt 0 s r) {e : Ending}
    (ending : r.ending = .ok e) : r.EndsFor d config stop prompt s r.accepted.length e := by
  have left (other : e ≠ .budgetUsed) : r.accepted.length ≠ config.maxNewTokens := by
    rw [ne_eq, ← h.budgetUsed_iff, ending]
    simpa using other
  cases e with
  | budgetUsed => exact .budgetUsed (h.budgetUsed_iff.1 ending)
  | windowFull =>
    obtain ⟨limit, limited, full⟩ :=
      StopCondition.isFull_eq_true_iff.1 (h.isFull_of_ending.1 ending)
    exact .windowFull (left (by simp)) limited full
  | endToken token =>
    obtain ⟨ends, drawn⟩ := h.traced.stopped token ending
    have room := StopCondition.isFull_eq_false_iff.1 (h.isFull_of_ending.2 token ending)
    exact .endToken (left (by simp)) room drawn ends

end Course

theorem calls_le_room (d : Decoder σ) (config : SamplingConfig) (stop : StopCondition)
    (prompt : List Nat) (s : σ) :
    (run d config stop prompt s).calls.length ≤ stop.room config.maxNewTokens prompt.length := by
  by_cases empty : prompt = []
  · simp [empty, run_nil]
  · exact (run_course empty).calls_le

/-- What a successful run returned stays inside the budget, the positions and the tokens that may be
returned, and it ended for one reason only, of which the log warns if it is the want of a position.
Every run, successful or not, calls its decoder at most as often as budget and positions allow. -/
theorem run_concludes (d : Decoder σ) (config : SamplingConfig) (stop : StopCondition)
    (start : prompt ≠ []) (s : σ) :
    (∀ tokens, (run d config stop prompt s).tokens = .ok tokens →
      (run d config stop prompt s).Concludes d config stop prompt s tokens) ∧
    (run d config stop prompt s).calls.length ≤ config.maxNewTokens ∧
    ∀ limit, stop.contextLimit = some limit →
      (run d config stop prompt s).calls.length ≤
        min config.maxNewTokens (limit - prompt.length) := by
  have course : Course d config stop config.maxNewTokens 0 prompt prompt 0 s
    (run d config stop prompt s) := run_course start
  have calls := calls_le_room d config stop prompt s
  have room : stop.room config.maxNewTokens prompt.length ≤ config.maxNewTokens :=
    StopCondition.room_le_budget stop _ _
  have window (limit : Nat) (limited : stop.contextLimit = some limit) :
      stop.room config.maxNewTokens prompt.length =
        min config.maxNewTokens (limit - prompt.length) :=
    StopCondition.room_of_limit limited _ _
  refine ⟨fun tokens returned => ?_, calls.trans room, fun limit limited => ?_⟩
  · obtain rfl := TokenRun.tokens_ok returned
    obtain ⟨e, ending⟩ := TokenRun.ending_of_tokens_ok returned
    have fewer : (run d config stop prompt s).accepted.length ≤
        stop.room config.maxNewTokens prompt.length :=
      (Nat.le.intro course.traced.count.symm).trans calls
    have reason := course.endsFor ending
    refine ⟨fewer.trans room, course.accepted_free, fun limit limited => ⟨?_, ?_⟩, e, reason, ?_,
      ?_⟩
    · rw [window limit limited] at fewer
      exact fewer.trans (Nat.min_le_right _ _)
    · exact (run_keepsToTable limited start).feeds
    · exact fun e' other => other.unique reason
    · exact TokenRun.warnings_of_ending ending
  · rw [← window limit limited]
    exact calls

/-- Five tokens asked for, and room for two. -/
theorem run_concludes_secondOfTwo :
    let config := { maxNewTokens := 5, temperature := 0, topP := 1 : Params }.effective
    let stop : StopCondition := { contextLimit := some 4 }
    let r := run (Decoder.recording secondOfTwo) config stop [0, 0] []
    r.tokens = .ok [1, 1] ∧
      r.Concludes (Decoder.recording secondOfTwo) config stop [0, 0] [] [1, 1] ∧
        r.calls.length ≤ 2 := by
  have returned : (run (Decoder.recording secondOfTwo)
      { maxNewTokens := 5, temperature := 0, topP := 1 : Params }.effective
      { contextLimit := some 4 } [0, 0] []).tokens = .ok [1, 1] := by rfl
  obtain ⟨concludes, -, calls⟩ := run_concludes (Decoder.recording secondOfTwo)
    { maxNewTokens := 5, temperature := 0, topP := 1 : Params }.effective
    { contextLimit := some 4 } (List.cons_ne_nil 0 [0]) []
  exact ⟨returned, concludes _ returned, (calls 4 rfl).trans (Nat.min_le_right _ _)⟩

end TokenLoop
end TextCompletion
