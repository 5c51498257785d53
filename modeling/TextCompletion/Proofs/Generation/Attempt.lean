import TextCompletion.Generation.TokenLoop

/-!
One round of the token loop. A round either ends the run before any call, or makes one call and
chooses one token from its logits; only the chosen token decides whether the run goes on. The five
equations below say what a round does and are all that later proofs know of the loop. The course of
a run says how its rounds follow one another, so that a statement on one run is an induction on it.
-/

namespace TextCompletion

namespace TokenRun

variable {σ : Type} (call : DecoderCall) (token : Nat) (r : TokenRun σ)

@[simp] theorem after_calls : (r.after call token).calls = call :: r.calls := rfl

@[simp] theorem after_accepted : (r.after call token).accepted = token :: r.accepted := rfl

@[simp] theorem after_ending : (r.after call token).ending = r.ending := rfl

@[simp] theorem after_decoder : (r.after call token).decoder = r.decoder := rfl

@[simp] theorem after_tokens : (r.after call token).tokens = r.tokens.map (token :: ·) := by
  simp only [tokens, after_ending, after_accepted]
  cases r.ending <;> rfl

theorem tokens_ok {r : TokenRun σ} {ys : List Nat} (h : r.tokens = .ok ys) : ys = r.accepted := by
  unfold tokens at h
  cases ending : r.ending with
  | ok _ =>
    rw [ending] at h
    exact (Except.ok.inj h).symm
  | error _ => simp [ending] at h

end TokenRun

namespace TokenLoop

variable {σ : Type} (d : Decoder σ) (config : SamplingConfig)

def attempt (count : Nat) (context pending : List Nat) (offset : Nat) (s : σ) :
    Except Failure Nat × σ :=
  match d.step s pending offset with
  | (.error f, s) => (.error (f.within (.forward offset)), s)
  | (.ok logits, s) =>
    match config.chooseToken count context logits with
    | .error f => (.error ⟨[.sampleToken], .draw f⟩, s)
    | .ok token => (.ok token, s)

variable {d config} {stop : StopCondition} {budget count offset token : Nat}
  {context pending : List Nat} {s s' : σ} {f : Failure}

@[simp] theorem resume_zero :
    resume d config stop 0 count context pending offset s =
      { ending := .ok .budgetUsed, decoder := s } := rfl

theorem resume_full (full : stop.isFull context.length = true) :
    resume d config stop (budget + 1) count context pending offset s =
      { ending := .ok .windowFull, decoder := s } := by
  rw [resume, if_pos full]

theorem resume_error (room : stop.isFull context.length = false)
    (failed : attempt d config count context pending offset s = (.error f, s')) :
    resume d config stop (budget + 1) count context pending offset s =
      { calls := [⟨pending, offset⟩], ending := .error f, decoder := s' } := by
  rw [resume, if_neg (by simp [room])]
  unfold attempt at failed
  rcases step : d.step s pending offset with ⟨answer | logits, s₁⟩
  · simp only [step, Prod.mk.injEq, Except.error.injEq] at failed ⊢
    simp [failed]
  · cases choice : config.chooseToken count context logits <;>
      simp only [step, choice, Prod.mk.injEq, Except.error.injEq, reduceCtorEq, false_and]
        at failed ⊢
    simp [failed]

theorem resume_ok (room : stop.isFull context.length = false)
    (chosen : attempt d config count context pending offset s = (.ok token, s')) :
    resume d config stop (budget + 1) count context pending offset s =
      if stop.endTokens.contains token then
        { calls := [⟨pending, offset⟩], ending := .ok (.endToken token), decoder := s' }
      else
        (resume d config stop budget (count + 1) (context ++ [token]) [token]
          (offset + pending.length) s').after ⟨pending, offset⟩ token := by
  rw [resume, if_neg (by simp [room])]
  unfold attempt at chosen
  rcases step : d.step s pending offset with ⟨answer | logits, s₁⟩
  · simp [step] at chosen
  · cases choice : config.chooseToken count context logits <;>
      simp only [step, choice, Prod.mk.injEq, Except.ok.injEq, reduceCtorEq, false_and]
        at chosen ⊢
    obtain ⟨rfl, rfl⟩ := chosen
    rfl

theorem resume_endToken (room : stop.isFull context.length = false)
    (chosen : attempt d config count context pending offset s = (.ok token, s'))
    (ends : token ∈ stop.endTokens) :
    resume d config stop (budget + 1) count context pending offset s =
      { calls := [⟨pending, offset⟩], ending := .ok (.endToken token), decoder := s' } := by
  rw [resume_ok room chosen, if_pos (by simpa using ends)]

theorem resume_accept (room : stop.isFull context.length = false)
    (chosen : attempt d config count context pending offset s = (.ok token, s'))
    (goesOn : token ∉ stop.endTokens) :
    resume d config stop (budget + 1) count context pending offset s =
      (resume d config stop budget (count + 1) (context ++ [token]) [token]
        (offset + pending.length) s').after ⟨pending, offset⟩ token := by
  rw [resume_ok room chosen, if_neg (by simpa using goesOn)]

theorem run_nil (stop : StopCondition) (s : σ) :
    run d config stop [] s = { ending := .error (.of .noTokens), decoder := s } := rfl

theorem run_of_ne_nil {prompt : List Nat} (start : prompt ≠ []) (stop : StopCondition) (s : σ) :
    run d config stop prompt s =
      resume d config stop config.maxNewTokens 0 prompt prompt 0 s := by
  cases prompt with
  | nil => exact absurd rfl start
  | cons first rest => rfl

theorem attempt_state :
    (attempt d config count context pending offset s).2 = (d.step s pending offset).2 := by
  unfold attempt
  rcases d.step s pending offset with ⟨answer | logits, s₁⟩
  · rfl
  · cases choice : config.chooseToken count context logits <;> simp [choice]

theorem state_of_attempt {result : Except Failure Nat}
    (round : attempt d config count context pending offset s = (result, s')) :
    s' = (d.step s pending offset).2 := by
  rw [← attempt_state, round]

variable (d config stop) in
/-- How a run goes on from a round: it ends there, or one token is accepted and it goes on from the
next round. -/
inductive Course : (budget count : Nat) → (context pending : List Nat) → (offset : Nat) → σ →
    TokenRun σ → Prop
  | budgetUsed {count offset : Nat} {context pending : List Nat} {s : σ} :
      Course 0 count context pending offset s { ending := .ok .budgetUsed, decoder := s }
  | windowFull {budget count offset : Nat} {context pending : List Nat} {s : σ}
      (full : stop.isFull context.length = true) :
      Course (budget + 1) count context pending offset s
        { ending := .ok .windowFull, decoder := s }
  | failed {budget count offset : Nat} {context pending : List Nat} {s s' : σ} {f : Failure}
      (room : stop.isFull context.length = false)
      (round : attempt d config count context pending offset s = (.error f, s')) :
      Course (budget + 1) count context pending offset s
        { calls := [⟨pending, offset⟩], ending := .error f, decoder := s' }
  | stopped {budget count offset token : Nat} {context pending : List Nat} {s s' : σ}
      (room : stop.isFull context.length = false)
      (round : attempt d config count context pending offset s = (.ok token, s'))
      (ends : token ∈ stop.endTokens) :
      Course (budget + 1) count context pending offset s
        { calls := [⟨pending, offset⟩], ending := .ok (.endToken token), decoder := s' }
  | accepted {budget count offset token : Nat} {context pending : List Nat} {s s' : σ}
      {r : TokenRun σ} (room : stop.isFull context.length = false)
      (round : attempt d config count context pending offset s = (.ok token, s'))
      (goesOn : token ∉ stop.endTokens)
      (rest : Course budget (count + 1) (context ++ [token]) [token] (offset + pending.length)
        s' r) :
      Course (budget + 1) count context pending offset s (r.after ⟨pending, offset⟩ token)

theorem resume_course :
    Course d config stop budget count context pending offset s
      (resume d config stop budget count context pending offset s) := by
  induction budget generalizing count context pending offset s with
  | zero => exact .budgetUsed
  | succ budget ih =>
    cases room : stop.isFull context.length with
    | true =>
      rw [resume_full room]
      exact .windowFull room
    | false =>
      rcases round : attempt d config count context pending offset s with ⟨f | token, s'⟩
      · rw [resume_error room round]
        exact .failed room round
      · by_cases ends : token ∈ stop.endTokens
        · rw [resume_endToken room round ends]
          exact .stopped room round ends
        · rw [resume_accept room round ends]
          exact .accepted room round ends ih

theorem Course.resume_eq {r : TokenRun σ}
    (h : Course d config stop budget count context pending offset s r) :
    resume d config stop budget count context pending offset s = r := by
  induction h with
  | budgetUsed => rfl
  | windowFull full => exact resume_full full
  | failed room round => exact resume_error room round
  | stopped room round ends => exact resume_endToken room round ends
  | accepted room round goesOn _ ih => rw [resume_accept room round goesOn, ih]

/-- Rounds, room and the set of end tokens settle the course of a run; contexts grow by one token
of the budget at a time, so longer ones are not asked about. -/
theorem Course.congr {config' : SamplingConfig} {stop' : StopCondition} {r : TokenRun σ}
    {limit : Nat} (h : Course d config stop budget count context pending offset s r)
    (rounds : ∀ count context pending offset s, context.length < limit →
      attempt d config' count context pending offset s =
        attempt d config count context pending offset s)
    (within : context.length + budget ≤ limit)
    (room : ∀ n, stop'.isFull n = stop.isFull n)
    (ends : ∀ token, token ∈ stop'.endTokens ↔ token ∈ stop.endTokens) :
    Course d config' stop' budget count context pending offset s r := by
  induction h with
  | budgetUsed => exact .budgetUsed
  | windowFull full => exact .windowFull ((room _).trans full)
  | failed left round =>
    exact .failed ((room _).trans left) ((rounds _ _ _ _ _ (by omega)).trans round)
  | stopped left round member =>
    exact .stopped ((room _).trans left) ((rounds _ _ _ _ _ (by omega)).trans round)
      ((ends _).2 member)
  | accepted left round goesOn _ ih =>
    refine .accepted ((room _).trans left) ((rounds _ _ _ _ _ (by omega)).trans round)
      (mt (ends _).1 goesOn) (ih ?_)
    rw [List.length_append, List.length_singleton]
    omega

theorem run_course {prompt : List Nat} (start : prompt ≠ []) :
    Course d config stop config.maxNewTokens 0 prompt prompt 0 s
      (run d config stop prompt s) := by
  rw [run_of_ne_nil start]
  exact resume_course

theorem attempt_congr {config' : SamplingConfig}
    (choices : ∀ logits, config'.chooseToken count context logits =
      config.chooseToken count context logits) :
    attempt d config' count context pending offset s =
      attempt d config count context pending offset s := by
  unfold attempt
  simp only [choices]

theorem run_congr {config' : SamplingConfig} {prompt : List Nat}
    (budgets : config'.maxNewTokens = config.maxNewTokens)
    (choices : ∀ count context logits, context.length < prompt.length + config.maxNewTokens →
      config'.chooseToken count context logits = config.chooseToken count context logits) :
    run d config' stop prompt s = run d config stop prompt s := by
  by_cases empty : prompt = []
  · rw [empty, run_nil, run_nil]
  · have course : Course d config' stop config.maxNewTokens 0 prompt prompt 0 s
      (run d config stop prompt s) :=
      (run_course empty).congr (fun _ _ _ _ _ short => attempt_congr fun _ => choices _ _ _ short)
        (Nat.le_refl _) (fun _ => rfl) fun _ => .rfl
    rw [run_of_ne_nil empty, budgets]
    exact course.resume_eq

/-! What every step of a decoder preserves holds after a run, however the run ends. -/

variable {P : σ → Prop}

theorem attempt_preserves {result : Except Failure Nat}
    (preserved : ∀ s tokens offset, P s → P (d.step s tokens offset).2) (holds : P s)
    (round : attempt d config count context pending offset s = (result, s')) : P s' := by
  rw [state_of_attempt round]
  exact preserved s pending offset holds

theorem Course.preserves {r : TokenRun σ}
    (preserved : ∀ s tokens offset, P s → P (d.step s tokens offset).2)
    (h : Course d config stop budget count context pending offset s r) (holds : P s) :
    P r.decoder := by
  induction h with
  | budgetUsed => exact holds
  | windowFull _ => exact holds
  | failed _ round => exact attempt_preserves preserved holds round
  | stopped _ round _ => exact attempt_preserves preserved holds round
  | accepted _ round _ _ ih => exact ih (attempt_preserves preserved holds round)

theorem run_preserves (preserved : ∀ s tokens offset, P s → P (d.step s tokens offset).2)
    (stop : StopCondition) (prompt : List Nat) (holds : P s) :
    P (run d config stop prompt s).decoder := by
  by_cases empty : prompt = []
  · simpa [empty, run_nil] using holds
  · exact (run_course empty).preserves preserved holds

end TokenLoop
end TextCompletion
