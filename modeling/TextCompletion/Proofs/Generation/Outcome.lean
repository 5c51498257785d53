import TextCompletion.Proofs.Generation.Trace

/-!
What becomes of each call of a run. A call comes to a token or to a failure: a token is drawn, and a
failure ends the run there. Main statement: a run from a prompt fails if and only if one of its
calls does, and the failure names the position up to which its decoder had been fed.
-/

namespace TextCompletion

namespace TokenRun

variable {σ : Type}

/-- The run goes on from its call number `k` as the outcome of that call asks for. -/
def Follows (r : TokenRun σ) (k : Nat) : Except Failure Nat → Prop
  | .ok token => r.drawn[k]? = some token
  | .error f => r.ending = .error f ∧ r.calls.length = k + 1

theorem follows_after {r : TokenRun σ} {k : Nat} {outcome : Except Failure Nat}
    (call : DecoderCall) (token : Nat) :
    (r.after call token).Follows (k + 1) outcome ↔ r.Follows k outcome := by
  cases outcome with
  | ok token' => simp [Follows]
  | error f => simp [Follows]

theorem returned_prefix {r : TokenRun σ} {tokens : List Nat} (returned : r.tokens = .ok tokens) :
    tokens <+: r.drawn := by
  rw [tokens_ok returned, drawn]
  exact List.prefix_append _ _

/-- The position that call number `k` of a run feeds first. -/
def firstPosition (prompt : List Nat) (k : Nat) : Nat :=
  if k = 0 then 0 else prompt.length + k - 1

theorem Traced.offset_eq {d : Decoder σ} {config : SamplingConfig} {stop : StopCondition}
    {prompt : List Nat} {s : σ} {r : TokenRun σ} {k : Nat} {call : DecoderCall}
    (h : r.Traced d config stop prompt s) (made : r.calls[k]? = some call) :
    call.offset = firstPosition prompt k := by
  cases k with
  | zero =>
    rw [h.first call made]
    rfl
  | succ j =>
    obtain ⟨token, -, rfl⟩ := h.later j call made
    rfl

/-- A run that a failure ended at its call number `k`, after tokens were chosen at all others. -/
structure FailedAt (d : Decoder σ) (config : SamplingConfig) (prompt : List Nat) (s : σ)
    (r : TokenRun σ) (k : Nat) (f : Failure) : Prop where
  returned : r.tokens = .error f
  last : r.calls.length = k + 1
  before : ∀ j < k, ∃ token, r.Chooses d config prompt s j token
  decoder : r.decoder = d.after s r.calls

/-- A run fails where one of its calls does, and there only. A call that is not answered names the
position up to which the decoder was fed before. -/
structure FailsByItsCalls (d : Decoder σ) (config : SamplingConfig) (prompt : List Nat) (s : σ)
    (r : TokenRun σ) : Prop where
  unanswered : ∀ k c, d.answer? s r.calls k = some (.error c) →
    r.FailedAt d config prompt s k (c.within (.forward (firstPosition prompt k))) ∧
      firstPosition prompt k = ((r.calls.take k).flatMap DecoderCall.tokens).length
  undrawn : ∀ k logits fault, d.answer? s r.calls k = some (.ok logits) →
    config.chooseToken k (prompt ++ r.accepted.take k) logits = .error fault →
      r.FailedAt d config prompt s k ⟨[.sampleToken], .draw fault⟩
  only : ∀ f, r.tokens = .error f → ∃ k,
    (∃ c, d.answer? s r.calls k = some (.error c) ∧
      f = c.within (.forward (firstPosition prompt k))) ∨
    ∃ logits fault, d.answer? s r.calls k = some (.ok logits) ∧
      config.chooseToken k (prompt ++ r.accepted.take k) logits = .error fault ∧
      f = ⟨[.sampleToken], .draw fault⟩

end TokenRun

namespace TokenLoop

variable {σ : Type} {d : Decoder σ} {config : SamplingConfig} {stop : StopCondition}
  {budget count offset k : Nat} {context pending prompt : List Nat} {s : σ} {r : TokenRun σ}
  {c : Failure} {logits : List Float32} {fault : DrawFault}

theorem attempt_of_error (answer : (d.step s pending offset).1 = .error c) :
    (attempt d config count context pending offset s).1 = .error (c.within (.forward offset)) := by
  unfold attempt
  rcases step : d.step s pending offset with ⟨result, s'⟩
  rw [step] at answer
  subst answer
  rfl

def chosen (choice : Except DrawFault Nat) : Except Failure Nat :=
  choice.mapError fun fault => ⟨[.sampleToken], .draw fault⟩

@[simp] theorem chosen_ok (token : Nat) : chosen (.ok token) = .ok token := rfl

@[simp] theorem chosen_error (fault : DrawFault) :
    chosen (.error fault) = .error ⟨[.sampleToken], .draw fault⟩ := rfl

theorem attempt_of_logits (answer : (d.step s pending offset).1 = .ok logits) :
    (attempt d config count context pending offset s).1 =
      chosen (config.chooseToken count context logits) := by
  unfold attempt
  rcases step : d.step s pending offset with ⟨result, s'⟩
  rw [step] at answer
  subst answer
  cases choice : config.chooseToken count context logits with
  | ok token => simp [choice]
  | error fault => simp [choice]

namespace Course

theorem follows (h : Course d config stop budget count context pending offset s r) :
    ∀ k call, r.calls[k]? = some call →
      r.Follows k (attempt d config (count + k) (context ++ r.accepted.take k) call.tokens
        call.offset (d.after s (r.calls.take k))).1 := by
  induction h with
  | budgetUsed => simp
  | windowFull _ => simp
  | failed _ round =>
    intro k call made
    cases k with
    | zero =>
      obtain rfl := Option.some.inj made
      simpa [round] using ⟨rfl, rfl⟩
    | succ k => simp at made
  | stopped _ round _ =>
    intro k call made
    cases k with
    | zero =>
      obtain rfl := Option.some.inj made
      simp [round, TokenRun.Follows, TokenRun.drawn]
    | succ k => simp at made
  | accepted _ round _ _ ih =>
    intro k call made
    cases k with
    | zero =>
      obtain rfl := Option.some.inj made
      simp [round, TokenRun.Follows]
    | succ k =>
      -- the rest of the run counts from the round after this one
      have rest := ih k call made
      rw [TokenRun.follows_after]
      rw [state_of_attempt round, List.append_assoc, List.singleton_append, Nat.add_assoc,
        Nat.add_comm 1 k] at rest
      exact rest

theorem follows_error (h : Course d config stop budget count context pending offset s r)
    {call : DecoderCall} (made : r.calls[k]? = some call)
    (answer : d.answer? s r.calls k = some (.error c)) :
    r.Follows k (.error (c.within (.forward call.offset))) := by
  rw [Decoder.answer?, made, Option.map_some, Option.some_inj] at answer
  have outcome := h.follows k call made
  rwa [attempt_of_error answer] at outcome

theorem follows_logits (h : Course d config stop budget count context pending offset s r)
    (answer : d.answer? s r.calls k = some (.ok logits)) :
    r.Follows k (chosen (config.chooseToken (count + k) (context ++ r.accepted.take k) logits)) := by
  obtain ⟨call, made, answer⟩ := Option.map_eq_some_iff.1 answer
  have outcome := h.follows k call made
  rwa [attempt_of_logits answer] at outcome

theorem last_of_error (h : Course d config stop budget count context pending offset s r)
    {f : Failure} (ending : r.ending = .error f) : r.calls.length = r.accepted.length + 1 := by
  induction h with
  | budgetUsed => cases ending
  | windowFull _ => cases ending
  | failed _ _ => rfl
  | stopped _ _ _ => cases ending
  | accepted _ _ _ _ ih => simpa using ih ending

theorem failedAt (h : Course d config stop budget 0 prompt prompt 0 s r) {f : Failure}
    (ended : r.Follows k (.error f)) : r.FailedAt d config prompt s k f := by
  obtain ⟨ending, last⟩ := ended
  have accepted := h.last_of_error ending
  have traced := h.traced
  refine ⟨by simp [TokenRun.tokens, ending], last, fun j earlier => ?_, traced.decoder⟩
  have inside : j < r.accepted.length := by omega
  exact ⟨r.accepted[j], traced.chosen j _ (List.getElem?_eq_getElem inside)⟩

theorem cause_of_error (h : Course d config stop budget 0 prompt prompt 0 s r) {f : Failure}
    (ending : r.ending = .error f) : ∃ k,
      (∃ c, d.answer? s r.calls k = some (.error c) ∧
        f = c.within (.forward (TokenRun.firstPosition prompt k))) ∨
      ∃ logits fault, d.answer? s r.calls k = some (.ok logits) ∧
        config.chooseToken k (prompt ++ r.accepted.take k) logits = .error fault ∧
        f = ⟨[.sampleToken], .draw fault⟩ := by
  have last := h.last_of_error ending
  have undrawn : r.drawn[r.accepted.length]? = none := by simp [TokenRun.drawn, ending]
  obtain ⟨call, made⟩ : ∃ call, r.calls[r.accepted.length]? = some call :=
    ⟨_, List.getElem?_eq_getElem (by omega)⟩
  refine ⟨r.accepted.length, ?_⟩
  cases answer : d.answer? s r.calls r.accepted.length with
  | none => simp [Decoder.answer?, made] at answer
  | some result =>
    cases result with
    | error c =>
      have ended := (h.follows_error made answer).1
      rw [ending, h.traced.offset_eq made] at ended
      exact .inl ⟨c, rfl, Except.error.inj ended⟩
    | ok logits =>
      have outcome := h.follows_logits answer
      rw [Nat.zero_add] at outcome
      cases choice : config.chooseToken r.accepted.length (prompt ++ r.accepted.take
          r.accepted.length) logits with
      | ok token =>
        rw [choice] at outcome
        cases undrawn.symm.trans outcome
      | error fault =>
        rw [choice] at outcome
        exact .inr ⟨logits, fault, rfl, choice, Except.error.inj (ending.symm.trans outcome.1)⟩

theorem failsByItsCalls (h : Course d config stop budget 0 prompt prompt 0 s r) :
    r.FailsByItsCalls d config prompt s := by
  refine ⟨fun k c answer => ?_, fun k logits fault answer choice => ?_, fun f failed => ?_⟩
  · obtain ⟨call, made, -⟩ := Option.map_eq_some_iff.1 answer
    have position := h.traced.offset_eq made
    have ended := h.follows_error made answer
    rw [position] at ended
    exact ⟨h.failedAt ended, position ▸ h.traced.offsets k call made⟩
  · have outcome := h.follows_logits answer
    rw [Nat.zero_add, choice] at outcome
    exact h.failedAt outcome
  · refine h.cause_of_error ?_
    cases ending : r.ending with
    | ok e => simp [TokenRun.tokens, ending] at failed
    | error g => simpa [TokenRun.tokens, ending] using failed

end Course

theorem run_chooses {i token : Nat} (drawn : (run d config stop prompt s).drawn[i]? = some token) :
    (run d config stop prompt s).Chooses d config prompt s i token := by
  by_cases start : prompt = []
  · rw [start, run_nil] at drawn
    cases drawn
  · simpa [TokenRun.Chooses] using (run_course start).choice_of_drawn i token drawn

/-- A run from a prompt fails if and only if one of its calls does: the call is its last, no token
is returned, and the failure of the decoder or of the draw is passed on under one step. -/
theorem run_failsByItsCalls (d : Decoder σ) (config : SamplingConfig) (stop : StopCondition)
    (start : prompt ≠ []) (s : σ) :
    (run d config stop prompt s).FailsByItsCalls d config prompt s ∧
      (∀ (c : Failure) (position : Nat), (c.within (.forward position)).lines =
        ("forward at position " ++ toString position) :: c.lines) ∧
      ∀ fault : DrawFault, (⟨[.sampleToken], .draw fault⟩ : Failure).lines =
        ["sample next token", fault.message] :=
  ⟨(run_course start).failsByItsCalls, fun _ _ => rfl, fun _ => rfl⟩

theorem run_failsByItsCalls_secondOfTwo :
    let config := { maxNewTokens := 5, temperature := 0, topP := 1 : Params }.effective
    let r := run (Decoder.recording secondOfTwo) config {} [0, 0] []
    (Decoder.recording secondOfTwo).answer? [] r.calls 2 = some (.error (.of .noTokens)) ∧
      r.tokens = .error ⟨[.forward 3], .noTokens⟩ ∧ r.calls.length = 3 ∧ r.accepted = [1, 1] := by
  have answer : (Decoder.recording secondOfTwo).answer? [] (run (Decoder.recording secondOfTwo)
      { maxNewTokens := 5, temperature := 0, topP := 1 : Params }.effective {} [0, 0] []).calls 2 =
        some (.error (.of .noTokens)) := by rfl
  have failed := ((run_failsByItsCalls (Decoder.recording secondOfTwo)
    { maxNewTokens := 5, temperature := 0, topP := 1 : Params }.effective {}
    (List.cons_ne_nil 0 [0]) []).1.unanswered 2 _ answer).1
  exact ⟨answer, failed.returned, failed.last, by rfl⟩

end TokenLoop
end TextCompletion
