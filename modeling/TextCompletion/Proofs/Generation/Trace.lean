import TextCompletion.Proofs.Generation.Recomputation

/-!
What a run feeds its decoder. Main statement: the prompt is fed first and then each accepted token
by itself, at the position that follows what was fed before, and each accepted token is the one
chosen from the logits of the call before it.
-/

namespace TextCompletion

namespace Decoder

variable {σ : Type} (d : Decoder σ)

/-- The state after some calls, the first of them first, whatever they answered. -/
def after (s : σ) (calls : List DecoderCall) : σ :=
  calls.foldl (fun s call => (d.step s call.tokens call.offset).2) s

@[simp] theorem after_nil (s : σ) : d.after s [] = s := rfl

@[simp] theorem after_cons (s : σ) (call : DecoderCall) (calls : List DecoderCall) :
    d.after s (call :: calls) = d.after (d.step s call.tokens call.offset).2 calls := rfl

theorem after_append (s : σ) (calls more : List DecoderCall) :
    d.after s (calls ++ more) = d.after (d.after s calls) more :=
  List.foldl_append

def answer? (s : σ) (calls : List DecoderCall) (i : Nat) :
    Option (Except Failure (List Float32)) :=
  calls[i]?.map fun call => (d.step (d.after s (calls.take i)) call.tokens call.offset).1

@[simp] theorem answer?_zero (s : σ) (call : DecoderCall) (calls : List DecoderCall) :
    d.answer? s (call :: calls) 0 = some (d.step s call.tokens call.offset).1 := rfl

@[simp] theorem answer?_succ (s : σ) (call : DecoderCall) (calls : List DecoderCall) (i : Nat) :
    d.answer? s (call :: calls) (i + 1) =
      d.answer? (d.step s call.tokens call.offset).2 calls i := rfl

end Decoder

namespace TokenLoop

variable {σ : Type} {d : Decoder σ} {config : SamplingConfig} {stop : StopCondition}
  {budget count offset token : Nat} {context pending prompt : List Nat} {s s' : σ}
  {r : TokenRun σ}

theorem attempt_eq_ok :
    attempt d config count context pending offset s = (.ok token, s') ↔
      ∃ logits, d.step s pending offset = (.ok logits, s') ∧
        config.chooseToken count context logits = .ok token := by
  unfold attempt
  rcases d.step s pending offset with ⟨answer | logits, s₁⟩
  · simp
  · cases choice : config.chooseToken count context logits with
    | error f => simp +contextual [choice]
    | ok chosen =>
      simp only [choice, Prod.mk.injEq, Except.ok.injEq]
      constructor
      · rintro ⟨rfl, rfl⟩
        exact ⟨logits, ⟨rfl, rfl⟩, choice⟩
      · rintro ⟨_, ⟨rfl, rfl⟩, choice'⟩
        exact ⟨Except.ok.inj (choice.symm.trans choice'), rfl⟩

theorem choice_of_attempt
    (round : attempt d config count context pending offset s = (.ok token, s')) :
    ∃ logits, (d.step s pending offset).1 = .ok logits ∧
      config.chooseToken count context logits = .ok token := by
  obtain ⟨logits, step, choice⟩ := attempt_eq_ok.1 round
  exact ⟨logits, by rw [step], choice⟩

/-! Feeding what is pending, and then tokens one by one. -/

/-- The calls that feed some tokens at once and further ones each by itself. -/
def trail (pending : List Nat) (offset : Nat) : List Nat → List DecoderCall
  | [] => [⟨pending, offset⟩]
  | token :: rest => ⟨pending, offset⟩ :: trail [token] (offset + pending.length) rest

theorem trail_zero (tokens : List Nat) :
    (trail pending offset tokens)[0]? = some ⟨pending, offset⟩ := by
  cases tokens <;> rfl

theorem trail_succ (tokens : List Nat) (j : Nat) :
    (trail pending offset tokens)[j + 1]? =
      tokens[j]?.map fun token => ⟨[token], offset + pending.length + j⟩ := by
  induction tokens generalizing pending offset j with
  | nil => simp [trail]
  | cons token rest ih =>
    rw [trail, List.getElem?_cons_succ]
    cases j with
    | zero => simp [trail_zero]
    | succ j =>
      rw [ih, List.getElem?_cons_succ]
      simp only [List.length_singleton, Nat.add_assoc, Nat.add_comm 1 j]

@[simp] theorem length_trail (tokens : List Nat) :
    (trail pending offset tokens).length = tokens.length + 1 := by
  induction tokens generalizing pending offset with
  | nil => rfl
  | cons token rest ih => simp [trail, ih]

theorem flatMap_trail (tokens : List Nat) :
    (trail pending offset tokens).flatMap DecoderCall.tokens = pending ++ tokens := by
  induction tokens generalizing pending offset with
  | nil => simp [trail]
  | cons token rest ih => simp [trail, ih]

theorem offset_of_trail {tokens : List Nat} {i : Nat} {call : DecoderCall}
    (made : (trail pending offset tokens)[i]? = some call) :
    call.offset =
      offset + (((trail pending offset tokens).take i).flatMap DecoderCall.tokens).length := by
  induction tokens generalizing pending offset i with
  | nil =>
    cases i with
    | zero =>
      obtain rfl : (⟨pending, offset⟩ : DecoderCall) = call := by simpa [trail] using made
      rfl
    | succ i => simp [trail] at made
  | cons token rest ih =>
    cases i with
    | zero =>
      obtain rfl : (⟨pending, offset⟩ : DecoderCall) = call := by simpa [trail] using made
      rfl
    | succ i =>
      rw [trail, List.getElem?_cons_succ] at made
      rw [ih made, trail, List.take_succ_cons, List.flatMap_cons, List.length_append, Nat.add_assoc]

end TokenLoop

namespace TokenRun

variable {σ : Type}

/-- The calls that a run made without accepting a token: one for an end token or a failure. -/
def idleCalls (r : TokenRun σ) : Nat :=
  match r.ending with
  | .ok .budgetUsed | .ok .windowFull => 0
  | .ok (.endToken _) | .error _ => 1

@[simp] theorem idleCalls_after (r : TokenRun σ) (call : DecoderCall) (token : Nat) :
    (r.after call token).idleCalls = r.idleCalls := rfl

def drawn (r : TokenRun σ) : List Nat :=
  r.accepted ++
    match r.ending with
    | .ok (.endToken token) => [token]
    | .ok .budgetUsed | .ok .windowFull | .error _ => []

@[simp] theorem drawn_after (r : TokenRun σ) (call : DecoderCall) (token : Nat) :
    (r.after call token).drawn = token :: r.drawn := rfl

variable {r : TokenRun σ} {token : Nat}

theorem drawn_of_accepted {i : Nat} (accepted : r.accepted[i]? = some token) :
    r.drawn[i]? = some token := by
  rw [drawn, List.getElem?_append_left (List.getElem?_eq_some_iff.1 accepted).1, accepted]

theorem drawn_of_endToken (ending : r.ending = .ok (.endToken token)) :
    r.drawn[r.accepted.length]? = some token := by
  simp [drawn, ending]

/-- The token is the choice made from the logits of the `i`th call of the run, as the `i`th choice
and after the prompt and the first `i` accepted tokens. -/
def Chooses (d : Decoder σ) (config : SamplingConfig) (prompt : List Nat) (s : σ) (r : TokenRun σ)
    (i token : Nat) : Prop :=
  ∃ logits, d.answer? s r.calls i = some (.ok logits) ∧
    config.chooseToken i (prompt ++ r.accepted.take i) logits = .ok token

/-- How a run from a prompt and a state uses its decoder. -/
structure Traced (d : Decoder σ) (config : SamplingConfig) (stop : StopCondition)
    (prompt : List Nat) (s : σ) (r : TokenRun σ) : Prop where
  first : ∀ call, r.calls[0]? = some call → call = ⟨prompt, 0⟩
  later : ∀ j call, r.calls[j + 1]? = some call →
    ∃ token, r.accepted[j]? = some token ∧ call = ⟨[token], prompt.length + j⟩
  offsets : ∀ i call, r.calls[i]? = some call →
    call.offset = ((r.calls.take i).flatMap DecoderCall.tokens).length
  fed : r.calls.flatMap DecoderCall.tokens <+: prompt ++ r.accepted
  returned : ∀ tokens, r.tokens = .ok tokens → tokens = r.accepted
  count : r.calls.length = r.accepted.length + r.idleCalls
  chosen : ∀ i token, r.accepted[i]? = some token → r.Chooses d config prompt s i token
  stopped : ∀ token, r.ending = .ok (.endToken token) →
    token ∈ stop.endTokens ∧ r.Chooses d config prompt s r.accepted.length token
  decoder : r.decoder = d.after s r.calls

end TokenRun

namespace TokenLoop

variable {σ : Type} {d : Decoder σ} {config : SamplingConfig} {stop : StopCondition}
  {budget count offset token : Nat} {context pending prompt : List Nat} {s s' : σ}
  {r : TokenRun σ}

namespace Course

theorem calls_eq (h : Course d config stop budget count context pending offset s r) :
    r.calls = (trail pending offset r.accepted).take (r.accepted.length + r.idleCalls) := by
  induction h with
  | budgetUsed => rfl
  | windowFull _ => rfl
  | failed _ _ => rfl
  | stopped _ _ _ => rfl
  | accepted _ _ _ _ ih =>
    simp only [TokenRun.after_calls, TokenRun.after_accepted, TokenRun.idleCalls_after,
      List.length_cons, Nat.add_right_comm _ 1, trail, List.take_succ_cons, ← ih]

theorem idleCalls_le (r : TokenRun σ) : r.idleCalls ≤ 1 := by
  unfold TokenRun.idleCalls
  split <;> omega

theorem decoder_eq (h : Course d config stop budget count context pending offset s r) :
    r.decoder = d.after s r.calls := by
  induction h with
  | budgetUsed => rfl
  | windowFull _ => rfl
  | failed _ round => exact state_of_attempt round
  | stopped _ round _ => exact state_of_attempt round
  | accepted _ round _ _ ih =>
    rw [TokenRun.after_decoder, ih, state_of_attempt round, TokenRun.after_calls,
      Decoder.after_cons]

theorem choice_of_drawn (h : Course d config stop budget count context pending offset s r) :
    ∀ i token, r.drawn[i]? = some token → ∃ logits, d.answer? s r.calls i = some (.ok logits) ∧
      config.chooseToken (count + i) (context ++ r.accepted.take i) logits = .ok token := by
  -- places count from the round the induction stands at, which moves on by the token it accepts
  induction h with
  | budgetUsed => simp [TokenRun.drawn]
  | windowFull _ => simp [TokenRun.drawn]
  | failed _ _ => simp [TokenRun.drawn]
  | stopped _ round _ =>
    intro i token drawn
    cases i with
    | zero =>
      obtain rfl := Option.some.inj drawn
      simpa using choice_of_attempt round
    | succ i => simp [TokenRun.drawn] at drawn
  | accepted _ round _ _ ih =>
    intro i token drawn
    cases i with
    | zero =>
      obtain rfl := Option.some.inj drawn
      simpa using choice_of_attempt round
    | succ i =>
      obtain ⟨_, step, -⟩ := attempt_eq_ok.1 round
      obtain ⟨logits, answer, choice⟩ := ih i token drawn
      refine ⟨logits, by simpa [step] using answer, ?_⟩
      simpa [Nat.add_assoc, Nat.add_comm 1 i] using choice

theorem ends_of_endToken (h : Course d config stop budget count context pending offset s r) :
    ∀ token, r.ending = .ok (.endToken token) → token ∈ stop.endTokens := by
  induction h with
  | budgetUsed => simp
  | windowFull _ => simp
  | failed _ _ => simp
  | stopped _ _ ends => simpa using ends
  | accepted _ _ _ _ ih => exact ih

theorem traced (h : Course d config stop budget 0 prompt prompt 0 s r) :
    r.Traced d config stop prompt s := by
  have few : r.accepted.length + r.idleCalls ≤ (trail prompt 0 r.accepted).length := by
    rw [length_trail]
    exact Nat.add_le_add_left (idleCalls_le r) _
  obtain ⟨rest, whole⟩ : r.calls <+: trail prompt 0 r.accepted := h.calls_eq ▸ List.take_prefix _ _
  -- a call of the run is one of the trail, and so are those before it
  have walked {i : Nat} {call : DecoderCall} (made : r.calls[i]? = some call) :
      (trail prompt 0 r.accepted)[i]? = some call ∧
        (trail prompt 0 r.accepted).take i = r.calls.take i := by
    have inside : i < r.calls.length := (List.getElem?_eq_some_iff.1 made).1
    rw [← whole, List.getElem?_append_left inside,
      List.take_append_of_le_length (Nat.le_of_lt inside)]
    exact ⟨made, rfl⟩
  refine ⟨?_, ?_, ?_, ?_, fun _ => TokenRun.tokens_ok, ?_, ?_, ?_, h.decoder_eq⟩
  · intro call made
    exact Option.some.inj ((walked made).1.symm.trans (trail_zero _))
  · intro j call made
    have made' := (walked made).1
    rw [trail_succ, Option.map_eq_some_iff] at made'
    obtain ⟨token, accepted, rfl⟩ := made'
    exact ⟨token, accepted, by rw [Nat.zero_add]⟩
  · intro i call made
    obtain ⟨made', before⟩ := walked made
    rw [offset_of_trail made', before, Nat.zero_add]
  · refine ⟨rest.flatMap DecoderCall.tokens, ?_⟩
    rw [← List.flatMap_append, whole, flatMap_trail]
  · rw [h.calls_eq, List.length_take, Nat.min_eq_left few]
  · intro i token accepted
    simpa [TokenRun.Chooses] using h.choice_of_drawn i token (TokenRun.drawn_of_accepted accepted)
  · intro token ending
    refine ⟨h.ends_of_endToken token ending, ?_⟩
    have drawn := h.choice_of_drawn _ token (TokenRun.drawn_of_endToken ending)
    simpa [TokenRun.Chooses] using drawn

end Course

/-- A run feeds the prompt and then each accepted token by itself, each token once and in its place,
and accepts what is chosen from the answers, however it ends; an empty prompt fails before the first
call. -/
theorem run_traced (d : Decoder σ) (config : SamplingConfig) (stop : StopCondition) (s : σ) :
    (∀ prompt, prompt ≠ [] → (run d config stop prompt s).Traced d config stop prompt s) ∧
      (run d config stop [] s).calls = [] ∧ (run d config stop [] s).decoder = s ∧
        (run d config stop [] s).tokens = .error (.of .noTokens) :=
  ⟨fun _ start => (run_course start).traced, rfl, rfl, rfl⟩

/-- A run that fails at its third call, after two tokens. -/
theorem run_traced_secondOfTwo :
    let config := { maxNewTokens := 5, temperature := 0, topP := 1 : Params }.effective
    let r := run (Decoder.recording secondOfTwo) config {} [0, 0] []
    r.Traced (Decoder.recording secondOfTwo) config {} [0, 0] [] ∧
      r.calls = [⟨[0, 0], 0⟩, ⟨[1], 2⟩, ⟨[1], 3⟩] ∧ r.accepted = [1, 1] :=
  ⟨(run_traced (Decoder.recording secondOfTwo) _ {} []).1 [0, 0] (List.cons_ne_nil 0 [0]),
    by rfl, by rfl⟩

end TokenLoop
end TextCompletion
