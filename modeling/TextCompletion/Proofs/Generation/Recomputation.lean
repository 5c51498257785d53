import TextCompletion.Proofs.Generation.Attempt

/-!
Feeding a decoder piece by piece against computing every step from the whole context. A decoder is
faithful to a function of contexts when it answers every call that continues what it was fed by the
function's value at everything fed so far. Main statement: on a faithful decoder the token loop
returns what a loop without any memory of the decoder returns.
-/

namespace TextCompletion

/-- What the tokens of a context lead to: logits, or a failure. -/
abbrev ContextModel := List Nat → Except Failure (List Float32)

namespace Decoder

variable {σ : Type} (d : Decoder σ)

/-- `Fed start fed s`: from `start`, successful calls that each began where the one before had ended
fed the tokens `fed` and led to `s`. -/
inductive Fed (start : σ) : List Nat → σ → Prop
  | nothing : Fed start [] start
  | more {fed tokens : List Nat} {s s' : σ} {logits : List Float32} :
      Fed start fed s → tokens ≠ [] → d.step s tokens fed.length = (.ok logits, s') →
      Fed start (fed ++ tokens) s'

/-- A call at the right offset answers for all tokens fed so far, its own included. -/
def Faithful (f : ContextModel) (start : σ) : Prop :=
  ∀ fed s tokens, d.Fed start fed s → tokens ≠ [] →
    (d.step s tokens fed.length).1 = f (fed ++ tokens)

/-- The decoder that keeps all tokens and computes every answer from them. -/
def recording (f : ContextModel) : Decoder (List Nat) where
  step kept tokens _ := (f (kept ++ tokens), kept ++ tokens)

theorem recording_fed {f : ContextModel} {fed kept : List Nat}
    (h : (recording f).Fed [] fed kept) : kept = fed := by
  induction h with
  | nothing => rfl
  | more _ _ step ih =>
    rw [← ih]
    exact (congrArg Prod.snd step).symm

theorem recording_faithful (f : ContextModel) : (recording f).Faithful f [] := by
  intro fed kept tokens h _
  rw [recording_fed h]
  rfl

end Decoder

namespace Recomputation

variable (f : ContextModel) (config : SamplingConfig) (stop : StopCondition) (prompt : List Nat)

def newPosition (generated : List Nat) : Nat :=
  if generated = [] then 0 else prompt.length + generated.length - 1

def attempt (generated : List Nat) : Except Failure Nat :=
  match f (prompt ++ generated) with
  | .error e => .error (e.within (.forward (newPosition prompt generated)))
  | .ok logits =>
    match config.chooseToken generated.length (prompt ++ generated) logits with
    | .error e => .error ⟨[.sampleToken], .draw e⟩
    | .ok token => .ok token

def resume : Nat → List Nat → Except Failure (List Nat)
  | 0, generated => .ok generated
  | budget + 1, generated =>
    if stop.isFull (prompt ++ generated).length then .ok generated
    else
      match attempt f config prompt generated with
      | .error e => .error e
      | .ok token =>
        if stop.endTokens.contains token then .ok generated
        else resume budget (generated ++ [token])

def run : Except Failure (List Nat) :=
  match prompt with
  | [] => .error (.of .noTokens)
  | _ => resume f config stop prompt config.maxNewTokens []

variable {f config stop prompt}

theorem run_of_ne_nil (start : prompt ≠ []) :
    run f config stop prompt = resume f config stop prompt config.maxNewTokens [] := by
  cases prompt with
  | nil => exact absurd rfl start
  | cons first rest => rfl

end Recomputation

namespace TokenLoop

variable {σ : Type} {d : Decoder σ} {f : ContextModel} {prompt generated fed pending : List Nat}
  {start s : σ}

/-- One round on a faithful decoder: it chooses what is chosen from the whole context, and if it
chooses at all, the whole context has been fed afterwards. -/
theorem attempt_faithful (config : SamplingConfig) (faithful : d.Faithful f start)
    (fedSoFar : d.Fed start fed s) (whole : fed ++ pending = prompt ++ generated)
    (new : pending ≠ []) (position : fed.length = Recomputation.newPosition prompt generated) :
    (attempt d config generated.length (prompt ++ generated) pending fed.length s).1 =
        Recomputation.attempt f config prompt generated ∧
      ∀ token s', attempt d config generated.length (prompt ++ generated) pending fed.length s =
        (.ok token, s') → d.Fed start (prompt ++ generated) s' := by
  have answer := faithful fed s pending fedSoFar new
  rw [whole] at answer
  unfold attempt Recomputation.attempt
  rcases step : d.step s pending fed.length with ⟨result, s₁⟩
  rw [step] at answer
  rw [← answer]
  cases result with
  | error e => simp [position]
  | ok logits =>
    have fedNow : d.Fed start (prompt ++ generated) s₁ := whole ▸ .more fedSoFar new step
    cases choice : config.chooseToken generated.length (prompt ++ generated) logits with
    | error e => simp [choice]
    | ok token =>
      simp only [choice, true_and]
      intro token' s' same
      obtain ⟨-, rfl⟩ := Prod.mk.inj same
      exact fedNow

theorem map_nil_append (x : Except Failure (List Nat)) : x.map ([] ++ ·) = x := by
  cases x <;> rfl

theorem map_cons_append (x : Except Failure (List Nat)) (generated : List Nat) (token : Nat) :
    (x.map (token :: ·)).map (generated ++ ·) = x.map (generated ++ [token] ++ ·) := by
  cases x <;> simp [Except.map]

/-- The loop on a faithful decoder, from any round on. What was fed and what is pending make up the
context, and the offset is the position of the first pending token. -/
theorem resume_faithful (config : SamplingConfig) (stop : StopCondition)
    (faithful : d.Faithful f start) (budget : Nat) (fedSoFar : d.Fed start fed s)
    (whole : fed ++ pending = prompt ++ generated) (new : pending ≠ [])
    (position : fed.length = Recomputation.newPosition prompt generated) :
    (resume d config stop budget generated.length (prompt ++ generated) pending fed.length
        s).tokens.map (generated ++ ·) =
      Recomputation.resume f config stop prompt budget generated := by
  induction budget generalizing generated fed pending s with
  | zero => simp [TokenRun.tokens, Recomputation.resume, Except.map]
  | succ budget ih =>
    rw [Recomputation.resume]
    cases room : stop.isFull (prompt ++ generated).length with
    | true => simp [resume_full room, TokenRun.tokens, Except.map]
    | false =>
      obtain ⟨same, fedNow⟩ := attempt_faithful config faithful fedSoFar whole new position
      rw [← same, if_neg Bool.false_ne_true]
      rcases round : attempt d config generated.length (prompt ++ generated) pending fed.length s
        with ⟨failure | token, s'⟩
      · simp [resume_error room round, TokenRun.tokens, Except.map]
      · by_cases ends : token ∈ stop.endTokens
        · simp [resume_endToken room round ends, ends, TokenRun.tokens, Except.map]
        · have length : fed.length + pending.length = (prompt ++ generated).length := by
            rw [← List.length_append, whole]
          have position' : (prompt ++ generated).length =
              Recomputation.newPosition prompt (generated ++ [token]) := by
            simp [Recomputation.newPosition]
          -- now everything but the new token has been fed
          have rest := ih (fedNow token s' round) (List.append_assoc prompt generated [token])
            (List.cons_ne_nil token []) position'
          rw [List.length_append, List.length_singleton, ← List.append_assoc] at rest
          rw [resume_accept room round ends, TokenRun.after_tokens, length, map_cons_append, rest]
          simp [ends]

/-- Feeding each token once gives the tokens and the failures of recomputing every step. -/
theorem tokens_run_eq_recomputation (faithful : d.Faithful f start) (config : SamplingConfig)
    (stop : StopCondition) (prompt : List Nat) :
    (run d config stop prompt start).tokens = Recomputation.run f config stop prompt := by
  by_cases empty : prompt = []
  · rw [empty]
    rfl
  · have position : ([] : List Nat).length = Recomputation.newPosition prompt [] := rfl
    have loop := resume_faithful config stop faithful config.maxNewTokens .nothing
      (List.append_nil prompt).symm empty position
    rw [List.append_nil, List.length_nil, map_nil_append] at loop
    rw [run_of_ne_nil empty, Recomputation.run_of_ne_nil empty]
    exact loop

def secondOfTwo : ContextModel := fun context =>
  if context.length < 4 then .ok [0, 1] else .error (.of .noTokens)

/-- A run that fails at its third call, on a decoder that keeps all tokens. -/
theorem tokens_run_secondOfTwo :
    (Decoder.recording secondOfTwo).Faithful secondOfTwo [] ∧
      let config := { maxNewTokens := 5, temperature := 0, topP := 1 : Params }.effective
      (run (Decoder.recording secondOfTwo) config {} [0, 0] []).tokens =
          Recomputation.run secondOfTwo config {} [0, 0] ∧
        Recomputation.run secondOfTwo config {} [0, 0] =
          .error ⟨[.forward 3], .noTokens⟩ :=
  ⟨Decoder.recording_faithful secondOfTwo,
    tokens_run_eq_recomputation (Decoder.recording_faithful secondOfTwo) _ {} [0, 0], by rfl⟩

end TokenLoop
end TextCompletion
