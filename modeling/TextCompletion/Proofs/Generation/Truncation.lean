import Mathlib.Data.List.TakeWhile
import TextCompletion.Proofs.Generation.Recomputation

/-!
One decoder under two stop conditions, of which one is at least as strict and has at most the
budget of the other. Main statement: the stricter run makes a beginning of the calls and accepts the
longest beginning of the tokens that it has room for and that holds none of its end tokens; it fails
only where the other one does.
-/

namespace TextCompletion

namespace StopCondition

/-- No position more, and every end token of the other one. A limit that is absent is the
largest. -/
structure Stricter (strict lax : StopCondition) : Prop where
  limit : ∀ n, lax.contextLimit = some n → ∃ m, strict.contextLimit = some m ∧ m ≤ n
  endTokens : lax.endTokens ⊆ strict.endTokens

/-- How many tokens a budget and the positions behind a context leave room for. -/
def room (s : StopCondition) (budget length : Nat) : Nat :=
  match s.contextLimit with
  | none => budget
  | some limit => min budget (limit - length)

def truncate (s : StopCondition) (room : Nat) (tokens : List Nat) : List Nat :=
  (tokens.take room).takeWhile fun token => !s.endTokens.contains token

variable {s strict lax : StopCondition} {budget length n token : Nat} {tokens : List Nat}

theorem isFull_mono (stricter : strict.Stricter lax) (roomLeft : strict.isFull length = false) :
    lax.isFull length = false := by
  unfold isFull at roomLeft ⊢
  cases limit : lax.contextLimit with
  | none => rfl
  | some n =>
    obtain ⟨m, limit', le⟩ := stricter.limit n limit
    rw [limit'] at roomLeft
    simp only [decide_eq_false_iff_not, Nat.not_le] at roomLeft ⊢
    omega

@[simp] theorem room_zero (s : StopCondition) (length : Nat) : s.room 0 length = 0 := by
  unfold room
  split <;> simp

theorem room_full (full : s.isFull length = true) (budget : Nat) : s.room budget length = 0 := by
  unfold isFull at full
  unfold room
  cases limit : s.contextLimit with
  | none => simp [limit] at full
  | some n =>
    simp only [limit, decide_eq_true_eq] at full
    simp only
    omega

theorem room_succ (roomLeft : s.isFull length = false) (budget : Nat) :
    s.room (budget + 1) length = s.room budget (length + 1) + 1 := by
  unfold isFull at roomLeft
  unfold room
  cases limit : s.contextLimit with
  | none => rfl
  | some n =>
    simp only [limit, decide_eq_false_iff_not, Nat.not_le] at roomLeft
    simp only
    omega

@[simp] theorem truncate_zero (s : StopCondition) (tokens : List Nat) : s.truncate 0 tokens = [] :=
  rfl

@[simp] theorem truncate_nil (s : StopCondition) (n : Nat) : s.truncate n [] = [] := by
  simp [truncate]

theorem truncate_cons_end (ends : token ∈ s.endTokens) (n : Nat) (tokens : List Nat) :
    s.truncate n (token :: tokens) = [] := by
  cases n <;> simp [truncate, ends]

theorem truncate_cons (goesOn : token ∉ s.endTokens) (n : Nat) (tokens : List Nat) :
    s.truncate (n + 1) (token :: tokens) = token :: s.truncate n tokens := by
  simp [truncate, goesOn]

/-- The longest beginning of the tokens that has room and no end token in it. -/
structure IsLongest (s : StopCondition) (n : Nat) (tokens kept : List Nat) : Prop where
  begins : kept <+: tokens
  fits : kept.length ≤ n
  endless : ∀ token ∈ kept, token ∉ s.endTokens
  longest : ∀ zs, zs <+: tokens → zs.length ≤ n → (∀ token ∈ zs, token ∉ s.endTokens) → zs <+: kept

theorem isLongest_truncate (s : StopCondition) (n : Nat) (tokens : List Nat) :
    s.IsLongest n tokens (s.truncate n tokens) where
  begins := (List.takeWhile_prefix _).trans (List.take_prefix n tokens)
  fits := Nat.le_trans (List.takeWhile_prefix _).length_le (List.length_take_le n tokens)
  endless token member := by
    simpa using List.mem_takeWhile_imp member
  longest zs begins fits free := by
    obtain ⟨rest, rfl⟩ := begins
    have whole : zs.takeWhile (fun token => !s.endTokens.contains token) = zs :=
      List.takeWhile_eq_self_iff.2 (by simpa using free)
    rw [truncate, List.take_append, List.take_of_length_le fits,
      List.takeWhile_append_of_pos (by simpa using free)]
    exact List.prefix_append zs _

end StopCondition

namespace TokenRun

variable {σ : Type} {stop : StopCondition} {room token : Nat} {call : DecoderCall} {f : Failure}
  {strict lax : TokenRun σ}

/-- What a run with so much room and these end tokens has of one that may go on longer. -/
structure Truncates (stop : StopCondition) (room : Nat) (strict lax : TokenRun σ) : Prop where
  calls : strict.calls <+: lax.calls
  succeeds : ∀ ys, lax.tokens = .ok ys → strict.tokens = .ok (stop.truncate room ys)
  stops : ∀ f, lax.tokens = .error f →
    (∃ token ∈ lax.accepted, token ∈ stop.endTokens) ∨ room ≤ lax.accepted.length →
      strict.tokens = .ok (stop.truncate room lax.accepted)
  fails : ∀ f, lax.tokens = .error f →
    (∀ token ∈ lax.accepted, token ∉ stop.endTokens) → lax.accepted.length < room →
      strict.tokens = .error f

theorem Truncates.without_room (calls : strict.calls = []) (tokens : strict.tokens = .ok []) :
    Truncates stop 0 strict lax where
  calls := calls ▸ List.nil_prefix
  succeeds ys _ := by rw [tokens, StopCondition.truncate_zero]
  stops _ _ _ := by rw [tokens, StopCondition.truncate_zero]
  fails _ _ _ short := absurd short (Nat.not_lt_zero _)

theorem Truncates.of_failure (same : strict = lax) (failed : strict.tokens = .error f)
    (none : strict.accepted = []) : Truncates stop (room + 1) strict lax := by
  subst same
  refine ⟨List.prefix_refl _, ?_, ?_, ?_⟩
  · intro ys ok
    simp [failed] at ok
  · intro _ _ stopped
    simp [none] at stopped
  · exact fun _ error _ _ => error

theorem Truncates.of_endToken (ends : token ∈ stop.endTokens) (calls : strict.calls = [call])
    (tokens : strict.tokens = .ok []) :
    Truncates stop room strict (lax.after call token) where
  calls := by simp [calls]
  succeeds ys ok := by
    rw [tokens_ok ok, after_accepted, StopCondition.truncate_cons_end ends, tokens]
  stops _ _ _ := by rw [after_accepted, StopCondition.truncate_cons_end ends, tokens]
  fails _ _ free _ := absurd ends (free token (by simp))

theorem Truncates.of_end (same : strict = lax) (tokens : strict.tokens = .ok []) :
    Truncates stop room strict lax := by
  subst same
  refine ⟨List.prefix_refl _, ?_, ?_, ?_⟩
  · intro ys ok
    rw [tokens] at ok ⊢
    rw [← Except.ok.inj ok, StopCondition.truncate_nil]
  · intro _ error
    simp [tokens] at error
  · exact fun _ error _ _ => error

theorem Truncates.after (goesOn : token ∉ stop.endTokens) (h : Truncates stop room strict lax) :
    Truncates stop (room + 1) (strict.after call token) (lax.after call token) := by
  refine ⟨?_, ?_, ?_, ?_⟩
  · simpa using h.calls
  · intro ys ok
    obtain rfl := tokens_ok ok
    rw [after_tokens] at ok ⊢
    cases rest : lax.tokens with
    | error f => simp [rest, Except.map] at ok
    | ok zs =>
      obtain rfl := tokens_ok rest
      rw [h.succeeds _ rest, after_accepted, StopCondition.truncate_cons goesOn]
      rfl
  · intro f error stopped
    rw [after_tokens] at error
    cases rest : lax.tokens with
    | ok zs => simp [rest, Except.map] at error
    | error g =>
      have stopped' : (∃ token ∈ lax.accepted, token ∈ stop.endTokens) ∨
          room ≤ lax.accepted.length := by
        simpa [goesOn] using stopped
      rw [after_tokens, h.stops g rest stopped', after_accepted,
        StopCondition.truncate_cons goesOn]
      rfl
  · intro f error free short
    rw [after_tokens] at error ⊢
    cases rest : lax.tokens with
    | ok zs => simp [rest, Except.map] at error
    | error g =>
      have free' : ∀ token ∈ lax.accepted, token ∉ stop.endTokens :=
        fun token member => free token (by simp [member])
      have short' : lax.accepted.length < room := by simpa using short
      rw [h.fails g rest free' short', ← error, rest]

/-- Two runs that differ in the reason of their end at most. -/
structure SameOutcome (r r' : TokenRun σ) : Prop where
  calls : r.calls = r'.calls
  accepted : r.accepted = r'.accepted
  tokens : r.tokens = r'.tokens
  decoder : r.decoder = r'.decoder

theorem SameOutcome.refl (r : TokenRun σ) : SameOutcome r r := ⟨rfl, rfl, rfl, rfl⟩

theorem SameOutcome.after {r r' : TokenRun σ} (h : SameOutcome r r') (call : DecoderCall)
    (token : Nat) : SameOutcome (r.after call token) (r'.after call token) where
  calls := by simp [h.calls]
  accepted := by simp [h.accepted]
  tokens := by simp [h.tokens]
  decoder := by simp [h.decoder]

end TokenRun

namespace SamplingConfig

def withBudget (c : SamplingConfig) (budget : Nat) : SamplingConfig :=
  { c with maxNewTokens := budget }

end SamplingConfig

namespace TokenLoop

variable {σ : Type} {d : Decoder σ} {config : SamplingConfig} {strict lax stop : StopCondition}
  {prompt : List Nat}

theorem resume_withBudget (n budget count : Nat) (context pending : List Nat) (offset : Nat)
    (s : σ) :
    resume d (config.withBudget n) stop budget count context pending offset s =
      resume d config stop budget count context pending offset s :=
  Course.resume_eq <| Course.congr resume_course (fun _ _ _ _ _ _ => rfl) (Nat.le_refl _)
    (fun _ => rfl) fun _ => .rfl

theorem run_withBudget (start : prompt ≠ []) (stop : StopCondition) (budget : Nat) (s : σ) :
    run d (config.withBudget budget) stop prompt s =
      resume d config stop budget 0 prompt prompt 0 s := by
  rw [run_of_ne_nil start, resume_withBudget]
  rfl

theorem resume_truncates (stricter : strict.Stricter lax) {budget budget' : Nat}
    (fewer : budget ≤ budget') (count : Nat) (context pending : List Nat) (offset : Nat) (s : σ) :
    TokenRun.Truncates strict (strict.room budget context.length)
      (resume d config strict budget count context pending offset s)
      (resume d config lax budget' count context pending offset s) := by
  induction budget generalizing budget' count context pending offset s with
  | zero =>
    rw [StopCondition.room_zero]
    exact .without_room rfl rfl
  | succ budget ih =>
    obtain ⟨budget', rfl⟩ : ∃ n, budget' = n + 1 := ⟨budget' - 1, by omega⟩
    have fewer' : budget ≤ budget' := by omega
    cases full : strict.isFull context.length with
    | true =>
      rw [resume_full full, StopCondition.room_full full]
      exact .without_room rfl rfl
    | false =>
      have full' := StopCondition.isFull_mono stricter full
      -- the runs make the same call, and part where only the stricter one ends
      rcases round : attempt d config count context pending offset s with ⟨f | token, s'⟩
      · rw [resume_error full round, resume_error full' round, StopCondition.room_succ full]
        exact .of_failure rfl rfl rfl
      · by_cases ends : token ∈ strict.endTokens
        · rw [resume_endToken full round ends]
          by_cases ends' : token ∈ lax.endTokens
          · rw [resume_endToken full' round ends']
            exact .of_end rfl rfl
          · rw [resume_accept full' round ends']
            exact .of_endToken ends rfl rfl
        · have goesOn : token ∉ lax.endTokens := fun member => ends (stricter.endTokens member)
          rw [resume_accept full round ends, resume_accept full' round goesOn,
            StopCondition.room_succ full]
          have rest := ih fewer' (count + 1) (context ++ [token]) [token]
            (offset + pending.length) s'
          rw [List.length_append, List.length_singleton] at rest
          exact rest.after ends

theorem resume_endTokens {ends : List Nat} (same : ∀ token, token ∈ ends ↔ token ∈ stop.endTokens)
    (budget count : Nat) (context pending : List Nat) (offset : Nat) (s : σ) :
    resume d config { stop with endTokens := ends } budget count context pending offset s =
      resume d config stop budget count context pending offset s :=
  Course.resume_eq <| Course.congr resume_course (fun _ _ _ _ _ _ => rfl) (Nat.le_refl _)
    (fun _ => rfl) same

/-- A limit leaves the run that its room allows as a budget. -/
theorem resume_limit (budget count : Nat) (context pending : List Nat) (offset : Nat) (s : σ) :
    TokenRun.SameOutcome (resume d config stop budget count context pending offset s)
      (resume d config { stop with contextLimit := none } (stop.room budget context.length) count
        context pending offset s) := by
  have course : Course d config stop budget count context pending offset s
    (resume d config stop budget count context pending offset s) := resume_course
  generalize resume d config stop budget count context pending offset s = r at course ⊢
  have unlimited : ∀ n, { stop with contextLimit := none : StopCondition }.isFull n = false :=
    fun _ => rfl
  induction course with
  | budgetUsed =>
    rw [StopCondition.room_zero]
    exact .refl _
  | windowFull full =>
    rw [StopCondition.room_full full]
    exact ⟨rfl, rfl, rfl, rfl⟩
  | failed room round =>
    rw [StopCondition.room_succ room, resume_error (unlimited _) round]
    exact .refl _
  | stopped room round ends =>
    rw [StopCondition.room_succ room, resume_endToken (unlimited _) round ends]
    exact .refl _
  | accepted room round goesOn _ ih =>
    rw [List.length_append, List.length_singleton] at ih
    rw [StopCondition.room_succ room, resume_accept (unlimited _) round goesOn]
    exact ih.after _ _

/-- Stop conditions only truncate: a stricter one cuts a run short and changes nothing before, and
what is left is the longest beginning that it allows. Neither the order nor the number of its end
tokens counts, and its limit counts as a budget. -/
theorem run_truncates (d : Decoder σ) (config : SamplingConfig) (start : prompt ≠ []) (s : σ) :
    (∀ strict lax : StopCondition, ∀ budget budget' : Nat, strict.Stricter lax →
      budget ≤ budget' →
        TokenRun.Truncates strict (strict.room budget prompt.length)
          (run d (config.withBudget budget) strict prompt s)
          (run d (config.withBudget budget') lax prompt s)) ∧
    (∀ (stop : StopCondition) (ends : List Nat) (budget : Nat),
      (∀ token, token ∈ ends ↔ token ∈ stop.endTokens) →
        run d (config.withBudget budget) { stop with endTokens := ends } prompt s =
          run d (config.withBudget budget) stop prompt s) ∧
    (∀ (stop : StopCondition) (budget : Nat),
      TokenRun.SameOutcome (run d (config.withBudget budget) stop prompt s)
        (run d (config.withBudget (stop.room budget prompt.length))
          { stop with contextLimit := none } prompt s)) ∧
    ∀ (stop : StopCondition) (room : Nat) (tokens : List Nat),
      stop.IsLongest room tokens (stop.truncate room tokens) := by
  refine ⟨?_, ?_, ?_, StopCondition.isLongest_truncate⟩
  · intro strict lax budget budget' stricter fewer
    rw [run_withBudget start, run_withBudget start]
    exact resume_truncates stricter fewer 0 prompt prompt 0 s
  · intro stop ends budget same
    rw [run_withBudget start, run_withBudget start]
    exact resume_endTokens same budget 0 prompt prompt 0 s
  · intro stop budget
    rw [run_withBudget start, run_withBudget start]
    exact resume_limit budget 0 prompt prompt 0 s

def greedy : SamplingConfig := { temperature := 0 : Params }.effective

/-- A run that fails at its third call, and the same one with room for one token. -/
theorem run_truncates_secondOfTwo :
    (run (Decoder.recording secondOfTwo) (greedy.withBudget 5) {} [0, 0] []).tokens =
        .error ⟨[.forward 3], .noTokens⟩ ∧
      (run (Decoder.recording secondOfTwo) (greedy.withBudget 4) { contextLimit := some 3 } [0, 0]
        []).tokens = .ok [1] := by
  have fails : (run (Decoder.recording secondOfTwo) (greedy.withBudget 5) {} [0, 0] []).tokens =
      .error ⟨[.forward 3], .noTokens⟩ := by rfl
  have accepted : (run (Decoder.recording secondOfTwo) (greedy.withBudget 5) {} [0, 0]
      []).accepted = [1, 1] := by rfl
  have stricter : StopCondition.Stricter { contextLimit := some 3 } {} :=
    ⟨fun n limit => (nomatch limit), List.nil_subset _⟩
  have cut := (run_truncates (Decoder.recording secondOfTwo) greedy (List.cons_ne_nil 0 [0])
    []).1 _ _ 4 5 stricter (by decide)
  refine ⟨fails, (cut.stops _ fails (.inr ?_)).trans ?_⟩
  · rw [accepted]
    decide
  · rw [accepted]
    rfl

end TokenLoop
end TextCompletion
