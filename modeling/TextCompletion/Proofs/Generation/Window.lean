import TextCompletion.Proofs.Generation.Attempt

/-!
Which positions a run feeds. The round after some tokens feeds the positions of the prompt and of
these tokens, as far as they were not fed before, and draws the token of the position after them. So
a run that is limited to the size of a table of positions stays inside it, and a run without a limit
does exactly if it ends early enough; it fails otherwise, where its decoder cannot leave the table.
-/

namespace TextCompletion

/-- The decoder has no logits for a token outside a table of `n` positions. -/
def Decoder.StaysBelow {σ : Type} (d : Decoder σ) (n : Nat) : Prop :=
  ∀ s tokens offset, n < offset + tokens.length → ∃ f, (d.step s tokens offset).1 = .error f

namespace TokenRun

variable {σ : Type}

/-- The run comes to the round after `k` tokens. -/
def Reaches (r : TokenRun σ) (budget k : Nat) : Prop := k ≤ r.accepted.length ∧ k < budget

def FeedsBelow (r : TokenRun σ) (n : Nat) : Prop :=
  ∀ call ∈ r.calls, ∀ i < call.tokens.length, call.offset + i < n

/-- A run that begins with so many tokens stays inside a table of `n` positions: every call feeds
positions of the table only, and where the next token would have none, the run ends without failing,
for want of room. -/
structure KeepsToTable (r : TokenRun σ) (n length budget : Nat) : Prop where
  feeds : r.FeedsBelow n
  ends : ∀ k, r.Reaches budget k → n ≤ length + k →
    r.accepted.length = k ∧ r.ending = .ok .windowFull

variable {r : TokenRun σ} {budget k : Nat}

theorem reaches_after {call : DecoderCall} {token : Nat} :
    (r.after call token).Reaches (budget + 1) (k + 1) ↔ r.Reaches budget k := by
  simp [Reaches]

theorem eq_zero_of_reaches (none : r.accepted = []) (reached : r.Reaches budget k) : k = 0 := by
  simpa [none] using reached.1

end TokenRun

namespace TokenLoop

variable {σ : Type} {d : Decoder σ} {config : SamplingConfig} {stop : StopCondition}
  {budget count offset n k : Nat} {context pending prompt : List Nat} {s : σ} {r : TokenRun σ}

namespace Course

theorem round_of_call (h : Course d config stop budget count context pending offset s r)
    (whole : offset + pending.length = context.length) :
    ∀ call ∈ r.calls, ∃ k, r.Reaches budget k ∧
      call.offset + call.tokens.length = context.length + k ∧
        stop.isFull (context.length + k) = false := by
  induction h with
  | budgetUsed => simp
  | windowFull _ => simp
  | failed room _ =>
    intro call member
    obtain rfl := List.mem_singleton.1 member
    exact ⟨0, ⟨Nat.zero_le _, Nat.zero_lt_succ _⟩, whole, room⟩
  | stopped room _ _ =>
    intro call member
    obtain rfl := List.mem_singleton.1 member
    exact ⟨0, ⟨Nat.zero_le _, Nat.zero_lt_succ _⟩, whole, room⟩
  | accepted room _ _ _ ih =>
    intro call member
    rcases List.mem_cons.1 member with rfl | member
    · exact ⟨0, ⟨Nat.zero_le _, Nat.zero_lt_succ _⟩, whole, room⟩
    -- a later call belongs to a round of the rest, which is one round later here
    · obtain ⟨k, reached, position, open'⟩ := ih (by simp [whole]) call member
      rw [List.length_append, List.length_singleton] at position open'
      refine ⟨k + 1, TokenRun.reaches_after.2 reached, by omega, ?_⟩
      rwa [Nat.add_right_comm, Nat.add_assoc] at open'

theorem call_of_round (h : Course d config stop budget count context pending offset s r)
    (whole : offset + pending.length = context.length) (reached : r.Reaches budget k)
    (open' : stop.isFull (context.length + k) = false) :
    ∃ call ∈ r.calls, call.offset + call.tokens.length = context.length + k ∧
      (pending ≠ [] → call.tokens ≠ []) := by
  induction h generalizing k with
  | budgetUsed => exact absurd reached.2 (Nat.not_lt_zero k)
  | windowFull full =>
    obtain rfl := TokenRun.eq_zero_of_reaches rfl reached
    cases full.symm.trans open'
  | failed _ _ =>
    obtain rfl := TokenRun.eq_zero_of_reaches rfl reached
    exact ⟨_, List.mem_singleton_self _, whole, id⟩
  | stopped _ _ _ =>
    obtain rfl := TokenRun.eq_zero_of_reaches rfl reached
    exact ⟨_, List.mem_singleton_self _, whole, id⟩
  | @accepted _ _ _ token context _ _ _ _ _ _ _ _ ih =>
    cases k with
    | zero => exact ⟨_, List.mem_cons_self, whole, id⟩
    | succ k =>
      have longer : (context ++ [token]).length + k = context.length + (k + 1) := by
        simp only [List.length_append, List.length_singleton]
        omega
      obtain ⟨call, member, position, fed⟩ :=
        ih (by simp [whole]) (TokenRun.reaches_after.1 reached) (by rw [longer]; exact open')
      exact ⟨call, List.mem_cons_of_mem _ member, by rw [position, longer],
        fun _ => fed (List.cons_ne_nil _ _)⟩

theorem windowFull_of_round (h : Course d config stop budget count context pending offset s r)
    (reached : r.Reaches budget k) (full : stop.isFull (context.length + k) = true) :
    r.accepted.length = k ∧ r.ending = .ok .windowFull := by
  induction h generalizing k with
  | budgetUsed => exact absurd reached.2 (Nat.not_lt_zero k)
  | windowFull _ => exact ⟨(TokenRun.eq_zero_of_reaches rfl reached).symm, rfl⟩
  | failed room _ => simp [TokenRun.eq_zero_of_reaches rfl reached, room] at full
  | stopped room _ _ => simp [TokenRun.eq_zero_of_reaches rfl reached, room] at full
  | @accepted _ _ _ token context _ _ _ _ room _ _ _ ih =>
    cases k with
    | zero => simp [room] at full
    | succ k =>
      have full' : stop.isFull ((context ++ [token]).length + k) = true := by
        rwa [List.length_append, List.length_singleton, Nat.add_assoc, Nat.add_comm 1 k]
      have rest := ih (TokenRun.reaches_after.1 reached) full'
      exact ⟨by simpa using rest.1, rest.2⟩

theorem ending_ne (h : Course d config stop budget count context pending offset s r)
    (unlimited : stop.contextLimit = none) : r.ending ≠ .ok .windowFull := by
  induction h with
  | budgetUsed => simp
  | windowFull full => simp [StopCondition.isFull, unlimited] at full
  | failed _ _ => simp
  | stopped _ _ _ => simp
  | accepted _ _ _ _ ih => exact ih

end Course

theorem run_keepsToTable (limit : stop.contextLimit = some n) (begun : prompt ≠ []) :
    (run d config stop prompt s).KeepsToTable n prompt.length config.maxNewTokens := by
  have course : Course d config stop config.maxNewTokens 0 prompt prompt 0 s
    (run d config stop prompt s) := run_course begun
  refine ⟨?_, ?_⟩
  · intro call member i fed
    obtain ⟨k, -, position, room⟩ := course.round_of_call (Nat.zero_add _) call member
    simp only [StopCondition.isFull, limit, decide_eq_false_iff_not] at room
    omega
  · intro k reached beyond
    refine course.windowFull_of_round reached ?_
    simpa only [StopCondition.isFull, limit, decide_eq_true_eq] using beyond

/-- A run without a limit feeds positions of the table only if and only if it comes to no round that
would feed another. -/
theorem run_feedsBelow_iff (unlimited : stop.contextLimit = none) (begun : prompt ≠ []) :
    (run d config stop prompt s).FeedsBelow n ↔
      ∀ k, (run d config stop prompt s).Reaches config.maxNewTokens k → prompt.length + k ≤ n := by
  have room (n : Nat) : stop.isFull n = false := by simp [StopCondition.isFull, unlimited]
  have course : Course d config stop config.maxNewTokens 0 prompt prompt 0 s
    (run d config stop prompt s) := run_course begun
  constructor
  · intro feeds k reached
    obtain ⟨call, member, position, fed⟩ :=
      course.call_of_round (Nat.zero_add _) reached (room _)
    have some' : 0 < call.tokens.length := List.length_pos_iff.2 (fed begun)
    have last := feeds call member (call.tokens.length - 1) (by omega)
    omega
  · intro fits call member i fed
    obtain ⟨k, reached, position, -⟩ := course.round_of_call (Nat.zero_add _) call member
    have inside := fits k reached
    omega

/-- A run without a limit stays inside the table if and only if it ends before its tokens fill
it. -/
theorem run_keepsToTable_iff (unlimited : stop.contextLimit = none) (begun : prompt ≠ []) :
    (run d config stop prompt s).KeepsToTable n prompt.length config.maxNewTokens ↔
      ∀ k, (run d config stop prompt s).Reaches config.maxNewTokens k → prompt.length + k < n := by
  constructor
  · intro keeps k reached
    refine Nat.lt_of_not_le fun beyond => ?_
    obtain ⟨-, full⟩ := keeps.ends k reached beyond
    exact (run_course begun).ending_ne unlimited full
  · intro fits
    refine ⟨?_, fun k reached beyond => absurd (fits k reached) (Nat.not_lt.2 beyond)⟩
    exact (run_feedsBelow_iff unlimited begun).2 fun k reached => Nat.le_of_lt (fits k reached)

theorem attempt_outside {result : Except Failure Nat} {s' : σ} (below : d.StaysBelow n)
    (round : attempt d config count context pending offset s = (result, s'))
    (outside : n < offset + pending.length) :
    ∃ f : Failure, result = .error (f.within (.forward offset)) := by
  obtain ⟨f, failed⟩ := below s pending offset outside
  rcases step : d.step s pending offset with ⟨answer, s₁⟩
  rw [step] at failed
  subst failed
  simp only [attempt, step] at round
  exact ⟨f, (congrArg Prod.fst round).symm⟩

theorem Course.outside (h : Course d config stop budget count context pending offset s r)
    (unlimited : stop.contextLimit = none) (below : d.StaysBelow n)
    (whole : offset + pending.length = context.length) (reached : r.Reaches budget k)
    (beyond : n < context.length + k) :
    r.accepted.length = n + 1 - context.length ∧
      ∃ f : Failure, r.ending =
        .error (f.within (.forward (if n < context.length then offset else n))) := by
  induction h generalizing k with
  | budgetUsed => exact absurd reached.2 (Nat.not_lt_zero k)
  | windowFull full => simp [StopCondition.isFull, unlimited] at full
  | failed _ round =>
    obtain rfl := TokenRun.eq_zero_of_reaches rfl reached
    obtain ⟨f, failed⟩ := attempt_outside below round (whole ▸ beyond)
    rw [Nat.add_zero] at beyond
    rw [if_pos beyond, Except.error.inj failed]
    refine ⟨?_, f, rfl⟩
    simp only [List.length_nil]
    omega
  | stopped _ round _ =>
    obtain rfl := TokenRun.eq_zero_of_reaches rfl reached
    obtain ⟨f, failed⟩ := attempt_outside below round (whole ▸ beyond)
    cases failed
  | @accepted _ _ offset token context pending _ _ _ _ round _ _ ih =>
    have outside : ¬ n < context.length := by
      intro outside
      obtain ⟨f, failed⟩ := attempt_outside below round (whole ▸ outside)
      cases failed
    have longer : (context ++ [token]).length = context.length + 1 := by simp
    cases k with
    | zero => exact absurd beyond outside
    | succ k =>
      obtain ⟨accepted, f, ending⟩ :=
        ih (by simp [whole]) (TokenRun.reaches_after.1 reached) (by rw [longer]; omega)
      rw [longer] at accepted ending
      simp only [TokenRun.after_accepted, TokenRun.after_ending, List.length_cons]
      refine ⟨by omega, f, ?_⟩
      -- the next round feeds one position, which is `n` if it is outside
      have position : (if n < context.length + 1 then offset + pending.length else n) = n := by
        split <;> omega
      rw [ending, position, if_neg outside]

/-- A run without a limit that would leave the table fails at the round where it would. -/
theorem run_outside (unlimited : stop.contextLimit = none) (below : d.StaysBelow n) (token : Nat)
    (reached : (run d config stop [token] s).Reaches config.maxNewTokens k) (beyond : n < 1 + k) :
    (run d config stop [token] s).accepted.length = n ∧
      ∃ f : Failure, (run d config stop [token] s).ending = .error (f.within (.forward n)) := by
  have course : Course d config stop config.maxNewTokens 0 [token] [token] 0 s
    (run d config stop [token] s) := run_course (List.cons_ne_nil _ _)
  obtain ⟨accepted, f, ending⟩ :=
    course.outside unlimited below (Nat.zero_add _) reached (by simpa using beyond)
  refine ⟨by simpa using accepted, f, ?_⟩
  have position : (if n < [token].length then 0 else n) = n := by
    split <;> simp_all
  rw [ending, position]

end TokenLoop
end TextCompletion
