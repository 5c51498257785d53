import TextCompletion.Proofs.Generation.Nucleus
import TextCompletion.Proofs.Generation.Penalty

/-!
Runs that draw nothing. A temperature that is no number or below the least one, or a nucleus of no
mass, leaves the choice to the logits alone. Main statement: such runs are equal whatever their
seed, temperature and nucleus are, and every token of theirs is the first of the greatest logits.
-/

namespace TextCompletion

open Decimal

namespace Distribution

/-- The value stands at the place, none is greater, and those before it are less. -/
structure FirstGreatest (values : List Float32) (i : Nat) (x : Float32) : Prop where
  here : values[i]? = some x
  greatest : ∀ y ∈ values, y ≤ x
  first : ∀ j < i, ∀ y, values[j]? = some y → y < x

variable {before values : List Float32} {best : Nat} {bestValue x y z : Float32}

theorem le_of_not_lt (first : x.isNaN = false) (second : y.isNaN = false) (notLess : ¬ x < y) :
    y ≤ x := by
  rw [single_lt_iff_rank first second, not_lt] at notLess
  exact (single_le_iff_rank second first).2 notLess

theorem lt_of_le_of_lt (first : x.isNaN = false) (second : y.isNaN = false)
    (third : z.isNaN = false) (le : x ≤ y) (less : y < z) : x < z := by
  rw [single_le_iff_rank first second] at le
  rw [single_lt_iff_rank second third] at less
  exact (single_lt_iff_rank first third).2 (le.trans_lt less)

theorem le_of_lt (first : x.isNaN = false) (second : y.isNaN = false) (less : x < y) : x ≤ y := by
  rw [single_lt_iff_rank first second] at less
  exact (single_le_iff_rank first second).2 less.le

theorem firstGreatest_singleton (number : x.isNaN = false) : FirstGreatest [x] 0 x where
  here := rfl
  greatest y member := by
    rw [List.mem_singleton.1 member]
    exact (single_le_iff_rank number number).2 (le_refl _)
  first j before := absurd before (Nat.not_lt_zero j)

theorem FirstGreatest.beaten (h : FirstGreatest before best bestValue)
    (numbers : ∀ y ∈ before, y.isNaN = false) (number : x.isNaN = false) (less : bestValue < x) :
    FirstGreatest (before ++ [x]) before.length x := by
  have held := numbers bestValue (List.mem_of_getElem? h.here)
  have all : ∀ y ∈ before, y < x := fun y member =>
    lt_of_le_of_lt (numbers y member) held number (h.greatest y member) less
  refine ⟨List.getElem?_concat_length, fun y member => ?_, fun j earlier y place => ?_⟩
  · rcases List.mem_append.1 member with member | member
    · exact le_of_lt (numbers y member) number (all y member)
    · exact (firstGreatest_singleton number).greatest y member
  · rw [List.getElem?_append_left earlier] at place
    exact all y (List.mem_of_getElem? place)

theorem FirstGreatest.unbeaten (h : FirstGreatest before best bestValue)
    (numbers : ∀ y ∈ before, y.isNaN = false) (number : x.isNaN = false)
    (notLess : ¬ bestValue < x) : FirstGreatest (before ++ [x]) best bestValue := by
  have inside : best < before.length := (List.getElem?_eq_some_iff.1 h.here).1
  have held := numbers bestValue (List.mem_of_getElem? h.here)
  refine ⟨?_, fun y member => ?_, fun j earlier y place => ?_⟩
  · rw [List.getElem?_append_left inside, h.here]
  · rcases List.mem_append.1 member with member | member
    · exact h.greatest y member
    · rw [List.mem_singleton.1 member]
      exact le_of_not_lt held number notLess
  · rw [List.getElem?_append_left (Nat.lt_trans earlier inside)] at place
    exact h.first j earlier y place

theorem firstGreatest_argmaxFrom (xs : List Float32) (h : FirstGreatest before best bestValue)
    (numbers : ∀ y ∈ before ++ xs, y.isNaN = false) :
    ∃ x, FirstGreatest (before ++ xs) (argmaxFrom best bestValue before.length xs) x := by
  induction xs generalizing before best bestValue with
  | nil =>
    rw [List.append_nil]
    exact ⟨bestValue, h⟩
  | cons x xs ih =>
    have split : before ++ x :: xs = (before ++ [x]) ++ xs := by simp
    have length : before.length + 1 = (before ++ [x]).length := by simp
    have seen : ∀ y ∈ before, y.isNaN = false := fun y member =>
      numbers y (List.mem_append_left _ member)
    have number : x.isNaN = false := numbers x (by simp)
    rw [split] at numbers ⊢
    rw [argmaxFrom, length]
    by_cases less : bestValue < x
    · rw [if_pos less]
      exact ih (h.beaten seen number less) numbers
    · rw [if_neg less]
      exact ih (h.unbeaten seen number less) numbers

theorem firstGreatest_argmax? {i : Nat} (numbers : ∀ y ∈ values, y.isNaN = false)
    (found : argmax? values = some i) : ∃ x, FirstGreatest values i x := by
  cases values with
  | nil => cases found
  | cons x xs =>
    obtain rfl := Option.some.inj found
    exact firstGreatest_argmaxFrom xs
      (firstGreatest_singleton (numbers x List.mem_cons_self)) numbers

end Distribution

open TextCompletion.Distribution

namespace Params

/-- Parameters with which no token is drawn. -/
def IsGreedy (p : Params) : Prop :=
  p.temperature.isNaN = true ∨ p.temperature < 1e-7 ∨ p.topP ≤ 0

/-- Parameters that differ in seed, temperature and nucleus at most. -/
structure AlikeButDrawing (p p' : Params) : Prop where
  budgets : p'.maxNewTokens = p.maxNewTokens
  penalties : p'.repetitionPenalty = p.repetitionPenalty
  windows : p'.repeatLastN = p.repeatLastN

theorem not_pos_of_isNaN {x : Float} (none : x.isNaN = true) : ¬ 0 < x := by
  intro positive
  cases none.symm.trans (double_not_isNaN positive)

theorem isNaN_of_le {x y : Float} (le : x ≤ y) : x.isNaN = false := by
  rw [double_le_iff] at le
  have value : x.isNaN = x.toModel.unpack.isNaN := rfl
  rw [value]
  cases unpacked : x.toModel.unpack with
  | notANumber =>
    rw [unpacked] at le
    cases le
  | _ => rfl

theorem intoUnit_not_pos {x : Float} (low : x ≤ 0) : ¬ 0 < intoUnit x := by
  have number := isNaN_of_le low
  have zero : ¬ (0 : Float) < 0 := by decide
  rw [intoUnit, if_neg (by rw [number]; exact Bool.false_ne_true)]
  split
  · exact zero
  split
  · rename_i above
    -- nothing is at most zero and above 1
    have one : (0 : Float) < 1 := by decide
    have ordered : rank (0 : Float).toModel.unpack < rank x.toModel.unpack :=
      ((double_lt_iff_rank rfl rfl).1 one).trans ((double_lt_iff_rank rfl number).1 above)
    exact absurd low (double_not_le_zero ((double_lt_iff_rank rfl number).2 ordered))
  · exact fun positive => double_not_le_zero positive low

theorem IsGreedy.sampling {p : Params} (greedy : p.IsGreedy) : p.effective.sampling = .greedy := by
  rw [sampling_effective, if_neg]
  rintro ⟨draws, some, warm⟩
  rcases greedy with none | cold | low
  · exact not_pos_of_isNaN none draws
  · exact warm cold
  · exact intoUnit_not_pos low some

end Params

theorem Sampling.argmax_of_choose {word : UInt32} {logits : List Float32} {token : Nat}
    (chosen : Sampling.greedy.choose word logits = .ok token) : argmax? logits = some token := by
  rw [Sampling.choose, Sampling.weights?] at chosen
  cases found : argmax? logits with
  | none => simp [found] at chosen
  | some i =>
    rw [found] at chosen
    exact congrArg some (Except.ok.inj chosen)

namespace TokenLoop

variable {p p' : Params}

theorem chooseToken_congr (greedy : p.IsGreedy) (greedy' : p'.IsGreedy)
    (alike : p.AlikeButDrawing p') (n : Nat) (context : List Nat) (logits : List Float32) :
    p'.effective.chooseToken n context logits = p.effective.chooseToken n context logits := by
  have windows : p'.effective.repeatLastN = p.effective.repeatLastN := alike.windows
  have adjusted : p'.effective.adjust context logits = p.effective.adjust context logits := by
    apply SamplingConfig.adjust_congr
    · exact alike.penalties
    · rw [SamplingConfig.window, SamplingConfig.window, windows]
  simp only [SamplingConfig.chooseToken, greedy.sampling, greedy'.sampling, adjusted,
    Sampling.choose, Sampling.weights?]

/-- Two greedy runs that differ in what a draw would need are equal, calls, failures and all. Each
token of theirs is the first of the greatest logits, where these are numbers. -/
theorem run_greedy (greedy : p.IsGreedy) (greedy' : p'.IsGreedy) (alike : p.AlikeButDrawing p')
    {σ : Type} (d : Decoder σ) (stop : StopCondition) (prompt : List Nat) (s : σ) :
    run d p'.effective stop prompt s = run d p.effective stop prompt s ∧
    ∀ i token, (run d p.effective stop prompt s).drawn[i]? = some token →
      ∃ logits, d.answer? s (run d p.effective stop prompt s).calls i = some (.ok logits) ∧
        let adjusted := p.effective.adjust
          (prompt ++ (run d p.effective stop prompt s).accepted.take i) logits
        (∀ x ∈ adjusted, x.isNaN = false) → ∃ x, FirstGreatest adjusted token x := by
  have budgets : p'.effective.maxNewTokens = p.effective.maxNewTokens := by
    simp only [Params.effective, alike.budgets]
  refine ⟨?_, fun i token drawn => ?_⟩
  · exact run_congr budgets fun n context logits _ =>
      chooseToken_congr greedy greedy' alike n context logits
  · obtain ⟨logits, answer, choice⟩ := run_chooses drawn
    rw [SamplingConfig.chooseToken, greedy.sampling] at choice
    exact ⟨logits, answer, fun numbers =>
      firstGreatest_argmax? numbers (Sampling.argmax_of_choose choice)⟩

/-- A temperature that is no number, and a nucleus of no mass with another seed. -/
theorem run_greedy_secondOfThree :
    let p : Params := { maxNewTokens := 2, temperature := 0 / 0, seed := 1 }
    let p' : Params := { maxNewTokens := 2, temperature := 1, topP := -0, seed := 2 }
    let r := run (Decoder.recording secondOfThree) p.effective {} [0] []
    run (Decoder.recording secondOfThree) p'.effective {} [0] [] = r ∧ r.accepted = [1, 1] ∧
      ∃ x, FirstGreatest [0, 2, 1.5] 1 x := by
  obtain ⟨same, chosen⟩ := run_greedy
    (show ({ maxNewTokens := 2, temperature := 0 / 0, seed := 1 } : Params).IsGreedy from
      .inl (by decide))
    (show ({ maxNewTokens := 2, temperature := 1, topP := -0, seed := 2 } : Params).IsGreedy from
      .inr (.inr (by decide)))
    ⟨rfl, rfl, rfl⟩ (Decoder.recording secondOfThree) {} [0] []
  obtain ⟨logits, answer, greatest⟩ := chosen 0 1 (by rfl)
  obtain rfl : [0, 2, 1.5] = logits := Except.ok.inj (Option.some.inj answer)
  exact ⟨same, by rfl, greatest (by decide)⟩

end TokenLoop
end TextCompletion
