import TextCompletion.Params
import TextCompletion.Proofs.Decimal.FloatOrder

/-!
Parameters and what becomes of them. Normalising moves each value into its range, and leaves alone
what is in it. Main statement: a configuration comes out the same when its values are given once
more, and a temperature that is drawn at is positive.
-/

namespace TextCompletion

open Decimal

namespace SamplingConfig

attribute [ext] SamplingConfig

def toParams (c : SamplingConfig) : Params where
  maxNewTokens := Int64.ofNat c.maxNewTokens
  temperature := c.temperature
  topP := c.topP
  seed := c.seed
  repetitionPenalty := c.repetitionPenalty
  repeatLastN := c.repeatLastN

/-- Every value is in its range, and tokens are drawn if there is a temperature to draw at. -/
structure Normal (c : SamplingConfig) : Prop where
  someToken : 1 ≤ c.maxNewTokens
  fitting : c.maxNewTokens ≤ 2 ^ 63 - 1
  temperature : 0 < c.temperature ∨ c.temperature = 0
  nonnegative : 0 ≤ c.topP
  atMostOne : c.topP ≤ 1
  draws : c.doSample = decide (0 < c.temperature)
  answerOnly : c.returnFullText = false

end SamplingConfig

theorem atLeastZero_cases (x : Float) : 0 < atLeastZero x ∨ atLeastZero x = 0 := by
  unfold atLeastZero
  split
  · exact .inl ‹_›
  · exact .inr rfl

theorem atLeastZero_pos_iff {x : Float} : 0 < atLeastZero x ↔ 0 < x := by
  unfold atLeastZero
  split
  · rfl
  · rename_i small
    exact ⟨fun positive => absurd positive (by decide), fun positive => absurd positive small⟩

theorem intoUnit_nonneg (x : Float) : 0 ≤ intoUnit x := by
  unfold intoUnit
  split
  · decide
  rename_i number
  split
  · decide
  rename_i small
  split
  · decide
  exact double_le_of_not_lt (by decide) (by simpa using number) small

theorem intoUnit_le_one (x : Float) : intoUnit x ≤ 1 := by
  unfold intoUnit
  split
  · decide
  rename_i number
  split
  · decide
  split
  · decide
  rename_i large
  exact double_le_of_not_lt (by simpa using number) (by decide) large

theorem intoUnit_eq_self {x : Float} (nonnegative : 0 ≤ x) (atMostOne : x ≤ 1) :
    intoUnit x = x := by
  have number : ¬ x.isNaN = true := by
    rw [(double_not_isNaN_of_le nonnegative).2]
    exact Bool.false_ne_true
  rw [intoUnit, if_neg number, if_neg (double_not_lt_of_le nonnegative),
    if_neg (double_not_lt_of_le atMostOne)]

theorem Params.maxNewTokens_effective (p : Params) : (p.effective.maxNewTokens : Int) =
    if 0 < p.maxNewTokens.toInt then p.maxNewTokens.toInt else 1 := by
  have one : (1 : Int64).toInt = 1 := by decide
  simp only [effective, Int64.le_iff_toInt_le, one]
  split <;> split <;> omega

theorem Params.maxNewTokens_of_pos {p : Params} (positive : 0 < p.maxNewTokens) :
    (p.effective.maxNewTokens : Int) = p.maxNewTokens.toInt := by
  have zero : (0 : Int64).toInt = 0 := by decide
  rw [Int64.lt_iff_toInt_lt, zero] at positive
  rw [maxNewTokens_effective, if_pos positive]

theorem Params.normal_effective (p : Params) : p.effective.Normal where
  someToken := by
    have count := p.maxNewTokens_effective
    split at count <;> omega
  fitting := by
    have count := p.maxNewTokens_effective
    have small := Int64.toInt_lt p.maxNewTokens
    split at count <;> omega
  temperature := atLeastZero_cases _
  nonnegative := intoUnit_nonneg _
  atMostOne := intoUnit_le_one _
  draws := decide_eq_decide.2 atLeastZero_pos_iff.symm
  answerOnly := rfl

namespace SamplingConfig

variable {c : SamplingConfig}

theorem Normal.not_isNaN (normal : c.Normal) : c.temperature.isNaN = false := by
  rcases normal.temperature with positive | zero
  · exact double_not_isNaN positive
  · rw [zero]
    decide

theorem Normal.temperature_nonneg (normal : c.Normal) : 0 ≤ c.temperature := by
  rcases normal.temperature with positive | zero
  · exact double_le_of_not_lt (by decide) (double_not_isNaN positive) (double_not_lt_zero positive)
  · rw [zero]
    decide

theorem Normal.atLeastZero (normal : c.Normal) : atLeastZero c.temperature = c.temperature := by
  rcases normal.temperature with positive | zero
  · exact if_pos positive
  · rw [zero]
    exact if_neg (by decide)

theorem Normal.effective_toParams (normal : c.Normal) : c.toParams.effective = c := by
  have some := normal.someToken
  have fitting := normal.fitting
  have given : (Int64.ofNat c.maxNewTokens).toInt = c.maxNewTokens :=
    Int64.toInt_ofNat_of_lt (by omega)
  have tokens : (c.toParams.effective.maxNewTokens : Int) = c.maxNewTokens := by
    rw [Params.maxNewTokens_effective, toParams, given, if_pos (by omega)]
  exact SamplingConfig.ext (Int.ofNat_inj.1 tokens) normal.atLeastZero
    (intoUnit_eq_self normal.nonnegative normal.atMostOne) normal.draws.symm
    normal.answerOnly.symm rfl rfl rfl

theorem Normal.sampler (normal : c.Normal) {temperature : Float}
    (drawn : c.samplerTemperature = some temperature) : 0 < temperature ∧
      (c.samplerTopP = none ∨ ∃ topP, c.samplerTopP = some topP ∧ 0 < topP ∧ topP < 1) := by
  unfold samplerTemperature at drawn
  split at drawn
  · rename_i draws
    rw [Bool.and_eq_true, normal.draws, decide_eq_true_iff, decide_eq_true_iff] at draws
    obtain ⟨warm, some⟩ := draws
    refine ⟨Option.some.inj drawn ▸ warm, ?_⟩
    unfold samplerTopP
    split
    · rename_i narrow
      rw [Bool.and_eq_true, decide_eq_true_iff] at narrow
      exact .inr ⟨c.topP, rfl, some, narrow.2⟩
    · exact .inl rfl
  · cases drawn

end SamplingConfig

/-- Each value comes into its range, or stays if it was there; the values of the result come out the
same when they are given once more. -/
theorem Params.effective_normalises (p : Params) :
    (1 ≤ p.effective.maxNewTokens ∧ p.effective.maxNewTokens ≤ 2 ^ 63 - 1 ∧
      (0 < p.maxNewTokens → (p.effective.maxNewTokens : Int) = p.maxNewTokens.toInt)) ∧
    (p.effective.temperature.isNaN = false ∧ 0 ≤ p.effective.temperature ∧
      (0 < p.temperature → p.effective.temperature = p.temperature)) ∧
    (p.effective.topP.isNaN = false ∧ 0 ≤ p.effective.topP ∧ p.effective.topP ≤ 1 ∧
      (0 ≤ p.topP → p.topP ≤ 1 → p.effective.topP = p.topP)) ∧
    (p.effective.doSample = true ↔ 0 < p.effective.temperature) ∧
    (∀ temperature, p.effective.samplerTemperature = some temperature → 0 < temperature ∧
      (p.effective.samplerTopP = none ∨
        ∃ topP, p.effective.samplerTopP = some topP ∧ 0 < topP ∧ topP < 1)) ∧
    (p.effective.returnFullText = false ∧ p.effective.seed = p.seed ∧
      p.effective.repetitionPenalty = p.repetitionPenalty ∧
      p.effective.repeatLastN = p.repeatLastN) ∧
    (p.effective.toParams.effective = p.effective ∧
      p.effective.toParams.effective.samplerTemperature = p.effective.samplerTemperature ∧
      p.effective.toParams.effective.samplerTopP = p.effective.samplerTopP) := by
  have normal := p.normal_effective
  have again := normal.effective_toParams
  refine ⟨⟨normal.someToken, normal.fitting, fun positive => ?_⟩,
    ⟨normal.not_isNaN, normal.temperature_nonneg, fun positive => if_pos positive⟩,
    ⟨(double_not_isNaN_of_le normal.nonnegative).2, normal.nonnegative, normal.atMostOne,
      fun nonnegative atMostOne => intoUnit_eq_self nonnegative atMostOne⟩,
    ?_, fun temperature draws => normal.sampler draws, ⟨rfl, rfl, rfl, rfl⟩,
    again, congrArg _ again, congrArg _ again⟩
  · exact maxNewTokens_of_pos positive
  · rw [normal.draws, decide_eq_true_iff]

end TextCompletion
