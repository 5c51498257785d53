import TextCompletion.Json.Number
import TextCompletion.Proofs.Decimal.RoundingError

/-!
Arithmetic on doubles that are finite and carry no sign, as far as a significand and a power of ten
need it: how far results are from the exact ones, which of them are zero, and which are finite.
-/

namespace TextCompletion.Decimal

open Float.Model (Format UnpackedFloat totalExponent)
open Float.Model.UnpackedFloat

/-- The number is finite, carries no sign and has this value. -/
def HasValue (x : Float) (v : ℚ) : Prop := StandsFor x.toModel.unpack v

def IsZero (x : Float) : Prop := ∃ s, x.toModel.unpack = .zero s

section

variable {x y : Float} {q a b v : ℚ} {u : UnpackedFloat}

theorem beq_zero_iff : (x == 0) = true ↔ IsZero x := by
  have equal : (x == 0) = (x.toModel.unpack.compare (0 : Float).toModel.unpack == some .eq) := rfl
  rw [equal, unpack_double_zero, IsZero, beq_iff_eq]
  rcases x.toModel.unpack with (_ | _) | _ | s | ⟨_ | _, m, e, h⟩ <;>
    simp [UnpackedFloat.compare]

theorem HasValue.nonneg (value : HasValue x v) : 0 ≤ v := StandsFor.nonneg value

theorem HasValue.cases (value : HasValue x v) :
    x.toModel.unpack = .zero .positive ∧ v = 0 ∨
      ∃ m e h, x.toModel.unpack = .finite .positive m e h ∧ v = m * 2 ^ e ∧
        Normal .binary64 m e := by
  rcases StandsFor.cases value with zero | ⟨m, e, h, unpacked, rfl⟩
  · exact .inl zero
  · exact .inr ⟨m, e, h, unpacked, rfl, normal_of_unpack unpacked⟩

theorem HasValue.isZero_iff (value : HasValue x v) : IsZero x ↔ v = 0 := by
  rw [StandsFor.eq_zero_iff value]
  constructor
  · rintro ⟨s, unpacked⟩
    have stands : StandsFor x.toModel.unpack v := value
    rw [unpacked] at stands ⊢
    cases s with
    | negative => exact stands.elim
    | positive => rfl
  · exact fun unpacked => ⟨_, unpacked⟩

theorem HasValue.isInf_eq_false (value : HasValue x v) : x.isInf = false := by
  have unfolded : x.isInf = x.toModel.unpack.isInf := rfl
  rw [unfolded]
  obtain ⟨zero, -⟩ | ⟨m, e, h, unpacked, -⟩ := value.cases
  · rw [zero]
    rfl
  · rw [unpacked]
    rfl

theorem hasValue_of_positive (positive : IsPositive x.toModel.unpack) (finite : x.isInf = false) :
    ∃ v, HasValue x v ∧ 0 < v := by
  have unfolded : x.isInf = x.toModel.unpack.isInf := rfl
  rw [unfolded] at finite
  unfold HasValue
  generalize x.toModel.unpack = u at *
  cases u with
  | notANumber => exact positive.elim
  | zero s => exact positive.elim
  | infinity s => cases finite
  | finite s m e h =>
    cases s with
    | negative => exact positive.elim
    | positive => exact ⟨m * 2 ^ e, Eq.refl (_ : ℚ), by positivity⟩

/-! ## Bounds -/

theorem minExponent_double : Format.minExponent .binary64 = -1074 := by decide

theorem Near.bound (near : Near .binary64 q v) :
    |q - v| ≤ max (2 ^ (-1075 : ℤ)) (q / 2 ^ 53) := by
  have close := near.close
  rw [minExponent_double] at close
  exact close

theorem Near.eq_zero_iff (near : Near .binary64 q v) : v = 0 ↔ q ≤ 2 ^ (-1075 : ℤ) := by
  have zero := near.zero
  rw [minExponent_double] at zero
  exact zero

theorem Near.around (near : Near .binary64 q v) (large : 2 ^ (-1025 : ℤ) ≤ q) : Around 1 q v := by
  have positive : 0 ≤ q := le_trans (by positivity) large
  refine .of_abs positive (near.bound.trans (max_le ?_ ?_))
  · rw [le_div_iff₀ (by positivity)]
    refine le_trans (le_of_eq ?_) large
    rw [← zpow_natCast, ← zpow_add₀ two_ne_zero]
    rfl
  · exact div_le_div_of_nonneg_left positive (by norm_num) (by norm_num)

/-- What is this far from the greatest number is not rounded to infinity. -/
def range : ℚ := 3 * 2 ^ (1022 : ℤ)

theorem Near.lt (near : Near .binary64 q v) (small : q ≤ range) : v < 2 ^ (1024 : ℤ) := by
  have low := (abs_le.1 near.bound).1
  have unit : (0 : ℚ) < 2 ^ (1022 : ℤ) := by positivity
  have least : (2 : ℚ) ^ (-1075 : ℤ) ≤ 2 ^ (1022 : ℤ) / 2 := by
    rw [div_eq_mul_inv, ← zpow_sub_one₀ two_ne_zero]
    exact zpow_le_zpow_right₀ (by norm_num) (by norm_num)
  have top : (2 : ℚ) ^ (1024 : ℤ) = 2 ^ (1022 : ℤ) * 4 := by
    rw [show (1024 : ℤ) = 1022 + 2 from rfl, zpow_add₀ two_ne_zero]
    norm_num
  rw [range] at small
  rw [top]
  generalize (2 : ℚ) ^ (1022 : ℤ) = w at *
  generalize (2 : ℚ) ^ (-1075 : ℤ) = half at *
  clear top
  have part : q / 2 ^ 53 ≤ w / 2 := by
    rw [div_le_iff₀ (by positivity)]
    linarith
  have error := max_le least part
  linarith

theorem unpack_pack_of_lt (canonical : Canonical .binary64 u) (stands : StandsFor u v)
    (small : v < 2 ^ (1024 : ℤ)) : unpack .binary64 (pack .binary64 u) = u := by
  obtain ⟨rfl, -⟩ | ⟨m, e, h, rfl, rfl⟩ := stands.cases
  · rfl
  · have normal : Normal .binary64 m e := canonical
    have exponent : e < 1024 - 52 := by
      rcases normal.long with least | long
      · rw [least, minExponent_double]
        decide
      · have long : (2 : ℚ) ^ (52 : ℤ) ≤ m := by exact_mod_cast long
        rw [← zpow_lt_zpow_iff_right₀ (show (1 : ℚ) < 2 by norm_num), zpow_sub₀ two_ne_zero,
          lt_div_iff₀ (by positivity), mul_comm]
        exact (mul_le_mul_of_nonneg_right long (by positivity)).trans_lt small
    refine unpack_pack_finite normal ?_
    have bias : Format.exponentBias .binary64 = 1023 := by decide
    change (e + Format.exponentBias .binary64 + (52 : ℕ)).toNat + 1 < 2048
    rw [bias]
    omega

theorem hasValue_of_bits (some : 0 < x.toBits.toNat)
    (finite : x.toBits.toNat < topBits .binary64) :
    HasValue x (mantissaOf .binary64 x.toBits.toNat * 2 ^ exponentOf .binary64 x.toBits.toNat) := by
  have unpacked : ∃ h, x.toModel.unpack = .finite .positive (mantissaOf .binary64 x.toBits.toNat)
      (exponentOf .binary64 x.toBits.toNat) h := unpack_of_between some finite
  obtain ⟨h, same⟩ := unpacked
  rw [HasValue, same]
  exact Eq.refl (_ : ℚ)

theorem hasValue_of_near (near : Near .binary64 q v) (small : q ≤ range) (stands : StandsFor u v)
    (canonical : Canonical .binary64 u)
    (packed : x.toModel.unpack = unpack .binary64 (pack .binary64 u)) : HasValue x v := by
  rw [HasValue, packed, unpack_pack_of_lt canonical stands (near.lt small)]
  exact stands

/-! ## Results -/

theorem hasValue_div (first : HasValue x a) (second : HasValue y b) (some : 0 < b)
    (small : a / b ≤ range) : ∃ v, HasValue (x / y) v ∧ Near .binary64 (a / b) v := by
  have packed : (x / y).toModel.unpack =
      unpack .binary64 (pack .binary64 (div .binary64 x.toModel.unpack y.toModel.unpack)) := rfl
  obtain ⟨-, none⟩ | ⟨m', e', h', divisor, rfl, -⟩ := second.cases
  · exact absurd none some.ne'
  rw [divisor] at packed
  obtain ⟨zero, rfl⟩ | ⟨m, e, h, dividend, rfl, -⟩ := first.cases
  · have quotient : div .binary64 (.zero .positive) (.finite .positive m' e' h') =
        .zero .positive := rfl
    rw [zero, quotient] at packed
    refine ⟨0, ?_, ⟨?_, ?_⟩⟩
    · rw [HasValue, packed]
      exact Eq.refl (0 : ℚ)
    · rw [zero_div, sub_zero, abs_zero]
      exact le_max_of_le_left (by positivity)
    · rw [zero_div]
      exact iff_of_true rfl (by positivity)
  · rw [dividend] at packed
    obtain ⟨v, stands, near, canonical⟩ := near_div_finite .binary64 h h' rfl
    exact ⟨v, hasValue_of_near near small stands canonical packed, near⟩

theorem HasValue.exists_long (value : HasValue x v) (large : 1 / 2 ≤ v) :
    ∃ m e h, x.toModel.unpack = .finite .positive m e h ∧ v = m * 2 ^ e ∧ 2 ^ 52 ≤ m := by
  obtain ⟨-, rfl⟩ | ⟨m, e, h, unpacked, rfl, normal⟩ := value.cases
  · norm_num at large
  refine ⟨m, e, h, unpacked, rfl, normal.long.resolve_left fun least => ?_⟩
  have few : (m : ℚ) < 2 ^ (53 : ℤ) := by exact_mod_cast normal.small
  have less : (m : ℚ) * 2 ^ e < 2 ^ (53 : ℤ) * 2 ^ (-54 : ℤ) := by
    refine mul_lt_mul'' few (zpow_lt_zpow_right₀ (by norm_num) ?_) (by positivity) (by positivity)
    rw [least, minExponent_double]
    decide
  norm_num at less large
  linarith

theorem exists_packed_mul (first : HasValue x a) (second : HasValue y b) (large : 1 / 2 ≤ a)
    (large' : 1 / 2 ≤ b) : ∃ u v, (x * y).toModel.unpack = unpack .binary64 (pack .binary64 u) ∧
      StandsFor u v ∧ Near .binary64 (a * b) v ∧ Canonical .binary64 u := by
  obtain ⟨m, e, h, unpacked, rfl, long⟩ := first.exists_long large
  obtain ⟨m', e', h', unpacked', rfl, -⟩ := second.exists_long large'
  have value : (m * 2 ^ e * (m' * 2 ^ e') : ℚ) = (m * m' : ℕ) * 2 ^ (e + e') := by
    rw [zpow_add₀ two_ne_zero]
    push_cast
    ring
  have packed : (x * y).toModel.unpack = unpack .binary64 (pack .binary64
      (roundWithAccuracy .binary64 .positive (m * m') (e + e') .exact)) := by
    have product : (x * y).toModel.unpack =
      unpack .binary64 (pack .binary64 (mul .binary64 x.toModel.unpack y.toModel.unpack)) := rfl
    rw [product, unpacked, unpacked']
    rfl
  have low : e + e' ≤ Format.targetExponent .binary64 (totalExponent (m * m') (e + e')) :=
    le_targetExponent (.inr (long.trans (Nat.le_mul_of_pos_right m h')))
  obtain ⟨v, stands, near, canonical⟩ := near_roundWithAccuracy (keeps_exact (m * m')) low rfl
  exact ⟨_, v, packed, stands, value ▸ near, canonical⟩

theorem isInf_mul_eq_false (first : HasValue x a) (second : HasValue y b) (large : 1 / 2 ≤ a)
    (large' : 1 / 2 ≤ b) (small : a * b ≤ range) : (x * y).isInf = false := by
  obtain ⟨u, v, packed, stands, near, canonical⟩ := exists_packed_mul first second large large'
  exact (hasValue_of_near near small stands canonical packed).isInf_eq_false

/-- A product of numbers that are not small does not vanish. -/
theorem hasValue_mul (first : HasValue x a) (second : HasValue y b) (large : 1 / 2 ≤ a)
    (large' : 1 / 2 ≤ b) (finite : (x * y).isInf = false) : ∃ v, HasValue (x * y) v ∧ 0 < v := by
  obtain ⟨u, v, packed, stands, near, canonical⟩ := exists_packed_mul first second large large'
  have product : (1 / 2 * (1 / 2) : ℚ) ≤ a * b :=
    mul_le_mul large large' (by norm_num) first.nonneg
  have tiny : (2 : ℚ) ^ (-1075 : ℤ) < 2 ^ (-2 : ℤ) :=
    zpow_lt_zpow_right₀ (by norm_num) (by norm_num)
  have some : v ≠ 0 := by
    rw [Ne, near.eq_zero_iff, not_le]
    exact tiny.trans_le (le_trans (by norm_num) product)
  obtain ⟨-, zero⟩ | ⟨k, t, pos, rfl, -⟩ := stands.cases
  · exact absurd zero some
  · have normal : Normal .binary64 k t := canonical
    have positive : IsPositive (x * y).toModel.unpack :=
      packed ▸ pack_finite_positive (h := pos) normal.toFits
    exact hasValue_of_positive positive finite

theorem hasValue_zero_mul (first : HasValue x 0) (second : HasValue y b) (some : 0 < b) :
    HasValue (x * y) 0 := by
  have packed : (x * y).toModel.unpack =
      unpack .binary64 (pack .binary64 (mul .binary64 x.toModel.unpack y.toModel.unpack)) := rfl
  obtain ⟨-, rfl⟩ | ⟨m, e, h, unpacked, -, -⟩ := second.cases
  · exact absurd some (lt_irrefl 0)
  · have zero : x.toModel.unpack = .zero .positive := (StandsFor.eq_zero_iff first).1 rfl
    have product : mul .binary64 (.zero .positive) (.finite .positive m e h) =
        .zero .positive := rfl
    rw [zero, unpacked, product] at packed
    rw [HasValue, packed]
    exact Eq.refl (0 : ℚ)

/-! ## Signs -/

theorem fields_of_zero {c : BitVec (Format.numBits .binary64)} :
    (∃ s, unpack .binary64 c = .zero s) ↔ unpackExponent c = 0#_ ∧ unpackMantissa c = 0#_ := by
  have other : (0#11 : BitVec 11) ≠ -1#11 := by decide
  simp only [unpack]
  constructor
  · rintro ⟨s, zero⟩
    split at zero
    · split at zero <;> cases zero
    · split at zero
      · split at zero
        · exact ⟨‹_›, ‹_›⟩
        · cases zero
      · cases zero
  · rintro ⟨exponent, mantissa⟩
    rw [exponent, if_neg other, if_pos rfl, dif_pos mantissa]
    exact ⟨_, rfl⟩

theorem fields_pack (s s' : Sign) (m : ℕ) (e : ℤ) (h : 0 < m) :
    unpackExponent (pack .binary64 (.finite s m e h)) =
        unpackExponent (pack .binary64 (.finite s' m e h)) ∧
      unpackMantissa (pack .binary64 (.finite s m e h)) =
        unpackMantissa (pack .binary64 (.finite s' m e h)) := by
  simp only [pack]
  split
  · simp only [packedInfinity, unpackExponent_packComponents, unpackMantissa_packComponents,
      and_self]
  · split <;>
      simp only [unpackExponent_packComponents, unpackMantissa_packComponents, and_self]

theorem isZero_neg (value : HasValue x v) : IsZero (-x) ↔ IsZero x := by
  have packed : (-x).toModel.unpack =
      unpack .binary64 (pack .binary64 (neg x.toModel.unpack)) := rfl
  obtain ⟨zero, -⟩ | ⟨m, e, h, unpacked, -, normal⟩ := value.cases
  · rw [zero] at packed
    exact iff_of_true ⟨.negative, packed⟩ ⟨_, zero⟩
  · rw [unpacked] at packed
    have some := pack_finite_positive (h := h) normal.toFits
    have same := fields_pack (-.positive) .positive m e h
    refine iff_of_false ?_ ?_
    · rw [IsZero, packed, neg, fields_of_zero, same.1, same.2, ← fields_of_zero]
      rintro ⟨s, zero⟩
      rw [zero] at some
      exact some
    · rintro ⟨s, zero⟩
      rw [unpacked] at zero
      cases zero

end

/-! ## Significands and powers of ten -/

open Json (wordToFloat powerOfTen)

theorem hasValue_wordToFloat {n : ℕ} (fits : n < 2 ^ 64) :
    ∃ v, HasValue (wordToFloat n) v ∧ Around 1 (n : ℚ) v := by
  have word : (UInt64.ofNat n).toNat = n := UInt64.toNat_ofNat_of_lt fits
  have packed : (wordToFloat n).toModel.unpack =
      unpack .binary64 (pack .binary64 (ofNat .binary64 (UInt64.ofNat n).toNat)) := rfl
  rcases Nat.eq_zero_or_pos n with rfl | some
  · refine ⟨0, Eq.refl (0 : ℚ), .of_abs (by simp) (by simp)⟩
  have opened : ofNat .binary64 n = round .binary64 .positive n 0 := by
    have comparison : compare (n : ℤ) 0 = .gt := compare_gt_iff_gt.2 (by omega)
    simp only [ofNat, ofInt, UnpackedFloat.normalize, comparison, Int.toNat_natCast]
  have least : (1 : ℚ) ≤ n := by exact_mod_cast some
  have most : (n : ℚ) ≤ range := by
    have inside : (n : ℚ) < 2 ^ (64 : ℤ) := by exact_mod_cast fits
    have top : (2 : ℚ) ^ (64 : ℤ) ≤ 2 ^ (1022 : ℤ) :=
      zpow_le_zpow_right₀ (by norm_num) (by norm_num)
    exact (inside.le.trans top).trans (le_mul_of_one_le_left (by positivity) (by norm_num))
  obtain ⟨v, stands, near, canonical⟩ := near_round .binary64 some.ne' 0
  rw [zpow_zero, mul_one] at near
  rw [word, opened] at packed
  refine ⟨v, hasValue_of_near near most stands canonical packed, near.around ?_⟩
  exact le_trans (zpow_le_one_of_nonpos₀ (by norm_num) (by norm_num)) least

/-- Up to the greatest power that a double can hold, each is nearest to the exact one. -/
theorem fields_powerOfTen : ∀ k ≤ 308,
    0 < (powerOfTen k).toBits.toNat ∧ (powerOfTen k).toBits.toNat < topBits .binary64 ∧
    mantissaOf .binary64 (powerOfTen k).toBits.toNat *
        2 ^ (exponentOf .binary64 (powerOfTen k).toBits.toNat).toNat * 2 ^ 50 ≤
      10 ^ k * 2 ^ (-exponentOf .binary64 (powerOfTen k).toBits.toNat).toNat * (2 ^ 50 + 1) ∧
    10 ^ k * 2 ^ (-exponentOf .binary64 (powerOfTen k).toBits.toNat).toNat * (2 ^ 50 - 1) ≤
      mantissaOf .binary64 (powerOfTen k).toBits.toNat *
        2 ^ (exponentOf .binary64 (powerOfTen k).toBits.toNat).toNat * 2 ^ 50 := by
  decide +kernel

theorem hasValue_powerOfTen {k : ℕ} (small : k ≤ 308) :
    ∃ v, HasValue (powerOfTen k) v ∧ Around 1 (10 ^ k) v := by
  obtain ⟨some, finite, upper, lower⟩ := fields_powerOfTen k small
  refine ⟨_, hasValue_of_bits some finite, .of_abs (by positivity) ?_⟩
  generalize mantissaOf .binary64 (powerOfTen k).toBits.toNat = m at *
  generalize exponentOf .binary64 (powerOfTen k).toBits.toNat = e at *
  have unit : (0 : ℚ) < 2 ^ (-e).toNat := by positivity
  have whole : (m * 2 ^ e * 2 ^ (-e).toNat : ℚ) = m * 2 ^ e.toNat := by
    rw [mul_assoc, ← zpow_natCast, ← zpow_natCast, ← zpow_add₀ two_ne_zero]
    congr 2
    omega
  have upper : (m * 2 ^ e.toNat * 2 ^ 50 : ℚ) ≤ 10 ^ k * 2 ^ (-e).toNat * (2 ^ 50 + 1) := by
    exact_mod_cast upper
  have lower : (10 ^ k * 2 ^ (-e).toNat * (2 ^ 50 - 1) : ℚ) ≤ m * 2 ^ e.toNat * 2 ^ 50 := by
    have cast : ((2 ^ 50 - 1 : ℕ) : ℚ) = 2 ^ 50 - 1 := by norm_num
    rw [← cast]
    exact_mod_cast lower
  refine abs_le.2 ⟨le_of_mul_le_mul_right ?_ unit, le_of_mul_le_mul_right ?_ unit⟩
  · rw [sub_mul, whole]
    linarith
  · rw [sub_mul, whole]
    linarith

end TextCompletion.Decimal
