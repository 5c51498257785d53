import TextCompletion.Proofs.Decimal.DoubleArithmetic

/-!
A significand of 64 bits times a power of ten, as it is formed in double precision. The result is
zero just where the exact product, but for a few roundings, is at most half of the least number above
zero, and there is one at least up to 10 to the power 308.
-/

namespace TextCompletion.Decimal

open Json (wordToFloat powerOfTen scale? fraction?)

/-- The double is zero just where the exact number is, but for a few roundings, at most half of the
least one above zero. -/
def Reflects (V : ℚ) (y : Float) : Prop := ∃ q, Around 4 V q ∧ (IsZero y ↔ q ≤ 2 ^ (-1075 : ℤ))

/-! ## Powers of ten -/

theorem tenPower_range : (10 ^ 308 : ℚ) * (1 + 1 / 2 ^ 49) ^ 3 ≤ range := by
  have exact : (10 ^ 308 * (2 ^ 49 + 1) ^ 3 : ℕ) ≤ 3 * 2 ^ 1022 * (2 ^ 49) ^ 3 := by decide +kernel
  have cast : (10 ^ 308 * (2 ^ 49 + 1) ^ 3 : ℚ) ≤ 3 * 2 ^ (1022 : ℤ) * (2 ^ 49) ^ 3 := by
    exact_mod_cast exact
  have factor : (1 + 1 / 2 ^ 49 : ℚ) = (2 ^ 49 + 1) / 2 ^ 49 := by norm_num
  rw [factor, div_pow, mul_div_assoc', div_le_iff₀ (by positivity)]
  exact cast

theorem exists_powerOfTen {k : ℕ} (small : k ≤ 308) :
    ∃ p, HasValue (powerOfTen k) p ∧ Around 1 (10 ^ k) p ∧ 1 / 2 ≤ p := by
  obtain ⟨p, value, around⟩ := hasValue_powerOfTen small
  refine ⟨p, value, around, ?_⟩
  have least : (1 : ℚ) ≤ 10 ^ k := one_le_pow₀ (by norm_num)
  have near := around.1
  rw [pow_one] at near
  linarith

section

variable {x : Float} {v : ℚ} {fuel k : ℕ} {e : ℤ}

theorem scale?_of_small (small : e.natAbs ≤ 308) :
    scale? (fuel + 1) x e =
      if 0 ≤ e then
        if (x * powerOfTen e.natAbs).isInf then none else some (x * powerOfTen e.natAbs)
      else some (x / powerOfTen e.natAbs) := by
  rw [scale?, if_pos small]

theorem scale?_of_large (value : HasValue x v) (large : ¬e.natAbs ≤ 308) :
    scale? (fuel + 1) x e =
      if v = 0 then some x
      else if 0 ≤ e then none
      else scale? fuel (x / powerOfTen 308) (e + 308) := by
  rw [scale?, if_neg large]
  simp only [beq_zero_iff, value.isZero_iff]

theorem exists_div_powerOfTen (value : HasValue x v) (few : v ≤ 2 ^ 100) (small : k ≤ 308) :
    ∃ q w, HasValue (x / powerOfTen k) w ∧ Around 1 (v / 10 ^ k) q ∧ 0 ≤ q ∧
      Near .binary64 q w := by
  obtain ⟨p, power, around, large⟩ := exists_powerOfTen small
  have some : 0 < p := lt_of_lt_of_le (by norm_num) large
  have room : v / p ≤ range := by
    rw [div_le_iff₀ some]
    have top : (2 ^ 100 : ℚ) * 2 ≤ 2 ^ (1022 : ℤ) := by
      rw [← pow_succ, ← zpow_natCast]
      exact zpow_le_zpow_right₀ (by norm_num) (by norm_num)
    have unit : (0 : ℚ) < 2 ^ (1022 : ℤ) := by positivity
    unfold range
    generalize (2 : ℚ) ^ (1022 : ℤ) = w at *
    nlinarith
  obtain ⟨w, quotient, near⟩ := hasValue_div value power some room
  refine ⟨v / p, w, quotient, ?_, div_nonneg value.nonneg some.le, near⟩
  simpa using (Around.refl v).div around value.nonneg value.nonneg (by positivity) some

theorem exists_scale?_zero (value : HasValue x 0) (fuel : ℕ) (e : ℤ) :
    ∃ y, scale? (fuel + 1) x e = some y ∧ HasValue y 0 := by
  by_cases small : e.natAbs ≤ 308
  · rw [scale?_of_small small]
    by_cases up : 0 ≤ e
    · obtain ⟨p, power, -, large⟩ := exists_powerOfTen small
      have product := hasValue_zero_mul value power (lt_of_lt_of_le (by norm_num) large)
      refine ⟨_, ?_, product⟩
      rw [if_pos up, product.isInf_eq_false]
      rfl
    · obtain ⟨q, w, quotient, around, -, near⟩ :=
        exists_div_powerOfTen value (by positivity) small
      have none : q ≤ 0 := by simpa using around.2
      obtain rfl : w = 0 := near.eq_zero_iff.2 (none.trans (by positivity))
      exact ⟨_, if_neg up, quotient⟩
  · exact ⟨x, by rw [scale?_of_large value small, if_pos rfl], value⟩

end

/-! ## Products -/

section

variable {y : Float} {V w q : ℚ} {n k : ℕ} {e : ℤ}

theorem HasValue.reflects (value : HasValue y w) (around : Around 4 V q)
    (zero : w = 0 ↔ q ≤ 2 ^ (-1075 : ℤ)) : Reflects V y :=
  ⟨q, around, value.isZero_iff.trans zero⟩

theorem around_self (nonneg : 0 ≤ V) : Around 4 V V :=
  (Around.refl V).mono nonneg nonneg (Nat.zero_le 4)

theorem HasValue.reflects_small (value : HasValue y 0) (nonneg : 0 ≤ V)
    (small : V ≤ 2 ^ (-1075 : ℤ)) : Reflects V y :=
  value.reflects (around_self nonneg) (iff_of_true rfl small)

theorem HasValue.reflects_large (value : HasValue y w) (some : 0 < w) (large : 1 ≤ V) :
    Reflects V y := by
  have tiny : (2 : ℚ) ^ (-1075 : ℤ) < 1 := zpow_lt_one_of_neg₀ (by norm_num) (by norm_num)
  exact value.reflects (around_self (zero_le_one.trans large))
    (iff_of_false some.ne' (not_le.2 (tiny.trans_le large)))

/-- The significand as a double: it is zero or at least near one. -/
theorem exists_wordToFloat (fits : n < 2 ^ 64) :
    ∃ v, HasValue (wordToFloat n) v ∧ Around 1 (n : ℚ) v ∧ v ≤ 2 ^ 65 ∧
      (n = 0 ∧ v = 0 ∨ 0 < n ∧ 1 / 2 ≤ v) := by
  obtain ⟨v, value, around⟩ := hasValue_wordToFloat fits
  have below : (n : ℚ) < 2 ^ 64 := by exact_mod_cast fits
  have low := around.1
  have high := around.2
  rw [pow_one] at low high
  refine ⟨v, value, around, by linarith, ?_⟩
  rcases Nat.eq_zero_or_pos n with rfl | some
  · exact .inl ⟨rfl, (around.eq_zero_iff (Nat.cast_nonneg 0) value.nonneg).1 Nat.cast_zero⟩
  · have least : (1 : ℚ) ≤ n := by exact_mod_cast some
    exact .inr ⟨some, by linarith⟩

theorem scale?_up_once {x : Float} {v : ℚ} (value : HasValue x v) (around : Around 1 V v)
    (nonneg : 0 ≤ V) (large : 1 / 2 ≤ v) (small : k ≤ 308) (fuel : ℕ) :
    (∃ y w, scale? (fuel + 1) x k = some y ∧ HasValue y w ∧ 0 < w) ∨
      scale? (fuel + 1) x k = none ∧ 10 ^ 308 * (1 + 1 / 2 ^ 49) < V * 10 ^ k := by
  have size : (k : ℤ).natAbs = k := Int.natAbs_natCast k
  rw [scale?_of_small (size.le.trans small), if_pos (Int.natCast_nonneg k), size]
  obtain ⟨p, power, around', large'⟩ := exists_powerOfTen small
  cases infinite : (x * powerOfTen k).isInf with
  | false =>
    obtain ⟨w, product, some⟩ := hasValue_mul value power large large' infinite
    exact .inl ⟨_, w, rfl, product, some⟩
  | true =>
    refine .inr ⟨rfl, not_le.1 fun low => ?_⟩
    have product := (around.mul around' nonneg value.nonneg (by positivity) power.nonneg).2
    have room : v * p ≤ range :=
      calc v * p ≤ V * 10 ^ k * (1 + 1 / 2 ^ 49) ^ 2 := product
        _ ≤ 10 ^ 308 * (1 + 1 / 2 ^ 49) * (1 + 1 / 2 ^ 49) ^ 2 :=
          mul_le_mul_of_nonneg_right low (by positivity)
        _ = 10 ^ 308 * (1 + 1 / 2 ^ 49) ^ 3 := by rw [mul_assoc, ← pow_succ']
        _ ≤ range := tenPower_range
    rw [isInf_mul_eq_false value power large large' room] at infinite
    cases infinite

theorem lt_mul_pow_of_large (least : 1 ≤ V) (large : 308 < k) :
    10 ^ 308 * (1 + 1 / 2 ^ 49) < V * 10 ^ k := by
  have long : (10 ^ 308 * 10 : ℚ) ≤ 10 ^ k := by
    rw [← pow_succ]
    exact pow_le_pow_right₀ (by norm_num) large
  calc (10 ^ 308 * (1 + 1 / 2 ^ 49) : ℚ) < 10 ^ 308 * 10 :=
        mul_lt_mul_of_pos_left (by norm_num) (by positivity)
    _ ≤ 10 ^ k := long
    _ ≤ V * 10 ^ k := le_mul_of_one_le_left (by positivity) least

theorem scale?_up (fits : n < 2 ^ 64) (k : ℕ) :
    (∃ y w, scale? 4 (wordToFloat n) k = some y ∧ HasValue y w ∧ Reflects (n * 10 ^ k) y) ∨
      scale? 4 (wordToFloat n) k = none ∧ 10 ^ 308 * (1 + 1 / 2 ^ 49) < (n * 10 ^ k : ℚ) := by
  obtain ⟨v, value, around, -, ⟨rfl, rfl⟩ | ⟨some, large⟩⟩ := exists_wordToFloat fits
  · obtain ⟨y, scaled, zero⟩ := exists_scale?_zero value 3 k
    refine .inl ⟨y, 0, scaled, zero, zero.reflects_small (by positivity) ?_⟩
    rw [Nat.cast_zero, zero_mul]
    positivity
  have least : (1 : ℚ) ≤ n := by exact_mod_cast some
  by_cases small : k ≤ 308
  · refine (scale?_up_once value around (Nat.cast_nonneg n) large small 3).imp_left ?_
    rintro ⟨y, w, scaled, product, some⟩
    refine ⟨y, w, scaled, product, product.reflects_large some ?_⟩
    exact one_le_mul_of_one_le_of_one_le least (one_le_pow₀ (by norm_num))
  · have positive : v ≠ 0 := by
      rintro rfl
      norm_num at large
    rw [scale?_of_large value (by omega), if_neg positive, if_pos (Int.natCast_nonneg k)]
    exact .inr ⟨rfl, lt_mul_pow_of_large least (Nat.lt_of_not_le small)⟩

theorem range_le : range ≤ 2 ^ (1025 : ℤ) := by
  have top : (2 : ℚ) ^ (1025 : ℤ) = 8 * 2 ^ (1022 : ℤ) := by
    rw [show (1025 : ℤ) = 3 + 1022 from rfl, zpow_add₀ two_ne_zero]
    norm_num
  rw [top, range]
  exact mul_le_mul_of_nonneg_right (by norm_num) (by positivity)

theorem least_of_around (pos : 0 < n) (around : Around 2 (n / 10 ^ 308 : ℚ) q) (nonneg : 0 ≤ q) :
    (2 : ℚ) ^ (-1025 : ℤ) ≤ q := by
  have one : (1 : ℚ) ≤ n := by exact_mod_cast pos
  have ten : (0 : ℚ) < 10 ^ 308 := by positivity
  have few := tenPower_range.trans range_le
  have low := around.1
  rw [zpow_neg, inv_le_iff_one_le_mul₀ (by positivity)]
  generalize (10 ^ 308 : ℚ) = power at *
  generalize (2 ^ (1025 : ℤ) : ℚ) = top at *
  rw [div_le_iff₀ ten] at low
  calc (1 : ℚ) ≤ q * (1 + 1 / 2 ^ 49) ^ 2 * power := one.trans low
    _ = q * (power * (1 + 1 / 2 ^ 49) ^ 2) := by ring
    _ ≤ q * (power * (1 + 1 / 2 ^ 49) ^ 3) := by
      refine mul_le_mul_of_nonneg_left (mul_le_mul_of_nonneg_left ?_ ten.le) nonneg
      exact pow_le_pow_right₀ (by norm_num) (by norm_num)
    _ ≤ q * top := mul_le_mul_of_nonneg_left few nonneg

/-- One division takes a significand as far down as the least normal numbers, or nearly so. -/
theorem exists_first_quotient (fits : n < 2 ^ 64) (pos : 0 < n) :
    ∃ w, HasValue (wordToFloat n / powerOfTen 308) w ∧ Around 3 (n / 10 ^ 308) w ∧ w ≠ 0 ∧
      w ≤ 2 ^ 100 := by
  obtain ⟨v, value, around, few, -⟩ := exists_wordToFloat fits
  obtain ⟨q, w, quotient, around', nonneg, near⟩ :=
    exists_div_powerOfTen value (few.trans (by norm_num)) (le_refl 308)
  have ten : (0 : ℚ) < 10 ^ 308 := by positivity
  have exact := (around.div_right (Nat.cast_nonneg n) value.nonneg ten).trans around'
  have least := least_of_around pos exact nonneg
  have all := exact.trans (near.around least)
  refine ⟨w, quotient, all, ?_, ?_⟩
  · rw [Ne, near.eq_zero_iff, not_le]
    exact (zpow_lt_zpow_right₀ (by norm_num) (by norm_num)).trans_le least
  · have below : (n : ℚ) < 2 ^ 64 := by exact_mod_cast fits
    have part : (n / 10 ^ 308 : ℚ) ≤ n :=
      div_le_self (Nat.cast_nonneg n) (one_le_pow₀ (by norm_num))
    calc w ≤ n / 10 ^ 308 * (1 + 1 / 2 ^ 49) ^ 3 := all.2
      _ ≤ 2 ^ 64 * (1 + 1 / 2 ^ 49) ^ 3 :=
        mul_le_mul_of_nonneg_right (part.trans below.le) (by positivity)
      _ ≤ 2 ^ 100 := by norm_num

/-- Two divisions bring every significand below half of the least number above zero. -/
theorem twice_divided_le (fits : n < 2 ^ 64) :
    (n / 10 ^ 308 / 10 ^ 308 : ℚ) * (1 + 1 / 2 ^ 49) ^ 4 ≤ 2 ^ (-1075 : ℤ) := by
  have below : (n : ℚ) < 2 ^ 64 := by exact_mod_cast fits
  have large : (2 : ℚ) ^ (924 : ℤ) ≤ 10 ^ 308 := by
    have power : (2 : ℚ) ^ (924 : ℤ) = (2 ^ (3 : ℤ)) ^ (308 : ℤ) := by rw [← zpow_mul]; rfl
    rw [power, ← zpow_natCast]
    exact zpow_le_zpow_left₀ (by norm_num) (by norm_num) (by norm_num)
  have lower : (2 : ℚ) ^ (65 : ℤ) ≤ 2 ^ (-1075 : ℤ) * (2 ^ (924 : ℤ) * 2 ^ (924 : ℤ)) := by
    rw [← zpow_add₀ two_ne_zero, ← zpow_add₀ two_ne_zero]
    exact zpow_le_zpow_right₀ (by norm_num) (by norm_num)
  rw [div_div, div_mul_eq_mul_div, div_le_iff₀ (by positivity)]
  calc (n : ℚ) * (1 + 1 / 2 ^ 49) ^ 4 ≤ 2 ^ 64 * 2 :=
        mul_le_mul below.le (by norm_num) (by positivity) (by positivity)
    _ = 2 ^ (65 : ℤ) := by norm_num
    _ ≤ 2 ^ (-1075 : ℤ) * (2 ^ (924 : ℤ) * 2 ^ (924 : ℤ)) := lower
    _ ≤ 2 ^ (-1075 : ℤ) * (10 ^ 308 * 10 ^ 308) := by
      refine mul_le_mul_of_nonneg_left ?_ (by positivity)
      exact mul_le_mul large large (by positivity) (by positivity)

theorem exists_scale?_near {x : Float} {v : ℚ} (value : HasValue x v) (around : Around 3 V v)
    (nonneg : 0 ≤ V) (few : v ≤ 2 ^ 100) (pos : 0 < k) (small : k ≤ 308) (fuel : ℕ) :
    ∃ y w, scale? (fuel + 1) x (-k) = some y ∧ HasValue y w ∧ Reflects (V / 10 ^ k) y := by
  have size : (-(k : ℤ)).natAbs = k := by rw [Int.natAbs_neg, Int.natAbs_natCast]
  obtain ⟨q, w, quotient, around', -, near⟩ := exists_div_powerOfTen value few small
  rw [scale?_of_small (size.le.trans small), if_neg (by omega), size]
  refine ⟨_, w, rfl, quotient, quotient.reflects ?_ near.eq_zero_iff⟩
  have total := (around.div_right nonneg value.nonneg (by positivity)).trans around'
  exact total

theorem exists_scale?_far {x : Float} {v : ℚ} (value : HasValue x v)
    (around : Around 3 (n / 10 ^ 308 : ℚ) v) (nonzero : v ≠ 0) (few : v ≤ 2 ^ 100)
    (fits : n < 2 ^ 64) (far : 308 < k) (fuel : ℕ) :
    ∃ y w, scale? (fuel + 2) x (-k) = some y ∧ HasValue y w ∧
      Reflects (n / 10 ^ 308 / 10 ^ k) y := by
  obtain ⟨q, w, quotient, around', -, near⟩ := exists_div_powerOfTen value few (le_refl 308)
  have exact := (around.div_right (by positivity) value.nonneg (by positivity)).trans around'
  have tiny := twice_divided_le fits
  obtain rfl : w = 0 := near.eq_zero_iff.2 (exact.2.trans tiny)
  rw [scale?_of_large value (by omega), if_neg nonzero, if_neg (by omega)]
  obtain ⟨y, scaled, zero⟩ := exists_scale?_zero quotient fuel (-k + 308)
  refine ⟨y, 0, scaled, zero, zero.reflects_small (by positivity) ?_⟩
  have less : (n / 10 ^ 308 / 10 ^ k : ℚ) ≤ n / 10 ^ 308 / 10 ^ 308 :=
    div_le_div_of_nonneg_left (by positivity) (by positivity)
      (pow_le_pow_right₀ (by norm_num) far.le)
  refine less.trans (le_trans (le_mul_of_one_le_right (by positivity) ?_) tiny)
  exact one_le_pow₀ (by norm_num)

theorem exists_scale?_down (fits : n < 2 ^ 64) (pos : 0 < k) :
    ∃ y w, scale? 4 (wordToFloat n) (-k) = some y ∧ HasValue y w ∧ Reflects (n / 10 ^ k) y := by
  obtain ⟨v, value, around, few, ⟨rfl, rfl⟩ | ⟨nonzero, large⟩⟩ := exists_wordToFloat fits
  · obtain ⟨y, scaled, zero⟩ := exists_scale?_zero value 3 (-k)
    refine ⟨y, 0, scaled, zero, zero.reflects_small (by positivity) ?_⟩
    rw [Nat.cast_zero, zero_div]
    positivity
  by_cases small : k ≤ 308
  · exact exists_scale?_near value (around.mono (by positivity) value.nonneg (by decide))
      (by positivity) (few.trans (by norm_num)) pos small 3
  obtain ⟨j, rfl, later⟩ : ∃ j, k = 308 + j ∧ 0 < j := ⟨k - 308, by omega, by omega⟩
  have positive : v ≠ 0 := by
    rintro rfl
    norm_num at large
  have left : -((308 + j : ℕ) : ℤ) + 308 = -j := by omega
  have split : (n / 10 ^ (308 + j) : ℚ) = n / 10 ^ 308 / 10 ^ j := by rw [pow_add, div_div]
  obtain ⟨w, quotient, around', positive', few'⟩ := exists_first_quotient fits nonzero
  rw [scale?_of_large value (by omega), if_neg positive, if_neg (by omega), left, split]
  by_cases near : j ≤ 308
  · exact exists_scale?_near quotient around' (by positivity) few' later near 2
  · exact exists_scale?_far quotient around' positive' few' fits (Nat.lt_of_not_le near) 1

theorem Reflects.signed {y : Float} (reflects : Reflects V y) (value : HasValue y w)
    (negative : Bool) : Reflects V (if negative then -y else y) := by
  obtain ⟨q, around, zero⟩ := reflects
  cases negative with
  | false => exact ⟨q, around, zero⟩
  | true => exact ⟨q, around, (isZero_neg value).trans zero⟩

theorem fraction?_cases (fits : n < 2 ^ 64) (negative : Bool) (e : ℤ) :
    (∃ y, fraction? negative n e = some y ∧ Reflects (n * 10 ^ e) y) ∨
      fraction? negative n e = none ∧ 10 ^ 308 * (1 + 1 / 2 ^ 49) < (n * 10 ^ e : ℚ) := by
  have signed {y : Float} {w : ℚ} (scaled : scale? 4 (wordToFloat n) e = some y)
      (value : HasValue y w) (reflects : Reflects (n * 10 ^ e) y) :
      ∃ y, fraction? negative n e = some y ∧ Reflects (n * 10 ^ e) y :=
    ⟨_, by rw [fraction?, scaled]; rfl, reflects.signed value negative⟩
  rcases le_or_gt 0 e with up | down
  · obtain ⟨k, rfl⟩ := Int.eq_ofNat_of_zero_le up
    rw [zpow_natCast] at signed ⊢
    rcases scale?_up fits k with ⟨y, w, scaled, value, reflects⟩ | ⟨none, beyond⟩
    · exact .inl (signed scaled value reflects)
    · exact .inr ⟨by rw [fraction?, none]; rfl, beyond⟩
  · obtain ⟨k, rfl⟩ : ∃ k : ℕ, e = -k := ⟨e.natAbs, by omega⟩
    rw [zpow_neg, zpow_natCast, ← div_eq_mul_inv] at signed ⊢
    obtain ⟨y, w, scaled, value, reflects⟩ := exists_scale?_down fits (show 0 < k by omega)
    exact .inl (signed scaled value reflects)

end

end TextCompletion.Decimal
