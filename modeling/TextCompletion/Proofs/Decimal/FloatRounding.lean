import TextCompletion.Proofs.Decimal.FloatSums

/-!
Rounding to the nearest single. The bits of singles that are not below zero count the numbers that a
single can hold, in the order of their values, and a rounded result is the nearest of them. Main
statement: whatever its mantissa, exponent and lost bits say, a number is rounded to the nearest.
What ties are resolved to is left open, since no bound below depends on it.
-/

namespace TextCompletion.Decimal

open Float.Model (Format UnpackedFloat totalExponent)
open Float.Model.UnpackedFloat

/-- The value that some bits spell. Those of infinity are read as if they were the next number. -/
def valueOf (n : ℕ) : ℚ := mantissaOf .binary32 n * 2 ^ exponentOf .binary32 n

theorem exponentOf_single (n : ℕ) : exponentOf .binary32 n = (max (n / 8388608) 1 : ℕ) - 150 := rfl

theorem mantissaOf_single (n : ℕ) : mantissaOf .binary32 n =
    if n / 8388608 = 0 then n % 8388608 else 8388608 + n % 8388608 := rfl

theorem valueOf_units {units : ℕ} {t : ℤ} (least : -149 ≤ t) (normal : t = -149 ∨ 8388608 ≤ units)
    (few : units ≤ 16777216) :
    valueOf ((t + 149).toNat * 8388608 + units) = units * 2 ^ t := by
  rw [valueOf, exponentOf_single, mantissaOf_single]
  have quotient : ((t + 149).toNat * 8388608 + units) / 8388608 =
      (t + 149).toNat + units / 8388608 := by omega
  have remainder : ((t + 149).toNat * 8388608 + units) % 8388608 = units % 8388608 := by omega
  rw [quotient, remainder]
  rcases Nat.lt_or_ge units 8388608 with subnormal | whole
  · obtain rfl : t = -149 := by omega
    have none : units / 8388608 = 0 := by omega
    simp [none, Nat.mod_eq_of_lt subnormal]
  · rcases Nat.lt_or_eq_of_le few with inside | rfl
    · have exponent : ((max ((t + 149).toNat + units / 8388608) 1 : ℕ) : ℤ) - 150 = t := by omega
      have mantissa : 8388608 + units % 8388608 = units := by omega
      rw [exponent, if_neg (by omega), mantissa]
    · have exponent : ((max ((t + 149).toNat + 16777216 / 8388608) 1 : ℕ) : ℤ) - 150 = t + 1 := by
        omega
      rw [exponent, if_neg (by omega), zpow_add_one₀ (by norm_num)]
      push_cast
      ring

theorem valueOf_zero : valueOf 0 = 0 := by
  rw [valueOf, mantissaOf_single]
  simp

def powerBits (k : ℤ) : ℕ := (k + 127).toNat * 8388608

theorem valueOf_powerBits {k : ℤ} (least : -126 ≤ k) : valueOf (powerBits k) = 2 ^ k := by
  have bits : powerBits k = (k - 23 + 149).toNat * 8388608 + 8388608 := by
    rw [powerBits]
    omega
  rw [bits, valueOf_units (by omega) (.inr le_rfl) (by decide), zpow_sub₀ two_ne_zero]
  norm_num
  ring

theorem units_of_bits (n : ℕ) : -149 ≤ exponentOf .binary32 n ∧
    (exponentOf .binary32 n = -149 ∨ 8388608 ≤ mantissaOf .binary32 n) ∧
    mantissaOf .binary32 n < 16777216 ∧
    (exponentOf .binary32 n + 149).toNat * 8388608 + mantissaOf .binary32 n = n := by
  rw [exponentOf_single, mantissaOf_single]
  split <;> omega

theorem valueOf_succ (n : ℕ) : valueOf (n + 1) = valueOf n + 2 ^ exponentOf .binary32 n := by
  obtain ⟨least, normal, few, bits⟩ := units_of_bits n
  have next := valueOf_units least (normal.imp_right Nat.le_succ_of_le) few
  rw [Nat.succ_eq_add_one, ← Nat.add_assoc, bits] at next
  rw [next, valueOf]
  push_cast
  ring

theorem valueOf_strictMono : StrictMono valueOf := by
  refine strictMono_nat_of_lt_succ fun n => ?_
  rw [valueOf_succ]
  exact lt_add_of_pos_right _ (by positivity)

theorem units_le_valueOf {n : ℕ} (normal : 8388608 ≤ n + 1) :
    8388608 * 2 ^ exponentOf .binary32 n ≤ valueOf (n + 1) := by
  have exponents : exponentOf .binary32 n ≤ exponentOf .binary32 (n + 1) := by
    rw [exponentOf_single, exponentOf_single]
    omega
  have whole : 8388608 ≤ mantissaOf .binary32 (n + 1) := by
    rw [mantissaOf_single, if_neg (by omega)]
    omega
  rw [valueOf]
  exact mul_le_mul (by exact_mod_cast whole) (zpow_le_zpow_right₀ (by norm_num) exponents)
    (by positivity) (Nat.cast_nonneg _)

/-- Rounding to the nearest: what lies below the middle of two neighbours does not come out as the
upper one, and what lies above it does not come out as the lower one. -/
structure Rounds (q : ℚ) (n : ℕ) : Prop where
  below : ∀ m, 2 * q < valueOf m + valueOf (m + 1) → n ≤ m
  above : ∀ m < topBits .binary32, valueOf m + valueOf (m + 1) < 2 * q → m < n
  inside : n ≤ topBits .binary32

namespace Rounds

variable {q : ℚ} {n m : ℕ}

theorem le_of_le (h : Rounds q n) (inside : m ≤ topBits .binary32) (le : valueOf m ≤ q) : m ≤ n := by
  cases m with
  | zero => exact Nat.zero_le n
  | succ k =>
    have less := valueOf_strictMono (Nat.lt_succ_self k)
    exact h.above k inside (by linarith)

theorem ge_of_le (h : Rounds q n) (le : q ≤ valueOf m) : n ≤ m := by
  have less := valueOf_strictMono (Nat.lt_succ_self m)
  exact h.below m (by linarith)

end Rounds

theorem rounds_self {n : ℕ} (inside : n ≤ topBits .binary32) : Rounds (valueOf n) n := by
  refine ⟨fun m less => ?_, fun m _ less => ?_, inside⟩
  · by_contra beyond
    have first := valueOf_strictMono.monotone (Nat.le_of_not_le beyond)
    have second : valueOf (m + 1) ≤ valueOf n := valueOf_strictMono.monotone (by omega)
    linarith
  · by_contra beyond
    have first : valueOf n ≤ valueOf m := valueOf_strictMono.monotone (Nat.le_of_not_lt beyond)
    have second := valueOf_strictMono (Nat.lt_succ_self m)
    linarith

theorem rounds_of_near {q : ℚ} {units : ℕ} {t : ℤ} (least : -149 ≤ t)
    (normal : t = -149 ∨ 8388608 * 2 ^ t ≤ q) (few : units ≤ 16777216)
    (near : |q - units * 2 ^ t| ≤ 2 ^ t / 2) :
    Rounds q (min ((t + 149).toNat * 8388608 + units) (topBits .binary32)) := by
  have unit : (0 : ℚ) < 2 ^ t := by positivity
  obtain ⟨low, high⟩ := abs_le.1 near
  have normal' : t = -149 ∨ 8388608 ≤ units := by
    refine normal.imp_right fun large => ?_
    by_contra short
    have : (units : ℚ) + 1 ≤ 8388608 := by
      exact_mod_cast Nat.lt_of_not_le short
    nlinarith
  have value := valueOf_units least normal' few
  generalize bits : (t + 149).toNat * 8388608 + units = n at *
  have exponent : t ≤ exponentOf .binary32 n := by
    rw [exponentOf_single]
    omega
  have next : valueOf n + 2 ^ t ≤ valueOf (n + 1) := by
    rw [valueOf_succ]
    gcongr
    norm_num
  refine ⟨fun m less => ?_, fun m inside less => ?_, Nat.min_le_right _ _⟩
  · refine (Nat.min_le_left _ _).trans ?_
    by_contra beyond
    obtain ⟨k, rfl⟩ : ∃ k, n = k + 1 := ⟨n - 1, by omega⟩
    have first : valueOf m ≤ valueOf k := valueOf_strictMono.monotone (by omega)
    have second : valueOf (m + 1) ≤ valueOf (k + 1) := valueOf_strictMono.monotone (by omega)
    have step := valueOf_succ k
    by_cases carried : t ≠ -149 ∧ units = 8388608
    · -- the neighbour below has smaller units, but nothing is rounded up to this one
      have large := normal.resolve_left carried.1
      rw [carried.2] at value
      have less := valueOf_strictMono (Nat.lt_succ_self k)
      push_cast at value
      linarith
    · have same : exponentOf .binary32 k = t := by
        rw [exponentOf_single]
        omega
      rw [same] at step
      linarith
  · refine Nat.lt_min.2 ⟨?_, inside⟩
    by_contra beyond
    have first : valueOf n ≤ valueOf m := valueOf_strictMono.monotone (by omega)
    have second : valueOf (n + 1) ≤ valueOf (m + 1) := valueOf_strictMono.monotone (by omega)
    linarith

/-- The bits kept of a number: its whole part, the half below it, and whether anything is left. -/
def Keeps (em : ExtendedMantissa) (x : ℚ) : Prop :=
  if em.stickyBit then
    2 * em.mantissa + em.roundBit.toNat < 2 * x ∧ 2 * x < 2 * em.mantissa + em.roundBit.toNat + 1
  else 2 * x = 2 * em.mantissa + em.roundBit.toNat

namespace Keeps

variable {em : ExtendedMantissa} {x : ℚ}

theorem shiftRightOne (h : Keeps em x) : Keeps em.shiftRightOne (x / 2) := by
  obtain ⟨m, round, sticky⟩ := em
  have halves : (m : ℚ) = 2 * (m / 2 : ℕ) + (m % 2 : ℕ) := by
    exact_mod_cast (Nat.div_add_mod m 2).symm
  have low : (m % 2 != 0).toNat = m % 2 := by
    rcases Nat.mod_two_eq_zero_or_one m with even | odd <;> simp [*]
  cases round <;> cases sticky <;>
    simp only [Keeps, ExtendedMantissa.shiftRightOne, low, Bool.or_self, Bool.or_false,
      Bool.or_true, Bool.toNat_false, Bool.toNat_true, if_true, Bool.false_eq_true,
      if_false] at h ⊢ <;>
    push_cast at h ⊢ <;>
    first | linarith | constructor <;> linarith

theorem shiftRight (h : Keeps em x) (n : ℕ) : Keeps (em >>> n) (x / 2 ^ n) := by
  induction n with
  | zero =>
    rw [pow_zero, div_one]
    exact h
  | succ n ih =>
    rw [pow_succ, ← div_div]
    exact ih.shiftRightOne

theorem roundedMantissa (h : Keeps em x) : |x - em.roundedMantissa| ≤ 1 / 2 := by
  obtain ⟨m, round, sticky⟩ := em
  rw [abs_le]
  have parity : m % 2 = 0 ∨ m % 2 = 1 := Nat.mod_two_eq_zero_or_one m
  cases round <;> cases sticky <;>
    simp [Keeps, ExtendedMantissa.roundedMantissa, ExtendedMantissa.accuracy,
      Accuracy.roundToNearestEven] at h ⊢
  · constructor <;> linarith
  · constructor <;> linarith
  · rcases parity with even | odd <;> simp [*] <;> constructor <;> linarith
  · constructor <;> linarith

theorem roundedMantissa_eq_zero (h : Keeps em x) (small : x ≤ 1 / 2) : em.roundedMantissa = 0 := by
  obtain ⟨m, round, sticky⟩ := em
  have none : m = 0 := by
    by_contra some
    have whole : (1 : ℚ) ≤ m := by exact_mod_cast Nat.one_le_iff_ne_zero.2 some
    cases round <;> cases sticky <;> simp [Keeps] at h <;> linarith
  subst none
  cases round <;> cases sticky <;>
    simp [Keeps, ExtendedMantissa.roundedMantissa, ExtendedMantissa.accuracy,
      Accuracy.roundToNearestEven] at h ⊢
  linarith

theorem lt (h : Keeps em x) : x < em.mantissa + 1 := by
  obtain ⟨m, round, sticky⟩ := em
  cases round <;> cases sticky <;> simp [Keeps] at h ⊢ <;> linarith

theorem le (h : Keeps em x) : em.mantissa ≤ x := by
  obtain ⟨m, round, sticky⟩ := em
  cases round <;> cases sticky <;> simp [Keeps] at h ⊢ <;> linarith

end Keeps

theorem keeps_exact (m : ℕ) : Keeps (.ofMantissaAndAccuracy m .exact) m := by
  simp [Keeps, ExtendedMantissa.ofMantissaAndAccuracy]

theorem keeps_fraction (m : ℕ) {n d : ℕ} (proper : n < d) :
    Keeps (.ofMantissaAndAccuracy m (accuracyOfFraction n d)) (m + n / d) := by
  have positive : (0 : ℚ) < d := by exact_mod_cast Nat.zero_lt_of_lt proper
  have less : (n : ℚ) / d < 1 := (div_lt_one positive).2 (by exact_mod_cast proper)
  rw [accuracyOfFraction]
  split
  · simp [*, Keeps, ExtendedMantissa.ofMantissaAndAccuracy]
  · rename_i some
    have rest : 0 < (n : ℚ) / d := div_pos (by exact_mod_cast Nat.pos_of_ne_zero some) positive
    rcases Nat.lt_trichotomy (2 * n) d with below | half | above
    · have low : (n : ℚ) / d < 1 / 2 := by
        rw [div_lt_iff₀ positive]
        have : (2 : ℚ) * n < d := by exact_mod_cast below
        linarith
      rw [Nat.compare_eq_lt.2 below]
      simp [Keeps, ExtendedMantissa.ofMantissaAndAccuracy]
      constructor <;> linarith
    · have exact : (n : ℚ) / d = 1 / 2 := by
        rw [div_eq_iff positive.ne']
        have : (2 : ℚ) * n = d := by exact_mod_cast half
        linarith
      rw [Nat.compare_eq_eq.2 half]
      simp [Keeps, ExtendedMantissa.ofMantissaAndAccuracy]
      linarith
    · have high : 1 / 2 < (n : ℚ) / d := by
        rw [lt_div_iff₀ positive]
        have : (d : ℚ) < 2 * n := by exact_mod_cast above
        linarith
      rw [Nat.compare_eq_gt.2 above]
      simp [Keeps, ExtendedMantissa.ofMantissaAndAccuracy]
      constructor <;> linarith

/-! Packing units, and rounding. -/

theorem toNat_pack_finite {m : ℕ} {e : ℤ} {h : 0 < m} (least : -149 ≤ e)
    (normal : e = -149 ∨ 8388608 ≤ m) (few : m < 16777216) :
    (pack .binary32 (.finite .positive m e h)).toNat =
      min ((e + 149).toNat * 8388608 + m) (topBits .binary32) := by
  have top : topBits .binary32 = 2139095040 := by decide
  have bias : Format.exponentBias .binary32 = 127 := by decide
  have bits : Format.mantissaBits .binary32 = 24 := by decide
  have fields : 2 ^ Format.exponentBits .binary32 = 256 ∧
      2 ^ Format.mantissaBitsWithoutImplicit .binary32 = 8388608 := by decide
  have log : m.log2 + 1 = 24 ↔ 8388608 ≤ m := by
    have upper : m.log2 < 24 := (Nat.log2_lt h.ne').2 few
    have lower : m.log2 < 23 ↔ m < 8388608 := Nat.log2_lt h.ne'
    omega
  simp only [pack, bias, bits, log, fields.1]
  split
  · rw [toNat_packedInfinity, top]
    omega
  split
  · rename_i finite whole
    have field : (e + (127 : ℕ) + (23 : ℕ)).toNat % 256 = (e + 149).toNat + 1 := by omega
    have fraction : m % 8388608 + 8388608 = m := by omega
    rw [toNat_packComponents, BitVec.toNat_ofNat, BitVec.toNat_ofNat, fields.1, fields.2, field]
    clear fields bits bias
    omega
  · rename_i subnormal
    obtain rfl : e = -149 := normal.resolve_right subnormal
    rw [toNat_packComponents, BitVec.toNat_ofNat, BitVec.toNat_ofNat, fields.2, Nat.zero_mod,
      Nat.zero_mul, Nat.mod_eq_of_lt (Nat.lt_of_not_le subnormal)]
    omega

theorem targetExponent_eq (spec : Format) (m : ℕ) (e : ℤ) :
    spec.targetExponent (totalExponent m e) =
      max (m.log2 + e - spec.mantissaBitsWithoutImplicit) spec.minExponent := by
  rw [Format.targetExponent, totalExponent, Format.mantissaBits]
  push_cast
  congr 1
  omega

theorem targetExponent_single (m : ℕ) (e : ℤ) :
    Format.targetExponent .binary32 (totalExponent m e) = max (m.log2 + e - 23) (-149) :=
  targetExponent_eq .binary32 m e

/-- A whole number of units is packed by its place among all of them; the carry into the next
exponent included. -/
theorem toNat_pack_units {units : ℕ} {t : ℤ} (least : -149 ≤ t)
    (normal : t = -149 ∨ 8388608 ≤ units) (few : units ≤ 16777216) {m : ℕ} {e : ℤ}
    (mantissa : (shiftToTargetExponent .binary32 units t .exact).1.mantissa = m)
    (exponent : (shiftToTargetExponent .binary32 units t .exact).2 = e) :
    (pack .binary32 (if h : m = 0 then .zero .positive
      else .finite .positive m e (Nat.pos_of_ne_zero h))).toNat =
        min ((t + 149).toNat * 8388608 + units) (topBits .binary32) := by
  simp only [shiftToTargetExponent, shiftToExponent, mantissa_shiftRight,
    mantissa_ofMantissaAndAccuracy, targetExponent_single] at mantissa exponent
  rcases Nat.lt_or_eq_of_le few with inside | rfl
  · have log : units.log2 < 24 := by
      rcases Nat.eq_zero_or_pos units with rfl | some
      · decide
      · exact (Nat.log2_lt some.ne').2 inside
    have still : (max ((units.log2 : ℤ) + t - 23) (-149) - t).toNat = 0 := by omega
    rw [still] at mantissa exponent
    obtain rfl : units = m := by simpa using mantissa
    obtain rfl : t = e := by simpa using exponent
    split
    · rename_i none
      have packed : (pack .binary32 (.zero .positive)).toNat = 0 := by decide
      have top := topBits_pos .binary32
      rw [packed]
      omega
    · exact toNat_pack_finite least normal inside
  · have log : Nat.log2 16777216 = 24 := Nat.log2_two_pow (n := 24)
    have carry : (max ((Nat.log2 16777216 : ℤ) + t - 23) (-149) - t).toNat = 1 := by omega
    rw [carry] at mantissa exponent
    obtain rfl : 8388608 = m := by simpa using mantissa
    obtain rfl : t + 1 = e := by simpa using exponent
    rw [dif_neg (by decide), toNat_pack_finite (by omega) (by omega) (by decide)]
    omega

theorem shifted_lt {m n w : ℕ} (short : m.log2 ≤ w + n) : m / 2 ^ n < 2 ^ (w + 1) := by
  rw [Nat.div_lt_iff_lt_mul (Nat.two_pow_pos n), ← Nat.pow_add]
  exact Nat.lt_log2_self.trans_le (Nat.pow_le_pow_right (by decide) (by omega))

theorem le_shifted {m n w : ℕ} (some : m ≠ 0) (long : m.log2 = w + n) : 2 ^ w ≤ m / 2 ^ n := by
  rw [Nat.le_div_iff_mul_le (Nat.two_pow_pos n), ← Nat.pow_add, ← long]
  exact Nat.log2_self_le some

/-- A mantissa at the exponent that its number has in the format. -/
structure Aligned (spec : Format) (em : ExtendedMantissa) (t : ℤ) (q : ℚ) : Prop where
  least : spec.minExponent ≤ t
  short : em.mantissa < 2 ^ (spec.mantissaBitsWithoutImplicit + 1)
  long : t = spec.minExponent ∨ 2 ^ spec.mantissaBitsWithoutImplicit ≤ em.mantissa
  kept : Keeps em (q / 2 ^ t)

theorem aligned_shift {spec : Format} {m : ℕ} {e : ℤ} {accuracy : Accuracy} {x : ℚ}
    (kept : Keeps (.ofMantissaAndAccuracy m accuracy) x)
    (low : e ≤ spec.targetExponent (totalExponent m e)) :
    Aligned spec (shiftToTargetExponent spec m e accuracy).1
      (shiftToTargetExponent spec m e accuracy).2 (x * 2 ^ e) := by
  have target := targetExponent_eq spec m e
  have width := spec.hm
  simp only [shiftToTargetExponent, shiftToExponent]
  generalize spec.targetExponent (totalExponent m e) = t at *
  obtain ⟨n, rfl⟩ : ∃ n : ℕ, t = e + n := ⟨(t - e).toNat, by omega⟩
  have amount : (e + n - e).toNat = n := by omega
  have mantissa : (ExtendedMantissa.ofMantissaAndAccuracy m accuracy >>> n).mantissa =
      m / 2 ^ n := by rw [mantissa_shiftRight, mantissa_ofMantissaAndAccuracy]
  rw [amount]
  refine ⟨by omega, ?_, ?_, ?_⟩
  · rw [mantissa]
    exact shifted_lt (by omega)
  · by_cases least : e + n = spec.minExponent
    · exact .inl least
    · have some : m ≠ 0 := by
        rintro rfl
        rw [Nat.log2_zero] at target
        omega
      rw [mantissa]
      exact .inr (le_shifted some (by omega))
  · have scale : x * 2 ^ e / 2 ^ (e + n : ℤ) = x / 2 ^ n := by
      rw [zpow_add₀ two_ne_zero, zpow_natCast]
      field_simp
    rw [scale]
    exact kept.shiftRight n

namespace Aligned

variable {spec : Format} {em : ExtendedMantissa} {t : ℤ} {q : ℚ}

theorem roundedMantissa_le (h : Aligned spec em t q) :
    em.roundedMantissa ≤ 2 ^ (spec.mantissaBitsWithoutImplicit + 1) := by
  have near := (abs_le.1 h.kept.roundedMantissa).1
  have below := h.kept.lt
  have short : (em.mantissa : ℚ) + 1 ≤ (2 ^ (spec.mantissaBitsWithoutImplicit + 1) : ℕ) := by
    exact_mod_cast h.short
  have less : (em.roundedMantissa : ℚ) < (2 ^ (spec.mantissaBitsWithoutImplicit + 1) + 1 : ℕ) := by
    rw [Nat.cast_add, Nat.cast_one]
    linarith
  exact Nat.le_of_lt_succ (by exact_mod_cast less)

theorem near (h : Aligned spec em t q) : |q - em.roundedMantissa * 2 ^ t| ≤ 2 ^ t / 2 := by
  have unit : (0 : ℚ) < 2 ^ t := by positivity
  have value : q / 2 ^ t * 2 ^ t = q := div_mul_cancel₀ q unit.ne'
  rw [← value, ← sub_mul, abs_mul, abs_of_pos unit]
  linarith [mul_le_mul_of_nonneg_right h.kept.roundedMantissa unit.le]

theorem units_le (h : Aligned spec em t q) :
    t = spec.minExponent ∨ 2 ^ spec.mantissaBitsWithoutImplicit * 2 ^ t ≤ q := by
  have unit : (0 : ℚ) < 2 ^ t := by positivity
  refine h.long.imp_right fun large => ?_
  have whole : (2 ^ spec.mantissaBitsWithoutImplicit : ℚ) ≤ em.mantissa := by exact_mod_cast large
  rw [← le_div_iff₀ unit]
  exact whole.trans h.kept.le

theorem rounds (h : Aligned .binary32 em t q) :
    Rounds q (min ((t + 149).toNat * 8388608 + em.roundedMantissa) (topBits .binary32)) := by
  refine rounds_of_near h.least (h.units_le.imp_right fun units => ?_) h.roundedMantissa_le h.near
  norm_num at units
  exact units

end Aligned

/-- A number comes out as the nearest of those that the format has. -/
theorem rounds_roundWithAccuracy {m : ℕ} {e : ℤ} {accuracy : Accuracy} {x : ℚ}
    (kept : Keeps (.ofMantissaAndAccuracy m accuracy) x)
    (low : e ≤ Format.targetExponent .binary32 (totalExponent m e)) :
    Rounds (x * 2 ^ e)
      (pack .binary32 (roundWithAccuracy .binary32 .positive m e accuracy)).toNat := by
  have aligned := aligned_shift kept low
  have packed := toNat_pack_units aligned.least
    (aligned.long.imp_right (le_trans · (le_roundedMantissa _))) aligned.roundedMantissa_le rfl rfl
  unfold roundWithAccuracy
  rw [packed]
  exact aligned.rounds

theorem le_targetExponent {spec : Format} {m : ℕ} {e : ℤ}
    (enough : e ≤ spec.minExponent ∨ 2 ^ spec.mantissaBitsWithoutImplicit ≤ m) :
    e ≤ spec.targetExponent (totalExponent m e) := by
  rw [targetExponent_eq]
  rcases enough with low | long
  · exact low.trans (le_max_right _ _)
  · have some := (Nat.two_pow_pos _).trans_le long
    have log : spec.mantissaBitsWithoutImplicit ≤ m.log2 := (Nat.le_log2 some.ne').2 long
    omega

theorem decreaseExponent_value (m : ℕ) (e t : ℤ) :
    ((decreaseExponent m e t).1 : ℚ) * 2 ^ (decreaseExponent m e t).2 = m * 2 ^ e := by
  simp only [decreaseExponent, Nat.shiftLeft_eq]
  rw [Nat.cast_mul, Nat.cast_pow, Nat.cast_ofNat, mul_assoc, ← zpow_natCast,
    ← zpow_add₀ two_ne_zero, add_sub_cancel]

theorem log2_mul_two_pow {m : ℕ} (some : m ≠ 0) (n : ℕ) : (m * 2 ^ n).log2 = m.log2 + n := by
  induction n with
  | zero => simp
  | succ n ih =>
    have shifted : m * 2 ^ (n + 1) = 2 * (m * 2 ^ n) := by ring
    rw [shifted, Nat.log2_two_mul (Nat.mul_ne_zero some (Nat.two_pow_pos n).ne'), ih, Nat.add_assoc]

theorem totalExponent_decreaseExponent {m : ℕ} (some : m ≠ 0) (e t : ℤ) :
    totalExponent (decreaseExponent m e t).1 (decreaseExponent m e t).2 = totalExponent m e := by
  simp only [decreaseExponent, totalExponent, Nat.shiftLeft_eq, log2_mul_two_pow some]
  push_cast
  ring

theorem exists_round_eq (spec : Format) {m : ℕ} (some : m ≠ 0) (e : ℤ) :
    ∃ k t, round spec .positive m e = roundWithAccuracy spec .positive k t .exact ∧
      (k * 2 ^ t : ℚ) = m * 2 ^ e ∧ t ≤ spec.targetExponent (totalExponent k t) := by
  have lowered (t : ℤ) : (decreaseExponent m e t).2 ≤ t := by
    simp only [decreaseExponent]
    omega
  refine ⟨(decreaseExponent m e (spec.targetExponent (totalExponent m e))).1,
    (decreaseExponent m e (spec.targetExponent (totalExponent m e))).2, rfl,
    decreaseExponent_value m e _, ?_⟩
  rw [totalExponent_decreaseExponent some]
  exact lowered _

theorem rounds_round {m : ℕ} (some : m ≠ 0) (e : ℤ) :
    Rounds (m * 2 ^ e) (pack .binary32 (round .binary32 .positive m e)).toNat := by
  obtain ⟨k, t, opened, value, low⟩ := exists_round_eq .binary32 some e
  rw [opened, ← value]
  exact rounds_roundWithAccuracy (keeps_exact k) low

theorem exists_div_eq (spec : Format) {m m' : ℕ} {e e' : ℤ} (h : 0 < m) (h' : 0 < m') :
    ∃ k t accuracy x, div spec (.finite .positive m e h) (.finite .positive m' e' h') =
        roundWithAccuracy spec .positive k t accuracy ∧
      (x * 2 ^ t : ℚ) = m * 2 ^ e / (m' * 2 ^ e') ∧
      Keeps (.ofMantissaAndAccuracy k accuracy) x ∧
      t ≤ spec.targetExponent (totalExponent k t) := by
  have target : spec.targetExponent (totalExponent m e - totalExponent m' e') =
      max ((m.log2 : ℤ) + e - (m'.log2 + e') - spec.mantissaBits) spec.minExponent := by
    rw [Format.targetExponent, totalExponent, totalExponent]
    congr 1
    omega
  have width : spec.mantissaBits = spec.mantissaBitsWithoutImplicit + 1 := Nat.add_comm _ _
  have opened : div spec (.finite .positive m e h) (.finite .positive m' e' h') =
      roundWithAccuracy spec .positive (divCore spec m e m' e').1
        (divCore spec m e m' e').2.1 (divCore spec m e m' e').2.2 := rfl
  rw [opened]
  simp only [divCore, target, Nat.shiftLeft_eq]
  generalize lowered : min (e - e') (max ((m.log2 : ℤ) + e - (m'.log2 + e') - spec.mantissaBits)
    spec.minExponent) = t at *
  generalize shift : (e - e' - t).toNat = n at *
  refine ⟨_, _, _, (m * 2 ^ n / m' : ℕ) + (m * 2 ^ n % m' : ℕ) / m', rfl, ?_,
    keeps_fraction _ (Nat.mod_lt _ h'), le_targetExponent ?_⟩
  · have positive : (0 : ℚ) < m' := by exact_mod_cast h'
    have whole : (m * 2 ^ n : ℚ) = m' * (m * 2 ^ n / m' : ℕ) + (m * 2 ^ n % m' : ℕ) := by
      exact_mod_cast (Nat.div_add_mod (m * 2 ^ n) m').symm
    have exponent : (2 : ℚ) ^ e = 2 ^ n * 2 ^ t * 2 ^ e' := by
      rw [← zpow_natCast, ← zpow_add₀ two_ne_zero, ← zpow_add₀ two_ne_zero]
      congr 1
      omega
    rw [exponent]
    field_simp
    linear_combination -whole
  · by_cases low : t ≤ spec.minExponent
    · exact .inl low
    · right
      rw [Nat.le_div_iff_mul_le h']
      calc 2 ^ spec.mantissaBitsWithoutImplicit * m'
          ≤ 2 ^ spec.mantissaBitsWithoutImplicit * 2 ^ (m'.log2 + 1) :=
            Nat.mul_le_mul_left _ Nat.lt_log2_self.le
        _ = 2 ^ (spec.mantissaBitsWithoutImplicit + (m'.log2 + 1)) := (Nat.pow_add _ _ _).symm
        _ ≤ 2 ^ (m.log2 + n) := Nat.pow_le_pow_right (by decide) (by omega)
        _ = 2 ^ m.log2 * 2 ^ n := Nat.pow_add _ _ _
        _ ≤ m * 2 ^ n := Nat.mul_le_mul_right _ (Nat.log2_self_le h.ne')

end TextCompletion.Decimal
