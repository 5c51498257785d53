import TextCompletion.Decimal.Binary
import Mathlib

/-!
The order of binary floating-point numbers by their bits. The bits up to those of infinity spell the
numbers that are not below zero, and there the order of the numbers is that of the bits; the bits
beyond spell what is no number, or carry a sign.
-/

namespace TextCompletion.Decimal

open Float.Model (Format UnpackedFloat)
open Float.Model.UnpackedFloat

section

variable {spec : Format}

theorem toNat_unpackMantissa (b : BitVec spec.numBits) :
    (unpackMantissa b).toNat = b.toNat % 2 ^ spec.mantissaBitsWithoutImplicit := by
  have positive := spec.hm
  have width : spec.mantissaBitsWithoutImplicit - 1 - 0 + 1 = spec.mantissaBitsWithoutImplicit := by
    omega
  rw [unpackMantissa, BitVec.toNat_cast, BitVec.extractLsb_toNat, Nat.shiftRight_zero, width]

theorem toNat_unpackExponent (b : BitVec spec.numBits) :
    (unpackExponent b).toNat =
      b.toNat / 2 ^ spec.mantissaBitsWithoutImplicit % 2 ^ spec.exponentBits := by
  have positive := spec.he
  have width : spec.mantissaBitsWithoutImplicit + spec.exponentBits - 1 -
      spec.mantissaBitsWithoutImplicit + 1 = spec.exponentBits := by omega
  rw [unpackExponent, BitVec.toNat_cast, BitVec.extractLsb_toNat, Nat.shiftRight_eq_div_pow, width]

theorem toNat_unpackSign (b : BitVec spec.numBits) :
    (unpackSign b).toNat =
      b.toNat / 2 ^ (spec.mantissaBitsWithoutImplicit + spec.exponentBits) % 2 := by
  have width : spec.mantissaBitsWithoutImplicit + spec.exponentBits -
      (spec.mantissaBitsWithoutImplicit + spec.exponentBits) + 1 = 1 := by omega
  rw [unpackSign, BitVec.toNat_cast, BitVec.extractLsb_toNat, Nat.shiftRight_eq_div_pow, width]

def topBits (spec : Format) : Nat :=
  (2 ^ spec.exponentBits - 1) * 2 ^ spec.mantissaBitsWithoutImplicit

theorem topBits_pos (spec : Format) : 0 < topBits spec := by
  have one := Nat.one_lt_two_pow (Nat.ne_of_gt spec.he)
  exact Nat.mul_pos (by omega) (Nat.two_pow_pos _)

def mantissaOf (spec : Format) (n : Nat) : Nat :=
  if n / 2 ^ spec.mantissaBitsWithoutImplicit = 0 then n % 2 ^ spec.mantissaBitsWithoutImplicit
  else 2 ^ spec.mantissaBitsWithoutImplicit + n % 2 ^ spec.mantissaBitsWithoutImplicit

/-- The exponent that some bits spell. Subnormal numbers share that of the least normal ones. -/
def exponentOf (spec : Format) (n : Nat) : Int :=
  (max (n / 2 ^ spec.mantissaBitsWithoutImplicit) 1 : Nat) -
    (spec.exponentBias + spec.mantissaBitsWithoutImplicit)

theorem exponentOf_lt_or (spec : Format) {m n : Nat} (less : m < n) :
    exponentOf spec m < exponentOf spec n ∨
      exponentOf spec m = exponentOf spec n ∧ mantissaOf spec m < mantissaOf spec n := by
  unfold exponentOf mantissaOf
  have fields :
      m / 2 ^ spec.mantissaBitsWithoutImplicit ≤ n / 2 ^ spec.mantissaBitsWithoutImplicit :=
    Nat.div_le_div_right (Nat.le_of_lt less)
  have first := Nat.div_add_mod m (2 ^ spec.mantissaBitsWithoutImplicit)
  have second := Nat.div_add_mod n (2 ^ spec.mantissaBitsWithoutImplicit)
  have small := Nat.mod_lt m (Nat.two_pow_pos spec.mantissaBitsWithoutImplicit)
  generalize m / 2 ^ spec.mantissaBitsWithoutImplicit = q at *
  generalize n / 2 ^ spec.mantissaBitsWithoutImplicit = q' at *
  rcases Nat.lt_or_eq_of_le fields with below | rfl
  · -- fields 0 and 1 share an exponent, and there the leading one decides
    by_cases adjacent : q' = 1
    · refine .inr ⟨by omega, ?_⟩
      rw [if_pos (by omega), if_neg (by omega)]
      omega
    · exact .inl (by omega)
  · refine .inr ⟨rfl, ?_⟩
    split <;> omega

theorem compare_fields (spec : Format) (m n : Nat) :
    (compare (exponentOf spec m) (exponentOf spec n)).then
      (compare (mantissaOf spec m) (mantissaOf spec n)) = compare m n := by
  rcases Nat.lt_trichotomy m n with less | rfl | greater
  · rw [Nat.compare_eq_lt.2 less]
    rcases exponentOf_lt_or spec less with exponents | ⟨exponents, mantissas⟩
    · rw [compare_lt_iff_lt.2 exponents]
      rfl
    · rw [exponents, compare_lt_iff_lt.2 mantissas, compare_eq_iff_eq.2 rfl]
      rfl
  · simp
  · rw [Nat.compare_eq_gt.2 greater]
    rcases exponentOf_lt_or spec greater with exponents | ⟨exponents, mantissas⟩
    · rw [compare_gt_iff_gt.2 exponents]
      rfl
    · rw [exponents, compare_gt_iff_gt.2 mantissas, compare_eq_iff_eq.2 rfl]
      rfl

variable {b c : BitVec spec.numBits}

theorem exponent_of_le_top (small : b.toNat ≤ topBits spec) :
    (unpackExponent b).toNat = b.toNat / 2 ^ spec.mantissaBitsWithoutImplicit := by
  have positive := Nat.two_pow_pos spec.exponentBits
  have field : b.toNat / 2 ^ spec.mantissaBitsWithoutImplicit ≤ 2 ^ spec.exponentBits - 1 := by
    rw [← Nat.mul_div_cancel (2 ^ spec.exponentBits - 1)
      (Nat.two_pow_pos spec.mantissaBitsWithoutImplicit)]
    exact Nat.div_le_div_right small
  rw [toNat_unpackExponent, Nat.mod_eq_of_lt (by omega)]

theorem sign_of_le_top (small : b.toNat ≤ topBits spec) :
    Sign.ofBitVec (unpackSign b) = .positive := by
  have below : b.toNat < 2 ^ (spec.mantissaBitsWithoutImplicit + spec.exponentBits) := by
    have positive := Nat.two_pow_pos spec.exponentBits
    have whole : topBits spec < 2 ^ spec.exponentBits * 2 ^ spec.mantissaBitsWithoutImplicit :=
      Nat.mul_lt_mul_of_pos_right (by omega) (Nat.two_pow_pos _)
    rw [Nat.pow_add, Nat.mul_comm]
    omega
  have zero : unpackSign b = 0#1 := by
    apply BitVec.eq_of_toNat_eq
    rw [toNat_unpackSign, Nat.div_eq_of_lt below]
    rfl
  rw [zero]
  rfl

theorem unpack_of_top (top : b.toNat = topBits spec) : unpack spec b = .infinity .positive := by
  have exponent : unpackExponent b = -1#_ := by
    apply BitVec.eq_of_toNat_eq
    rw [exponent_of_le_top top.le, top, topBits, Nat.mul_div_cancel _ (Nat.two_pow_pos _),
      BitVec.neg_one_eq_allOnes, BitVec.toNat_allOnes]
  have mantissa : unpackMantissa b = 0#_ := by
    apply BitVec.eq_of_toNat_eq
    rw [toNat_unpackMantissa, top, topBits, Nat.mul_mod_left]
    rfl
  simp only [unpack, exponent, mantissa, sign_of_le_top top.le, if_true]

theorem exponent_ne_top (small : b.toNat < topBits spec) : unpackExponent b ≠ -1#_ := by
  intro same
  have field := exponent_of_le_top small.le
  rw [same, BitVec.neg_one_eq_allOnes, BitVec.toNat_allOnes] at field
  have least := Nat.div_mul_le_self b.toNat (2 ^ spec.mantissaBitsWithoutImplicit)
  rw [← field] at least
  exact absurd least (Nat.not_le.2 small)

theorem unpack_of_zero (zero : b.toNat = 0) : unpack spec b = .zero .positive := by
  have below : b.toNat < topBits spec := zero ▸ topBits_pos spec
  have exponent : unpackExponent b = 0#_ := by
    apply BitVec.eq_of_toNat_eq
    rw [exponent_of_le_top below.le, zero, Nat.zero_div]
    rfl
  have mantissa : unpackMantissa b = 0#_ := by
    apply BitVec.eq_of_toNat_eq
    rw [toNat_unpackMantissa, zero, Nat.zero_mod]
    rfl
  unfold unpack
  rw [if_neg (exponent_ne_top below), if_pos exponent, dif_pos mantissa, sign_of_le_top below.le]

theorem toNat_append_one {n : Nat} (m : BitVec n) : (1#1 ++ m).toNat = 2 ^ n + m.toNat := by
  rw [BitVec.toNat_append, ← Nat.shiftLeft_add_eq_or_of_lt m.isLt, Nat.shiftLeft_eq]
  simp

theorem unpack_of_between (positive : 0 < b.toNat) (small : b.toNat < topBits spec) :
    ∃ h, unpack spec b =
      .finite .positive (mantissaOf spec b.toNat) (exponentOf spec b.toNat) h := by
  have field := exponent_of_le_top small.le
  have fraction := toNat_unpackMantissa b
  have whole := Nat.div_add_mod b.toNat (2 ^ spec.mantissaBitsWithoutImplicit)
  unfold unpack mantissaOf exponentOf
  rw [if_neg (exponent_ne_top small), sign_of_le_top small.le, ← field]
  by_cases subnormal : unpackExponent b = 0#_
  · have none : (unpackExponent b).toNat = 0 := by
      rw [subnormal]
      rfl
    have rest : unpackMantissa b ≠ 0#_ := by
      intro same
      rw [same] at fraction
      rw [← field, none, ← fraction] at whole
      simp at whole
      omega
    have nonzero : 0 < (unpackMantissa b).toNat := by
      rw [← field, none, ← fraction] at whole
      omega
    rw [if_pos subnormal, dif_neg rest, if_pos none, ← fraction, none]
    refine ⟨nonzero, ?_⟩
    congr 1
    omega
  · have some : (unpackExponent b).toNat ≠ 0 := by
      intro none
      exact subnormal (BitVec.eq_of_toNat_eq none)
    have leading := Nat.two_pow_pos spec.mantissaBitsWithoutImplicit
    rw [if_neg subnormal, if_neg some, ← fraction]
    refine ⟨by omega, ?_⟩
    congr 1
    · exact toNat_append_one _
    · omega

theorem unpack_cases (small : b.toNat ≤ topBits spec) :
    (b.toNat = 0 ∧ unpack spec b = .zero .positive) ∨
    (0 < b.toNat ∧ b.toNat < topBits spec ∧ ∃ h, unpack spec b =
      .finite .positive (mantissaOf spec b.toNat) (exponentOf spec b.toNat) h) ∨
    (b.toNat = topBits spec ∧ unpack spec b = .infinity .positive) := by
  rcases Nat.lt_or_eq_of_le small with below | top
  · rcases Nat.eq_zero_or_pos b.toNat with zero | positive
    · exact .inl ⟨zero, unpack_of_zero zero⟩
    · exact .inr (.inl ⟨positive, below, unpack_of_between positive below⟩)
  · exact .inr (.inr ⟨top, unpack_of_top top⟩)

/-- The order of non-negative numbers is that of their bits. -/
theorem compare_unpack (first : b.toNat ≤ topBits spec) (second : c.toNat ≤ topBits spec) :
    (unpack spec b).compare (unpack spec c) = some (compare b.toNat c.toNat) := by
  have positive := topBits_pos spec
  rcases unpack_cases first with ⟨bits, value⟩ | ⟨some, below, h, value⟩ | ⟨bits, value⟩
  · rcases unpack_cases second with ⟨bits', value'⟩ | ⟨some', -, h', value'⟩ | ⟨bits', value'⟩
    · rw [value, value', bits, bits']
      rfl
    · rw [value, value', bits, Nat.compare_eq_lt.2 some']
      rfl
    · rw [value, value', bits, bits', Nat.compare_eq_lt.2 positive]
      rfl
  · rcases unpack_cases second with ⟨bits', value'⟩ | ⟨-, -, h', value'⟩ | ⟨bits', value'⟩
    · rw [value, value', bits', Nat.compare_eq_gt.2 some]
      rfl
    · rw [value, value', ← compare_fields spec]
      rfl
    · rw [value, value', bits', Nat.compare_eq_lt.2 below]
      rfl
  · rcases unpack_cases second with ⟨bits', value'⟩ | ⟨-, below', h', value'⟩ | ⟨bits', value'⟩
    · rw [value, value', bits, bits', Nat.compare_eq_gt.2 positive]
      rfl
    · rw [value, value', bits, Nat.compare_eq_gt.2 below']
      rfl
    · rw [value, value', bits, bits', compare_eq_iff_eq.2 rfl]
      rfl

def IsPositive : UnpackedFloat → Prop
  | .infinity .positive => True
  | .finite .positive _ _ _ => True
  | _ => False

def IsNonNegative : UnpackedFloat → Prop
  | .zero _ => True
  | x => IsPositive x

theorem IsPositive.nonnegative {u : UnpackedFloat} (positive : IsPositive u) : IsNonNegative u := by
  cases u with
  | zero s => trivial
  | notANumber => exact positive
  | infinity s => exact positive
  | finite s m e h => exact positive

theorem IsNonNegative.eq_zero {u : UnpackedFloat} (nonnegative : IsNonNegative u)
    (zero : ¬ IsPositive u) : ∃ s, u = .zero s := by
  cases u with
  | zero s => exact ⟨s, rfl⟩
  | notANumber => exact absurd nonnegative zero
  | infinity s => exact absurd nonnegative zero
  | finite s m e h => exact absurd nonnegative zero

theorem toNat_fields (b : BitVec spec.numBits) :
    b.toNat = (unpackSign b).toNat * 2 ^ (spec.mantissaBitsWithoutImplicit + spec.exponentBits) +
      ((unpackExponent b).toNat * 2 ^ spec.mantissaBitsWithoutImplicit +
        (unpackMantissa b).toNat) := by
  have bound : b.toNat / 2 ^ (spec.mantissaBitsWithoutImplicit + spec.exponentBits) < 2 := by
    rw [Nat.div_lt_iff_lt_mul (Nat.two_pow_pos _), ← Nat.pow_succ']
    exact Nat.lt_of_lt_of_eq b.isLt (by simp only [Format.numBits]; congr 1; omega)
  have low := Nat.div_add_mod b.toNat (2 ^ spec.mantissaBitsWithoutImplicit)
  have high := Nat.div_add_mod (b.toNat / 2 ^ spec.mantissaBitsWithoutImplicit)
    (2 ^ spec.exponentBits)
  rw [Nat.div_div_eq_div_mul, ← Nat.pow_add] at high
  rw [toNat_unpackSign, Nat.mod_eq_of_lt bound, toNat_unpackExponent, toNat_unpackMantissa]
  generalize b.toNat / 2 ^ (spec.mantissaBitsWithoutImplicit + spec.exponentBits) = sign at *
  generalize b.toNat / 2 ^ spec.mantissaBitsWithoutImplicit % 2 ^ spec.exponentBits = field at *
  generalize b.toNat % 2 ^ spec.mantissaBitsWithoutImplicit = fraction at *
  rw [← low, ← high, Nat.pow_add]
  ring

theorem toNat_of_sign (sign : Sign.ofBitVec (unpackSign b) = .positive) :
    b.toNat = (unpackExponent b).toNat * 2 ^ spec.mantissaBitsWithoutImplicit +
      (unpackMantissa b).toNat := by
  have zero : unpackSign b = 0#1 := by
    by_contra other
    simp [Sign.ofBitVec, other] at sign
  rw [toNat_fields, zero]
  simp

theorem unpack_of_sign (sign : Sign.ofBitVec (unpackSign b) = .positive)
    (above : topBits spec < b.toNat) : unpack spec b = .notANumber := by
  have whole := toNat_of_sign sign
  have fraction := (unpackMantissa b).isLt
  have field := (unpackExponent b).isLt
  have full : (unpackExponent b).toNat = 2 ^ spec.exponentBits - 1 := by
    by_contra other
    have next : ((unpackExponent b).toNat + 1) * 2 ^ spec.mantissaBitsWithoutImplicit ≤
        topBits spec := Nat.mul_le_mul_right _ (by omega)
    rw [Nat.add_mul] at next
    omega
  have exponent : unpackExponent b = -1#_ := by
    apply BitVec.eq_of_toNat_eq
    rw [full, BitVec.neg_one_eq_allOnes, BitVec.toNat_allOnes]
  have mantissa : unpackMantissa b ≠ 0#_ := by
    intro zero
    rw [full, zero] at whole
    simp only [BitVec.toNat_zero] at whole
    exact absurd whole (Nat.ne_of_gt above)
  unfold unpack
  rw [if_pos exponent, if_neg mantissa]

theorem bits_of_positive (positive : IsPositive (unpack spec b)) :
    0 < b.toNat ∧ b.toNat ≤ topBits spec := by
  have sign : Sign.ofBitVec (unpackSign b) = .positive := by
    cases negative : Sign.ofBitVec (unpackSign b) with
    | positive => rfl
    | negative =>
      unfold unpack at positive
      simp only [negative] at positive
      split at positive
      · split at positive <;> exact positive.elim
      · split at positive
        · split at positive <;> exact positive.elim
        · exact positive.elim
  constructor
  · rcases Nat.eq_zero_or_pos b.toNat with zero | some
    · rw [unpack_of_zero zero] at positive
      exact positive.elim
    · exact some
  · by_contra above
    rw [unpack_of_sign sign (Nat.not_le.1 above)] at positive
    exact positive

theorem positive_of_bits (positive : 0 < b.toNat) (small : b.toNat ≤ topBits spec) :
    IsPositive (unpack spec b) := by
  rcases Nat.lt_or_eq_of_le small with below | top
  · obtain ⟨h, finite⟩ := unpack_of_between positive below
    rw [finite]
    trivial
  · rw [unpack_of_top top]
    trivial

theorem bits_of_zero {s : Sign} (zero : unpack spec b = .zero s) :
    b.toNat = 0 ∨ b.toNat = 2 ^ (spec.mantissaBitsWithoutImplicit + spec.exponentBits) := by
  have fields : unpackExponent b = 0#_ ∧ unpackMantissa b = 0#_ := by
    simp only [unpack] at zero
    split at zero
    · split at zero <;> cases zero
    · split at zero
      · split at zero
        · exact ⟨‹_›, ‹_›⟩
        · cases zero
      · cases zero
  have sign := (unpackSign b).isLt
  have whole := toNat_fields b
  rw [fields.1, fields.2] at whole
  simp only [BitVec.toNat_zero, Nat.zero_mul, Nat.add_zero] at whole
  generalize (unpackSign b).toNat = n at *
  obtain rfl | rfl : n = 0 ∨ n = 1 := by omega
  · exact .inl (by rw [whole, Nat.zero_mul])
  · exact .inr (by rw [whole, Nat.one_mul])

end

theorem zero_compare_lt {s : Sign} {u : UnpackedFloat} :
    (UnpackedFloat.zero s).compare u = some .lt ↔ IsPositive u := by
  cases u with
  | infinity s => cases s <;> simp [UnpackedFloat.compare, IsPositive]
  | notANumber => simp [UnpackedFloat.compare, IsPositive]
  | zero s => simp [UnpackedFloat.compare, IsPositive]
  | finite s m e h => cases s <;> simp [UnpackedFloat.compare, IsPositive]

theorem zero_compare_le {s : Sign} {u : UnpackedFloat} :
    ((UnpackedFloat.zero s).compare u).any (·.isLE) = true ↔ IsNonNegative u := by
  cases u with
  | infinity s => cases s <;> simp [UnpackedFloat.compare, IsNonNegative, IsPositive]
  | notANumber => simp [UnpackedFloat.compare, IsNonNegative, IsPositive]
  | zero s => simp [UnpackedFloat.compare, IsNonNegative]
  | finite s m e h => cases s <;> simp [UnpackedFloat.compare, IsNonNegative, IsPositive]

theorem compare_zero_of_positive {s : Sign} {u : UnpackedFloat} (positive : IsPositive u) :
    u.compare (.zero s) = some .gt := by
  cases u with
  | zero s' => exact positive.elim
  | notANumber => exact positive.elim
  | infinity s' => cases s' <;> first | exact positive.elim | rfl
  | finite s' m e h => cases s' <;> first | exact positive.elim | rfl

/-! Single precision. -/

section

variable {x y : Float32}

theorem single_lt_iff : x < y ↔ x.toModel.unpack.compare y.toModel.unpack = some .lt :=
  decide_eq_true_iff.trans beq_iff_eq

theorem single_le_iff :
    x ≤ y ↔ (x.toModel.unpack.compare y.toModel.unpack).any (·.isLE) = true :=
  decide_eq_true_iff

theorem toNat_single_zero : (0 : Float32).toBits.toNat = 0 := rfl

theorem unpack_single_zero : (0 : Float32).toModel.unpack = .zero .positive :=
  unpack_of_zero toNat_single_zero

theorem single_pos_iff : 0 < x ↔ IsPositive x.toModel.unpack := by
  rw [single_lt_iff, unpack_single_zero, zero_compare_lt]

theorem single_nonneg_iff : 0 ≤ x ↔ IsNonNegative x.toModel.unpack := by
  rw [single_le_iff, unpack_single_zero, zero_compare_le]

theorem single_compare_zero (positive : 0 < x) :
    x.toModel.unpack.compare (0 : Float32).toModel.unpack = some .gt := by
  rw [unpack_single_zero]
  exact compare_zero_of_positive (single_pos_iff.1 positive)

theorem single_not_le_zero (positive : 0 < x) : ¬ x ≤ 0 := by
  rw [single_le_iff, single_compare_zero positive]
  exact Bool.false_ne_true

theorem single_beq_zero (positive : 0 < x) : (x == 0) = false := by
  have unequal : (x.toModel.unpack.compare (0 : Float32).toModel.unpack == some .eq) = false := by
    rw [single_compare_zero positive]
    rfl
  exact unequal

theorem single_nonneg_of_pos (positive : 0 < x) : 0 ≤ x :=
  single_nonneg_iff.2 (single_pos_iff.1 positive).nonnegative

theorem single_compare (first : x.toBits.toNat ≤ topBits .binary32)
    (second : y.toBits.toNat ≤ topBits .binary32) :
    x.toModel.unpack.compare y.toModel.unpack = some (compare x.toBits.toNat y.toBits.toNat) :=
  compare_unpack first second

theorem single_le_iff_bits (first : x.toBits.toNat ≤ topBits .binary32)
    (second : y.toBits.toNat ≤ topBits .binary32) : x ≤ y ↔ x.toBits.toNat ≤ y.toBits.toNat := by
  rw [single_le_iff, single_compare first second]
  exact Nat.isLE_compare

theorem single_lt_iff_bits (first : x.toBits.toNat ≤ topBits .binary32)
    (second : y.toBits.toNat ≤ topBits .binary32) : x < y ↔ x.toBits.toNat < y.toBits.toNat := by
  rw [single_lt_iff, single_compare first second, Option.some_inj]
  exact Nat.compare_eq_lt

end

/-! Double precision. -/

section

variable {x y : Float}

theorem double_lt_iff : x < y ↔ x.toModel.unpack.compare y.toModel.unpack = some .lt :=
  decide_eq_true_iff.trans beq_iff_eq

theorem double_le_iff :
    x ≤ y ↔ (x.toModel.unpack.compare y.toModel.unpack).any (·.isLE) = true :=
  decide_eq_true_iff

theorem unpack_double_zero : (0 : Float).toModel.unpack = .zero .positive :=
  unpack_of_zero rfl

theorem double_pos_iff_unpack : 0 < x ↔ IsPositive x.toModel.unpack := by
  rw [double_lt_iff, unpack_double_zero, zero_compare_lt]

theorem double_pos_iff : 0 < x ↔ 0 < x.toBits.toNat ∧ x.toBits.toNat ≤ topBits .binary64 := by
  rw [double_pos_iff_unpack]
  constructor
  · exact bits_of_positive
  · rintro ⟨positive, small⟩
    exact positive_of_bits positive small

theorem double_not_isNaN (positive : 0 < x) : x.isNaN = false := by
  rw [double_pos_iff_unpack] at positive
  have value : x.isNaN = x.toModel.unpack.isNaN := rfl
  rw [value]
  cases u : x.toModel.unpack with
  | notANumber =>
    rw [u] at positive
    exact positive.elim
  | _ => rfl

theorem double_compare_zero (positive : 0 < x) :
    x.toModel.unpack.compare (0 : Float).toModel.unpack = some .gt := by
  rw [unpack_double_zero]
  exact compare_zero_of_positive (double_pos_iff_unpack.1 positive)

theorem double_not_lt_zero (positive : 0 < x) : ¬ x < 0 := by
  rw [double_lt_iff, double_compare_zero positive]
  simp

theorem double_not_le_zero (positive : 0 < x) : ¬ x ≤ 0 := by
  rw [double_le_iff, double_compare_zero positive]
  exact Bool.false_ne_true

theorem double_compare (first : x.toBits.toNat ≤ topBits .binary64)
    (second : y.toBits.toNat ≤ topBits .binary64) :
    x.toModel.unpack.compare y.toModel.unpack = some (compare x.toBits.toNat y.toBits.toNat) :=
  compare_unpack first second

theorem double_le_iff_bits (first : x.toBits.toNat ≤ topBits .binary64)
    (second : y.toBits.toNat ≤ topBits .binary64) : x ≤ y ↔ x.toBits.toNat ≤ y.toBits.toNat := by
  rw [double_le_iff, double_compare first second]
  exact Nat.isLE_compare

theorem double_lt_iff_bits (first : x.toBits.toNat ≤ topBits .binary64)
    (second : y.toBits.toNat ≤ topBits .binary64) : x < y ↔ x.toBits.toNat < y.toBits.toNat := by
  rw [double_lt_iff, double_compare first second, Option.some_inj]
  exact Nat.compare_eq_lt

end

/-! Numbers of either sign. -/

section

/-- The place of a number in the order: its sign and kind, then its size. -/
def rank : UnpackedFloat → ℤ ×ₗ ℤ ×ₗ ℤ
  | .infinity .negative => toLex (-2, toLex (0, 0))
  | .finite .negative m e _ => toLex (-1, toLex (-e, -m))
  | .zero _ => toLex (0, toLex (0, 0))
  | .finite .positive m e _ => toLex (1, toLex (e, m))
  | .infinity .positive => toLex (2, toLex (0, 0))
  | .notANumber => toLex (0, toLex (0, 0))

theorem compare_then (e e' : Int) (m m' : Nat) :
    (compare e e').then (compare m m') =
      if e < e' ∨ e = e' ∧ m < m' then .lt else if e' < e ∨ e = e' ∧ m' < m then .gt else .eq := by
  rcases lt_trichotomy e e' with less | rfl | greater
  · simp [compare_lt_iff_lt.2 less, less]
  · rcases lt_trichotomy m m' with less | rfl | greater
    · simp [compare_lt_iff_lt.2 less, less]
    · simp
    · simp [compare_gt_iff_gt.2 greater, greater, greater.le]
  · simp [compare_gt_iff_gt.2 greater, greater, not_lt.2 greater.le, greater.ne']

theorem compare_eq_cmp {u v : UnpackedFloat} (first : u.isNaN = false) (second : v.isNaN = false) :
    u.compare v = some (cmp (rank u) (rank v)) := by
  rcases u with (_ | _) | _ | s | ⟨_ | _, m, e, h⟩ <;>
    rcases v with (_ | _) | _ | s' | ⟨_ | _, m', e', h'⟩
  any_goals rfl
  any_goals cases first
  any_goals cases second
  -- two finite numbers of one sign are left
  all_goals
    simp only [UnpackedFloat.compare, rank, cmp, cmpUsing, compare_then, Prod.Lex.toLex_lt_toLex]
    grind [Ordering.swap]

variable {x y : Float32}

theorem single_lt_iff_rank (first : x.isNaN = false) (second : y.isNaN = false) :
    x < y ↔ rank x.toModel.unpack < rank y.toModel.unpack := by
  rw [single_lt_iff, compare_eq_cmp first second, Option.some_inj, cmp_eq_lt_iff]

theorem single_le_iff_rank (first : x.isNaN = false) (second : y.isNaN = false) :
    x ≤ y ↔ rank x.toModel.unpack ≤ rank y.toModel.unpack := by
  rw [single_le_iff, compare_eq_cmp first second, Option.any_some, ← not_lt, ← cmp_eq_gt_iff]
  cases cmp (rank x.toModel.unpack) (rank y.toModel.unpack) <;> simp

variable {z w : Float}

theorem double_lt_iff_rank (first : z.isNaN = false) (second : w.isNaN = false) :
    z < w ↔ rank z.toModel.unpack < rank w.toModel.unpack := by
  rw [double_lt_iff, compare_eq_cmp first second, Option.some_inj, cmp_eq_lt_iff]

theorem double_le_iff_rank (first : z.isNaN = false) (second : w.isNaN = false) :
    z ≤ w ↔ rank z.toModel.unpack ≤ rank w.toModel.unpack := by
  rw [double_le_iff, compare_eq_cmp first second, Option.any_some, ← not_lt, ← cmp_eq_gt_iff]
  cases cmp (rank z.toModel.unpack) (rank w.toModel.unpack) <;> simp

theorem double_le_of_not_lt (first : z.isNaN = false) (second : w.isNaN = false)
    (unordered : ¬ w < z) : z ≤ w := by
  rw [double_lt_iff_rank second first, not_lt] at unordered
  exact (double_le_iff_rank first second).2 unordered

theorem double_not_isNaN_of_le (le : z ≤ w) : z.isNaN = false ∧ w.isNaN = false := by
  rw [double_le_iff] at le
  have first : z.isNaN = z.toModel.unpack.isNaN := rfl
  have second : w.isNaN = w.toModel.unpack.isNaN := rfl
  rw [first, second]
  generalize z.toModel.unpack = u at le
  generalize w.toModel.unpack = v at le
  cases u with
  | notANumber => cases v <;> cases le
  | _ =>
    cases v with
    | notANumber => cases le
    | _ => exact ⟨rfl, rfl⟩

theorem double_not_lt_of_le (le : z ≤ w) : ¬ w < z := by
  obtain ⟨first, second⟩ := double_not_isNaN_of_le le
  rw [double_lt_iff_rank second first, not_lt]
  exact (double_le_iff_rank first second).1 le

end

end TextCompletion.Decimal
