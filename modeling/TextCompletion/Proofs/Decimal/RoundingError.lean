import TextCompletion.Proofs.Decimal.FloatRounding

/-!
How far rounding takes a number, in any format. A result is off by at most half of a unit of its
exponent, which is a small part of the number itself unless the exponent is the least one; and it is
zero exactly up to half of the least positive number, the tie included.
-/

namespace TextCompletion.Decimal

open Float.Model (Format UnpackedFloat totalExponent)
open Float.Model.UnpackedFloat

/-- The value of what is finite and carries no sign. -/
def StandsFor : UnpackedFloat → ℚ → Prop
  | .zero .positive, v => v = 0
  | .finite .positive m e _, v => v = m * 2 ^ e
  | _, _ => False

/-- The value is the number as it comes out of rounding, as far as bounds need it. -/
structure Near (spec : Format) (q v : ℚ) : Prop where
  close : |q - v| ≤ max (2 ^ (spec.minExponent - 1)) (q / 2 ^ spec.mantissaBits)
  zero : v = 0 ↔ q ≤ 2 ^ (spec.minExponent - 1)

/-- A mantissa has all the bits that its exponent leaves it. -/
structure Normal (spec : Format) (m : ℕ) (e : ℤ) : Prop extends Fits spec m e where
  long : e = spec.minExponent ∨ 2 ^ spec.mantissaBitsWithoutImplicit ≤ m

def Canonical (spec : Format) : UnpackedFloat → Prop
  | .zero .positive => True
  | .finite .positive m e _ => Normal spec m e
  | _ => False

section

variable {spec : Format} {m : ℕ} {e t : ℤ} {q x v : ℚ} {u : UnpackedFloat}

theorem StandsFor.cases (stands : StandsFor u v) :
    u = .zero .positive ∧ v = 0 ∨ ∃ m e h, u = .finite .positive m e h ∧ v = m * 2 ^ e := by
  cases u with
  | notANumber => exact stands.elim
  | infinity s => exact stands.elim
  | zero s =>
    cases s with
    | negative => exact stands.elim
    | positive => exact .inl ⟨rfl, stands⟩
  | finite s m e h =>
    cases s with
    | negative => exact stands.elim
    | positive => exact .inr ⟨m, e, h, rfl, stands⟩

theorem StandsFor.nonneg (stands : StandsFor u v) : 0 ≤ v := by
  obtain ⟨rfl, rfl⟩ | ⟨m, e, h, rfl, rfl⟩ := stands.cases
  · exact le_rfl
  · positivity

theorem StandsFor.eq_zero_iff (stands : StandsFor u v) : v = 0 ↔ u = .zero .positive := by
  obtain ⟨rfl, rfl⟩ | ⟨m, e, h, rfl, rfl⟩ := stands.cases
  · exact iff_of_true rfl rfl
  · exact iff_of_false (by positivity) (by simp)

/-! ## Units of the target exponent -/

theorem shift_units {units : ℕ} (least : spec.minExponent ≤ t)
    (long : t = spec.minExponent ∨ 2 ^ spec.mantissaBitsWithoutImplicit ≤ units)
    (few : units ≤ 2 ^ (spec.mantissaBitsWithoutImplicit + 1))
    (mantissa : (shiftToTargetExponent spec units t .exact).1.mantissa = m)
    (exponent : (shiftToTargetExponent spec units t .exact).2 = e) :
    (m * 2 ^ e : ℚ) = units * 2 ^ t ∧ (0 < m → Normal spec m e) := by
  have target := targetExponent_eq spec units t
  have size : 2 ^ spec.mantissaBits = 2 ^ (spec.mantissaBitsWithoutImplicit + 1) := by
    rw [Format.mantissaBits, Nat.add_comm]
  simp only [shiftToTargetExponent, shiftToExponent, mantissa_shiftRight,
    mantissa_ofMantissaAndAccuracy, target] at mantissa exponent
  rcases Nat.lt_or_eq_of_le few with inside | rfl
  · have log : units.log2 ≤ spec.mantissaBitsWithoutImplicit := by
      rcases Nat.eq_zero_or_pos units with rfl | some
      · exact Nat.zero_le _
      · exact Nat.lt_succ_iff.1 ((Nat.log2_lt some.ne').2 inside)
    have still : (max ((units.log2 : ℤ) + t - spec.mantissaBitsWithoutImplicit) spec.minExponent -
        t).toNat = 0 := by omega
    rw [still] at mantissa exponent
    obtain rfl : units = m := by simpa using mantissa
    obtain rfl : t = e := by simpa using exponent
    exact ⟨rfl, fun some => ⟨⟨some, size ▸ inside, least⟩, long⟩⟩
  · rw [Nat.log2_two_pow] at mantissa exponent
    have carry : (max (((spec.mantissaBitsWithoutImplicit + 1 : ℕ) : ℤ) + t -
        spec.mantissaBitsWithoutImplicit) spec.minExponent - t).toNat = 1 := by omega
    rw [carry, pow_one, Nat.pow_succ, Nat.mul_div_cancel _ (by decide)] at mantissa
    rw [carry] at exponent
    subst mantissa exponent
    refine ⟨?_, fun some => ⟨⟨some, ?_, by omega⟩, .inr le_rfl⟩⟩
    · rw [Nat.cast_one, zpow_add_one₀ two_ne_zero]
      push_cast
      ring
    · rw [size]
      exact Nat.pow_lt_pow_right (by decide) (Nat.lt_succ_self _)

theorem Aligned.half_le {em : ExtendedMantissa} (h : Aligned spec em t q) :
    (2 ^ t / 2 : ℚ) ≤ max (2 ^ (spec.minExponent - 1)) (q / 2 ^ spec.mantissaBits) := by
  rcases h.units_le with rfl | units
  · refine le_max_of_le_left ?_
    rw [zpow_sub_one₀ two_ne_zero, div_eq_mul_inv]
  · refine le_max_of_le_right ?_
    rw [Format.mantissaBits, pow_add, pow_one, le_div_iff₀ (by positivity)]
    linarith

theorem Aligned.roundedMantissa_eq_zero {em : ExtendedMantissa} (h : Aligned spec em t q) :
    em.roundedMantissa = 0 ↔ q ≤ 2 ^ (spec.minExponent - 1) := by
  have unit : (0 : ℚ) < 2 ^ t := by positivity
  have half : (2 ^ (spec.minExponent - 1) : ℚ) = 2 ^ spec.minExponent / 2 := by
    rw [zpow_sub_one₀ two_ne_zero, div_eq_mul_inv]
  constructor
  · intro zero
    have none : em.mantissa = 0 := Nat.le_zero.1 (zero ▸ le_roundedMantissa em)
    obtain rfl : t = spec.minExponent :=
      h.long.resolve_right (by rw [none]; exact Nat.not_le.2 (Nat.two_pow_pos _))
    have near := (abs_le.1 h.near).2
    rw [zero, Nat.cast_zero, zero_mul, sub_zero] at near
    rwa [half]
  · intro small
    have less : q / 2 ^ t ≤ 1 / 2 := by
      rw [div_le_iff₀ unit]
      have least : (2 ^ spec.minExponent : ℚ) ≤ 2 ^ t :=
        zpow_le_zpow_right₀ (by norm_num) h.least
      linarith
    exact h.kept.roundedMantissa_eq_zero less

theorem standsFor_packed (value : (m * 2 ^ e : ℚ) = v) (normal : 0 < m → Normal spec m e)
    (result : (if h : m = 0 then .zero .positive
      else .finite .positive m e (Nat.pos_of_ne_zero h)) = u) :
    StandsFor u v ∧ Canonical spec u := by
  subst result
  split
  · rename_i none
    rw [none, Nat.cast_zero, zero_mul] at value
    exact ⟨value.symm, trivial⟩
  · exact ⟨value.symm, normal (Nat.pos_of_ne_zero ‹_›)⟩

/-- What rounding gives, in the form that packing asks for. -/
theorem near_roundWithAccuracy {accuracy : Accuracy}
    (kept : Keeps (.ofMantissaAndAccuracy m accuracy) x)
    (low : e ≤ spec.targetExponent (totalExponent m e))
    (result : roundWithAccuracy spec .positive m e accuracy = u) :
    ∃ v, StandsFor u v ∧ Near spec (x * 2 ^ e) v ∧ Canonical spec u := by
  have aligned := aligned_shift kept low
  obtain ⟨value, normal⟩ := shift_units aligned.least
    (aligned.long.imp_right (le_trans · (le_roundedMantissa _))) aligned.roundedMantissa_le rfl rfl
  have unit : (2 : ℚ) ^ (shiftToTargetExponent spec m e accuracy).2 ≠ 0 := by positivity
  obtain ⟨stands, canonical⟩ := standsFor_packed value normal result
  refine ⟨_, stands, ⟨aligned.near.trans aligned.half_le, ?_⟩, canonical⟩
  rw [mul_eq_zero_iff_right unit, Nat.cast_eq_zero]
  exact aligned.roundedMantissa_eq_zero

theorem near_round (spec : Format) (some : m ≠ 0) (e : ℤ) :
    ∃ v, StandsFor (round spec .positive m e) v ∧ Near spec (m * 2 ^ e) v ∧
      Canonical spec (round spec .positive m e) := by
  obtain ⟨k, t, opened, value, low⟩ := exists_round_eq spec some e
  rw [opened, ← value]
  exact near_roundWithAccuracy (keeps_exact k) low rfl

theorem near_div_finite (spec : Format) {m' : ℕ} {e' : ℤ} (h : 0 < m) (h' : 0 < m')
    (result : div spec (.finite .positive m e h) (.finite .positive m' e' h') = u) :
    ∃ v, StandsFor u v ∧ Near spec (m * 2 ^ e / (m' * 2 ^ e')) v ∧ Canonical spec u := by
  obtain ⟨k, t, accuracy, x, opened, value, kept, low⟩ := exists_div_eq spec h h'
  rw [← value]
  exact near_roundWithAccuracy kept low (opened.symm.trans result)

/-! ## Packing -/

theorem unpack_of_fields {k f : ℕ} {b : BitVec spec.numBits}
    (bits : b.toNat = k * 2 ^ spec.mantissaBitsWithoutImplicit + f)
    (low : f < 2 ^ spec.mantissaBitsWithoutImplicit) (inside : k + 1 < 2 ^ spec.exponentBits)
    {h : 0 < m} (mantissa : (if k = 0 then f else 2 ^ spec.mantissaBitsWithoutImplicit + f) = m)
    (exponent : ((max k 1 : ℕ) - (spec.exponentBias + spec.mantissaBitsWithoutImplicit) : ℤ) = e) :
    unpack spec b = .finite .positive m e h := by
  have positive := Nat.two_pow_pos spec.mantissaBitsWithoutImplicit
  have quotient : b.toNat / 2 ^ spec.mantissaBitsWithoutImplicit = k := by
    rw [bits, Nat.mul_comm, Nat.mul_add_div positive, Nat.div_eq_of_lt low, Nat.add_zero]
  have remainder : b.toNat % 2 ^ spec.mantissaBitsWithoutImplicit = f := by
    rw [bits, Nat.mul_comm, Nat.mul_add_mod, Nat.mod_eq_of_lt low]
  have first : mantissaOf spec b.toNat = m := by rw [mantissaOf, quotient, remainder, mantissa]
  have second : exponentOf spec b.toNat = e := by rw [exponentOf, quotient, exponent]
  have some : 0 < b.toNat := by
    rw [bits]
    split at mantissa
    · omega
    · exact Nat.add_pos_left (Nat.mul_pos (by omega) positive) _
  have next : (k + 1) * 2 ^ spec.mantissaBitsWithoutImplicit ≤ topBits spec :=
    Nat.mul_le_mul_right _ (by omega)
  rw [Nat.add_mul, Nat.one_mul] at next
  obtain ⟨_, value⟩ := unpack_of_between some (by omega)
  simp only [value, first, second]

theorem unpack_pack_finite {h : 0 < m} (normal : Normal spec m e)
    (room : (e + spec.exponentBias + spec.mantissaBitsWithoutImplicit).toNat + 1 <
      2 ^ spec.exponentBits) :
    unpack spec (pack spec (.finite .positive m e h)) = .finite .positive m e h := by
  have least := normal.least
  rw [minExponent_eq] at least
  have small := normal.small
  rw [Format.mantissaBits, Nat.add_comm, Nat.pow_succ] at small
  have log : m.log2 + 1 = spec.mantissaBits ↔ 2 ^ spec.mantissaBitsWithoutImplicit ≤ m := by
    have width := (Nat.log2_lt h.ne').2 normal.small
    have bound : m.log2 < spec.mantissaBitsWithoutImplicit ↔
        m < 2 ^ spec.mantissaBitsWithoutImplicit := Nat.log2_lt h.ne'
    rw [Format.mantissaBits] at width ⊢
    omega
  simp only [pack, log]
  rw [if_neg (by omega)]
  generalize field : (e + spec.exponentBias + spec.mantissaBitsWithoutImplicit).toNat = n at *
  split
  · refine unpack_of_fields (toNat_packComponents _ _) (BitVec.isLt _) ?_ ?_ ?_
    all_goals rw [BitVec.toNat_ofNat, Nat.mod_eq_of_lt (by omega)]
    · exact room
    · rw [if_neg (by omega), BitVec.toNat_ofNat, Nat.mod_eq_sub_mod ‹_›, Nat.mod_eq_of_lt] <;> omega
    · omega
  · obtain rfl : e = spec.minExponent := normal.long.resolve_right ‹_›
    have least := minExponent_eq spec
    refine unpack_of_fields (toNat_packComponents _ _) (BitVec.isLt _) ?_ ?_ ?_
    all_goals rw [BitVec.toNat_ofNat, Nat.zero_mod]
    · exact Nat.one_lt_two_pow spec.he.ne'
    · rw [if_pos rfl, BitVec.toNat_ofNat, Nat.mod_eq_of_lt (by omega)]
    · rw [Nat.zero_max, least]
      push_cast
      ring

theorem normal_of_unpack {b : BitVec spec.numBits} {h : 0 < m}
    (unpacked : unpack spec b = .finite .positive m e h) : Normal spec m e := by
  have positive : IsPositive (unpack spec b) := by
    rw [unpacked]
    trivial
  have held := held_of_positive positive
  rw [unpacked] at held
  refine ⟨held, ?_⟩
  obtain ⟨some, small⟩ := bits_of_positive positive
  rcases Nat.lt_or_eq_of_le small with below | top
  · obtain ⟨_, spelled⟩ := unpack_of_between some below
    obtain ⟨-, rfl, rfl⟩ := UnpackedFloat.finite.inj (unpacked.symm.trans spelled)
    rw [minExponent_eq, mantissaOf, exponentOf]
    split <;> omega
  · rw [unpack_of_top top] at unpacked
    cases unpacked

end

/-! ## Factors -/

/-- The numbers differ by no more than so many factors close to one. -/
def Around (n : ℕ) (a b : ℚ) : Prop := a ≤ b * (1 + 1 / 2 ^ 49) ^ n ∧ b ≤ a * (1 + 1 / 2 ^ 49) ^ n

namespace Around

variable {n k : ℕ} {a b c d : ℚ}

theorem refl (a : ℚ) : Around 0 a a := by
  rw [Around, pow_zero, mul_one]
  exact ⟨le_rfl, le_rfl⟩

theorem of_abs (nonneg : 0 ≤ a) (close : |a - b| ≤ a / 2 ^ 50) : Around 1 a b := by
  obtain ⟨low, high⟩ := abs_le.1 close
  rw [Around, pow_one]
  constructor <;> linarith

theorem of_units {m u : ℚ} (many : 2 ^ 50 ≤ m) (first : m * u ≤ a ∧ a ≤ (m + 1) * u)
    (second : m * u ≤ b ∧ b ≤ (m + 1) * u) (nonneg : 0 ≤ u) : Around 1 a b := by
  have part := mul_le_mul_of_nonneg_right many nonneg
  have positive : 0 ≤ a := le_trans (by positivity) (part.trans first.1)
  exact .of_abs positive (abs_le.2 ⟨by linarith, by linarith⟩)

theorem eq_zero_iff (around : Around n a b) (nonneg : 0 ≤ a) (nonneg' : 0 ≤ b) :
    a = 0 ↔ b = 0 := by
  constructor
  · rintro rfl
    exact le_antisymm (by simpa using around.2) nonneg'
  · rintro rfl
    exact le_antisymm (by simpa using around.1) nonneg

theorem trans (first : Around n a b) (second : Around k b c) : Around (n + k) a c := by
  constructor
  · rw [pow_add, ← mul_assoc, mul_right_comm]
    exact first.1.trans (mul_le_mul_of_nonneg_right second.1 (by positivity))
  · rw [pow_add, ← mul_assoc]
    exact second.2.trans (mul_le_mul_of_nonneg_right first.2 (by positivity))

theorem mono (around : Around n a b) (nonneg : 0 ≤ a) (nonneg' : 0 ≤ b) (le : n ≤ k) :
    Around k a b := by
  have factors : ((1 + 1 / 2 ^ 49) ^ n : ℚ) ≤ (1 + 1 / 2 ^ 49) ^ k :=
    pow_le_pow_right₀ (by norm_num) le
  exact ⟨around.1.trans (mul_le_mul_of_nonneg_left factors nonneg'),
    around.2.trans (mul_le_mul_of_nonneg_left factors nonneg)⟩

theorem mul (first : Around n a b) (second : Around k c d) (nonneg : 0 ≤ a) (nonneg' : 0 ≤ b)
    (some : 0 ≤ c) (some' : 0 ≤ d) : Around (n + k) (a * c) (b * d) := by
  rw [Around, pow_add, mul_mul_mul_comm, mul_mul_mul_comm a]
  exact ⟨mul_le_mul first.1 second.1 some (by positivity),
    mul_le_mul first.2 second.2 some' (by positivity)⟩

theorem div (first : Around n a b) (second : Around k c d) (nonneg : 0 ≤ a) (nonneg' : 0 ≤ b)
    (some : 0 < c) (some' : 0 < d) : Around (n + k) (a / c) (b / d) := by
  constructor
  · rw [div_le_iff₀ some]
    calc a ≤ b * (1 + 1 / 2 ^ 49) ^ n := first.1
      _ = b / d * (1 + 1 / 2 ^ 49) ^ n * d := by field_simp
      _ ≤ b / d * (1 + 1 / 2 ^ 49) ^ n * (c * (1 + 1 / 2 ^ 49) ^ k) :=
        mul_le_mul_of_nonneg_left second.2 (by positivity)
      _ = b / d * (1 + 1 / 2 ^ 49) ^ (n + k) * c := by ring
  · rw [div_le_iff₀ some']
    calc b ≤ a * (1 + 1 / 2 ^ 49) ^ n := first.2
      _ = a / c * (1 + 1 / 2 ^ 49) ^ n * c := by field_simp
      _ ≤ a / c * (1 + 1 / 2 ^ 49) ^ n * (d * (1 + 1 / 2 ^ 49) ^ k) :=
        mul_le_mul_of_nonneg_left second.1 (by positivity)
      _ = a / c * (1 + 1 / 2 ^ 49) ^ (n + k) * d := by ring

theorem div_right (around : Around n a b) (nonneg : 0 ≤ a) (nonneg' : 0 ≤ b) (some : 0 < c) :
    Around n (a / c) (b / c) := by
  have quotient := around.div (refl c) nonneg nonneg' some some
  exact quotient

end Around

end TextCompletion.Decimal
