import TextCompletion.Proofs.Decimal.FloatOrder

/-!
Sums of numbers that are not below zero. Rounding a positive sum never leaves zero, since no operand
has bits below the least subnormal one; so such a sum is not below zero, and it is above zero if one
of its terms is.
-/

namespace TextCompletion.Decimal

open Float.Model (Format UnpackedFloat totalExponent)
open Float.Model.UnpackedFloat

section

variable {spec : Format} {m : Nat} {e : Int}

theorem mantissa_shiftRight (em : ExtendedMantissa) (n : Nat) :
    (em >>> n).mantissa = em.mantissa / 2 ^ n := by
  induction n with
  | zero => exact (Nat.div_one _).symm
  | succ n ih =>
    have step : (em >>> (n + 1)).mantissa = (em >>> n).mantissa / 2 := rfl
    rw [step, ih, Nat.div_div_eq_div_mul, Nat.pow_succ]

theorem le_roundedMantissa (em : ExtendedMantissa) : em.mantissa ≤ em.roundedMantissa := by
  obtain ⟨mantissa, round, sticky⟩ := em
  cases round <;> cases sticky <;>
    simp [ExtendedMantissa.roundedMantissa, ExtendedMantissa.accuracy,
      Accuracy.roundToNearestEven]

theorem mantissa_ofMantissaAndAccuracy (m : Nat) (accuracy : Accuracy) :
    (ExtendedMantissa.ofMantissaAndAccuracy m accuracy).mantissa = m := by
  rcases accuracy with _ | _ | _ | _ <;> rfl

structure Fits (spec : Format) (m : Nat) (e : Int) : Prop where
  positive : 0 < m
  small : m < 2 ^ spec.mantissaBits
  least : spec.minExponent ≤ e

theorem shiftToTargetExponent_fits (positive : 0 < m) (least : spec.minExponent ≤ e)
    (accuracy : Accuracy) :
    Fits spec (shiftToTargetExponent spec m e accuracy).1.mantissa
      (shiftToTargetExponent spec m e accuracy).2 := by
  have width : 0 < spec.mantissaBits := by
    rw [Format.mantissaBits]
    omega
  have target : spec.targetExponent (totalExponent m e) =
      max ((m.log2 : Int) + 1 + e - spec.mantissaBits) spec.minExponent := rfl
  simp only [shiftToTargetExponent, shiftToExponent, mantissa_shiftRight,
    mantissa_ofMantissaAndAccuracy]
  generalize spec.targetExponent (totalExponent m e) = t at *
  have kept : (t - e).toNat ≤ m.log2 := by omega
  have dropped : m.log2 + 1 ≤ spec.mantissaBits + (t - e).toNat := by omega
  refine ⟨Nat.div_pos ?_ (Nat.two_pow_pos _), ?_, by omega⟩
  · exact (Nat.pow_le_pow_right (by omega) kept).trans (Nat.log2_self_le (Nat.ne_of_gt positive))
  · rw [Nat.div_lt_iff_lt_mul (Nat.two_pow_pos _), ← Nat.pow_add]
    exact Nat.lt_of_lt_of_le Nat.lt_log2_self (Nat.pow_le_pow_right (by omega) dropped)

theorem roundWithAccuracy_fits (positive : 0 < m) (least : spec.minExponent ≤ e) (s : Sign)
    (accuracy : Accuracy) :
    ∃ m' e' h, roundWithAccuracy spec s m e accuracy = .finite s m' e' h ∧ Fits spec m' e' := by
  have first := shiftToTargetExponent_fits positive least accuracy
  have rounded := Nat.lt_of_lt_of_le first.positive (le_roundedMantissa _)
  have second := shiftToTargetExponent_fits rounded first.least .exact
  refine ⟨_, _, second.positive, ?_, second⟩
  unfold roundWithAccuracy
  exact dif_neg (Nat.ne_of_gt second.positive)

theorem decreaseExponent_positive (positive : 0 < m) (t : Int) :
    0 < (decreaseExponent m e t).1 := by
  simp only [decreaseExponent, Nat.shiftLeft_eq]
  exact Nat.mul_pos positive (Nat.two_pow_pos _)

theorem le_decreaseExponent (m : Nat) {t : Int} (least : spec.minExponent ≤ e)
    (target : spec.minExponent ≤ t) : spec.minExponent ≤ (decreaseExponent m e t).2 := by
  simp only [decreaseExponent]
  omega

theorem round_fits (positive : 0 < m) (least : spec.minExponent ≤ e) (s : Sign) :
    ∃ m' e' h, round spec s m e = .finite s m' e' h ∧ Fits spec m' e' := by
  have target : spec.minExponent ≤ spec.targetExponent (totalExponent m e) := le_max_right _ _
  have lowered : 0 < (decreaseExponent m e (spec.targetExponent (totalExponent m e))).1 :=
    decreaseExponent_positive positive _
  exact roundWithAccuracy_fits lowered (le_decreaseExponent m least target) s .exact

/-! Packing what fits. -/

theorem toNat_packComponents (exponent : BitVec spec.exponentBits)
    (mantissa : BitVec spec.mantissaBitsWithoutImplicit) :
    (packComponents spec .positive exponent mantissa).toNat =
      exponent.toNat * 2 ^ spec.mantissaBitsWithoutImplicit + mantissa.toNat := by
  have high : (Sign.positive.toBitVec ++ exponent).toNat = exponent.toNat := by
    rw [BitVec.toNat_append]
    simp [Sign.toBitVec]
  rw [packComponents, BitVec.toNat_append, ← Nat.shiftLeft_add_eq_or_of_lt mantissa.isLt,
    Nat.shiftLeft_eq, high]

theorem toNat_packedInfinity (spec : Format) :
    (packedInfinity spec .positive).toNat = topBits spec := by
  rw [packedInfinity, toNat_packComponents, BitVec.neg_one_eq_allOnes, BitVec.toNat_allOnes]
  rfl

theorem minExponent_eq (spec : Format) :
    spec.minExponent = 1 - (spec.exponentBias + spec.mantissaBitsWithoutImplicit : Int) := by
  have one := Nat.two_pow_pos (spec.exponentBits - 1)
  have bias : (spec.exponentBias : Int) = 2 ^ (spec.exponentBits - 1) - 1 := by
    rw [Format.exponentBias, Nat.cast_sub one]
    push_cast
    rfl
  rw [Format.minExponent, bias, Format.mantissaBits]
  push_cast
  ring

theorem positive_of_packedInfinity : IsPositive (unpack spec (packedInfinity spec .positive)) := by
  have bits := toNat_packedInfinity spec
  exact positive_of_bits (bits ▸ topBits_pos spec) bits.le

theorem positive_of_packComponents {exponent : BitVec spec.exponentBits}
    {mantissa : BitVec spec.mantissaBitsWithoutImplicit}
    (finite : exponent.toNat + 1 < 2 ^ spec.exponentBits)
    (some : 0 < exponent.toNat ∨ 0 < mantissa.toNat) :
    IsPositive (unpack spec (packComponents spec .positive exponent mantissa)) := by
  have fraction := mantissa.isLt
  have next : (exponent.toNat + 1) * 2 ^ spec.mantissaBitsWithoutImplicit ≤ topBits spec :=
    Nat.mul_le_mul_right _ (by omega)
  rw [Nat.add_mul, Nat.one_mul] at next
  apply positive_of_bits
  · rw [toNat_packComponents]
    rcases some with field | rest
    · exact Nat.add_pos_left (Nat.mul_pos field (Nat.two_pow_pos _)) _
    · exact Nat.add_pos_right _ rest
  · rw [toNat_packComponents]
    omega

/-- A positive number keeps its sign in the bits, be it by overflow. -/
theorem pack_finite_positive {h : 0 < m} (fits : Fits spec m e) :
    IsPositive (unpack spec (pack spec (.finite .positive m e h))) := by
  simp only [pack]
  split
  · exact positive_of_packedInfinity
  rename_i finite
  split
  · -- normal: the exponent's field is not zero
    have least := fits.least
    rw [minExponent_eq] at least
    generalize biased : (e + spec.exponentBias + spec.mantissaBitsWithoutImplicit).toNat = n at *
    have field : (BitVec.ofNat spec.exponentBits n).toNat = n := by
      rw [BitVec.toNat_ofNat, Nat.mod_eq_of_lt (by omega)]
    refine positive_of_packComponents ?_ (.inl ?_)
    · rw [field]
      omega
    · rw [field]
      omega
  · -- subnormal: the mantissa is short enough to be kept whole
    rename_i subnormal
    have below : m < 2 ^ spec.mantissaBitsWithoutImplicit := by
      have log := (Nat.log2_lt (Nat.ne_of_gt h)).2 fits.small
      rw [Format.mantissaBits] at log subnormal
      exact (Nat.log2_lt (Nat.ne_of_gt h)).1 (by omega)
    have one := Nat.one_lt_two_pow (Nat.ne_of_gt spec.he)
    refine positive_of_packComponents ?_ (.inr ?_)
    · rw [BitVec.toNat_ofNat, Nat.zero_mod]
      exact one
    · rw [BitVec.toNat_ofNat, Nat.mod_eq_of_lt below]
      exact h

/-- Finite numbers are such as the format can hold. -/
def Held (spec : Format) : UnpackedFloat → Prop
  | .finite _ m e _ => Fits spec m e
  | _ => True

variable {u v : UnpackedFloat} {b : BitVec spec.numBits}

theorem held_of_positive (positive : IsPositive (unpack spec b)) : Held spec (unpack spec b) := by
  obtain ⟨some, small⟩ := bits_of_positive positive
  rcases Nat.lt_or_eq_of_le small with below | top
  · obtain ⟨h, finite⟩ := unpack_of_between some below
    rw [finite]
    refine ⟨h, ?_, ?_⟩
    · have fraction := Nat.mod_lt b.toNat (Nat.two_pow_pos spec.mantissaBitsWithoutImplicit)
      rw [Format.mantissaBits, Nat.pow_add, mantissaOf]
      split <;> omega
    · rw [minExponent_eq, exponentOf]
      omega
  · rw [unpack_of_top top]
    trivial

theorem held_of_nonnegative (nonnegative : IsNonNegative (unpack spec b)) :
    Held spec (unpack spec b) := by
  cases value : unpack spec b with
  | zero s => trivial
  | notANumber => trivial
  | infinity s => trivial
  | finite s m e h =>
    have positive : IsPositive (unpack spec b) := by
      rw [value] at nonnegative ⊢
      exact nonnegative
    exact value ▸ held_of_positive positive

theorem pack_positive (positive : IsPositive u) (held : Held spec u) :
    IsPositive (unpack spec (pack spec u)) := by
  cases u with
  | zero s => exact positive.elim
  | notANumber => exact positive.elim
  | infinity s =>
    cases s with
    | negative => exact positive.elim
    | positive => exact positive_of_packedInfinity
  | finite s m e h =>
    cases s with
    | negative => exact positive.elim
    | positive => exact pack_finite_positive held

theorem pack_zero (s : Sign) : IsNonNegative (unpack spec (pack spec (.zero s))) := by
  have exponent : (0#_ : BitVec spec.exponentBits) ≠ -1#_ := by
    intro same
    have bits := congrArg BitVec.toNat same
    have one := Nat.one_lt_two_pow (Nat.ne_of_gt spec.he)
    rw [BitVec.neg_one_eq_allOnes, BitVec.toNat_allOnes] at bits
    simp at bits
    omega
  have packed : pack spec (.zero s) = packComponents spec s (0#_) (0#_) := rfl
  simp only [packed, unpack, unpackExponent_packComponents, unpackMantissa_packComponents,
    if_neg exponent, if_true, dite_true]
  trivial

theorem add_finite_eq {m' : Nat} {e' : Int} (h : 0 < m) (h' : 0 < m') :
    add spec (.finite .positive m e h) (.finite .positive m' e' h') =
      round spec .positive
        ((decreaseExponent m e (min e e')).1 + (decreaseExponent m' e' (min e e')).1)
        (min e e') := by
  have first : 0 < (decreaseExponent m e (min e e')).1 := decreaseExponent_positive h _
  simp only [add, Sign.apply, UnpackedFloat.normalize]
  generalize (decreaseExponent m e (min e e')).1 = k at *
  generalize (decreaseExponent m' e' (min e e')).1 = k'
  have positive : 0 < ((k : Int) + k') := by omega
  have comparison : compare ((k : Int) + k') 0 = .gt := compare_gt_iff_gt.2 positive
  rw [comparison]
  rfl

theorem add_finite {m' : Nat} {e' : Int} (h : 0 < m) (h' : 0 < m') (fits : Fits spec m e)
    (fits' : Fits spec m' e') :
    ∃ n f pos, add spec (.finite .positive m e h) (.finite .positive m' e' h') =
      .finite .positive n f pos ∧ Fits spec n f := by
  have first : 0 < (decreaseExponent m e (min e e')).1 := decreaseExponent_positive h _
  rw [add_finite_eq]
  exact round_fits (Nat.add_pos_left first _) (le_min fits.least fits'.least) .positive

theorem add_positive (first : IsNonNegative u) (second : IsNonNegative v) (held : Held spec u)
    (held' : Held spec v) (some : IsPositive u ∨ IsPositive v) :
    IsPositive (add spec u v) ∧ Held spec (add spec u v) := by
  cases u with
  | notANumber => exact first.elim
  | zero s =>
    have positive := some.resolve_left id
    cases v with
    | notANumber => exact second.elim
    | zero s' => exact positive.elim
    | infinity s' => exact ⟨positive, trivial⟩
    | finite s' m' e' h' => exact ⟨positive, held'⟩
  | infinity s =>
    cases s with
    | negative => exact first.elim
    | positive =>
      cases v with
      | notANumber => exact second.elim
      | zero s' => exact ⟨trivial, trivial⟩
      | infinity s' =>
        cases s' with
        | negative => exact second.elim
        | positive => exact ⟨trivial, trivial⟩
      | finite s' m' e' h' => exact ⟨trivial, trivial⟩
  | finite s m e h =>
    cases s with
    | negative => exact first.elim
    | positive =>
      cases v with
      | notANumber => exact second.elim
      | zero s' => exact ⟨trivial, held⟩
      | infinity s' => exact ⟨second, trivial⟩
      | finite s' m' e' h' =>
        cases s' with
        | negative => exact second.elim
        | positive =>
          obtain ⟨n, f, pos, sum, fits⟩ := add_finite h h' held held'
          rw [sum]
          exact ⟨trivial, fits⟩

theorem add_zero_zero (spec : Format) (s s' : Sign) :
    ∃ s'', add spec (.zero s) (.zero s') = .zero s'' := by
  cases s <;> cases s' <;> exact ⟨_, rfl⟩

/-! Single precision. -/

section

variable {x y : Float32}

theorem single_add_pos (first : 0 ≤ x) (second : 0 ≤ y) (some : 0 < x ∨ 0 < y) : 0 < x + y := by
  rw [single_nonneg_iff] at first second
  rw [single_pos_iff, single_pos_iff] at some
  have sum :=
    add_positive first second (held_of_nonnegative first) (held_of_nonnegative second) some
  exact single_pos_iff.2 (pack_positive sum.1 sum.2)

theorem single_add_nonneg (first : 0 ≤ x) (second : 0 ≤ y) : 0 ≤ x + y := by
  by_cases some : 0 < x ∨ 0 < y
  · exact single_nonneg_of_pos (single_add_pos first second some)
  · rw [single_nonneg_iff] at first second
    rw [single_pos_iff, single_pos_iff, not_or] at some
    obtain ⟨s, zero⟩ := first.eq_zero some.1
    obtain ⟨s', zero'⟩ := second.eq_zero some.2
    obtain ⟨s'', sum⟩ := add_zero_zero .binary32 s s'
    have packed : (x + y).toModel =
        Float32.Model.pack (add .binary32 x.toModel.unpack y.toModel.unpack) := rfl
    rw [single_nonneg_iff, packed, zero, zero', sum]
    exact pack_zero s''

theorem foldl_add_pos {xs : List Float32} (first : 0 ≤ x) (all : ∀ w ∈ xs, 0 ≤ w)
    (some : 0 < x ∨ ∃ w ∈ xs, 0 < w) : 0 < xs.foldl (· + ·) x := by
  induction xs generalizing x with
  | nil => simpa using some
  | cons w rest ih =>
    have second := all w List.mem_cons_self
    refine ih (single_add_nonneg first second) (fun v member => all v (.tail _ member)) ?_
    rcases some with head | ⟨v, member, positive⟩
    · exact .inl (single_add_pos first second (.inl head))
    · rcases List.mem_cons.1 member with rfl | member
      · exact .inl (single_add_pos first second (.inr positive))
      · exact .inr ⟨v, member, positive⟩

end

end

end TextCompletion.Decimal
