import TextCompletion.Proofs.Decimal.FloatSums

/-!
Which positive double-precision numbers become zero in single precision: those up to half of the
least single, which is 2 to the power -150. The tie goes to the even neighbour, zero.
-/

namespace TextCompletion.Decimal

open Float.Model (Format UnpackedFloat)
open Float.Model.UnpackedFloat

theorem roundQuotient_eq_zero (num : Nat) {den : Nat} (positive : 0 < den) :
    roundQuotient num den = 0 ↔ 2 * num ≤ den := by
  have rest := Nat.mod_lt num positive
  simp only [roundQuotient]
  by_cases below : num < den
  · rw [Nat.div_eq_of_lt below, Nat.mod_eq_of_lt below, if_pos (Nat.zero_mod 2)]
    split
    · omega
    · split <;> omega
  · have least : 1 ≤ num / den := Nat.div_pos (by omega) positive
    generalize num / den = q at *
    split
    · omega
    · split
      · omega
      · split <;> omega

theorem den_le_of_log2 {num den k : Nat} (some : 0 < num) (bound : den.log2 + 1 ≤ num.log2 + k) :
    den ≤ num * 2 ^ k :=
  calc den ≤ 2 ^ (den.log2 + 1) := Nat.lt_log2_self.le
    _ ≤ 2 ^ (num.log2 + k) := Nat.pow_le_pow_right (by omega) bound
    _ = 2 ^ num.log2 * 2 ^ k := Nat.pow_add _ _ _
    _ ≤ num * 2 ^ k := Nat.mul_le_mul_right _ (Nat.log2_self_le (Nat.ne_of_gt some))

theorem den_le_of_binaryExponent {num den k : Nat} (some : 0 < num)
    (exponent : -(k : Int) ≤ binaryExponent num den) : den ≤ num * 2 ^ k := by
  simp only [binaryExponent] at exponent
  by_cases whole : 0 ≤ (num.log2 : Int) - den.log2
  · simp only [if_pos whole] at exponent
    split at exponent
    · exact den_le_of_log2 some (by omega)
    · rename_i reached
      calc den ≤ den * Nat.pow 2 ((num.log2 : Int) - den.log2).toNat :=
            Nat.le_mul_of_pos_right _ (Nat.two_pow_pos _)
        _ ≤ num := Nat.not_lt.1 reached
        _ ≤ num * 2 ^ k := Nat.le_mul_of_pos_right _ (Nat.two_pow_pos _)
  · simp only [if_neg whole] at exponent
    split at exponent
    · exact den_le_of_log2 some (by omega)
    · rename_i reached
      calc den ≤ num * Nat.pow 2 (-((num.log2 : Int) - den.log2)).toNat := Nat.not_lt.1 reached
        _ ≤ num * 2 ^ k := Nat.mul_le_mul_left _ (Nat.pow_le_pow_right (by omega) (by omega))

namespace BinaryFormat

theorem roundRatio_eq_zero (num : Nat) {den : Nat} (positive : 0 < den) :
    binary32.roundRatio num den = 0 ↔ num * 2 ^ 150 ≤ den := by
  have minimum : binary32.minExponent = -126 := by decide
  have fraction : binary32.fractionBits = 23 := rfl
  have infinite : 0 < binary32.infinity := by decide
  rcases Nat.eq_zero_or_pos num with rfl | some
  · simp [roundRatio]
  simp only [roundRatio, if_neg (Nat.ne_of_gt some), minimum, fraction, Nat.pow_eq]
  generalize binary32.infinity = top at *
  by_cases subnormal : binaryExponent num den ≤ -126
  · have exponent : max (binaryExponent num den) (-126) = -126 := by omega
    have unit : ¬ (0 : Int) ≤ -126 - (23 : Nat) := by omega
    have shift : (-((-126 : Int) - (23 : Nat))).toNat = 149 := by omega
    have field : ((-126 : Int) - -126).toNat = 0 := by omega
    have power : num * 2 ^ 150 = 2 * (num * 2 ^ 149) := by
      rw [Nat.pow_succ, ← Nat.mul_assoc, Nat.mul_comm]
    rw [exponent, if_neg unit, shift, field, Nat.zero_mul, Nat.zero_add, power,
      ← roundQuotient_eq_zero (num * 2 ^ 149) positive]
    generalize roundQuotient (num * 2 ^ 149) den = steps
    omega
  · have least : den ≤ num * 2 ^ 125 := den_le_of_binaryExponent some (by omega)
    have greater : den < num * 2 ^ 150 :=
      Nat.lt_of_le_of_lt least
        (Nat.mul_lt_mul_of_pos_left (Nat.pow_lt_pow_right (by omega) (by omega)) some)
    have field : 0 < (max (binaryExponent num den) (-126) - -126).toNat := by omega
    have size := Nat.mul_pos field (Nat.two_pow_pos 23)
    exact iff_of_false (Nat.ne_of_gt (Nat.lt_min.2 ⟨Nat.add_pos_left size _, infinite⟩))
      (Nat.not_le.2 greater)

theorem roundRatio_le_infinity (f : BinaryFormat) (num den : Nat) :
    f.roundRatio num den ≤ f.infinity := by
  simp only [roundRatio]
  split
  · exact Nat.zero_le _
  · exact Nat.min_le_right _ _

def ofSplit (s : Nat) (e : Int) : Nat :=
  if 0 ≤ e then binary32.roundRatio (s * Nat.pow 2 e.toNat) 1
  else binary32.roundRatio s (Nat.pow 2 (-e).toNat)

theorem ofSplit_le_infinity (s : Nat) (e : Int) : ofSplit s e ≤ binary32.infinity := by
  rw [ofSplit]
  split <;> exact roundRatio_le_infinity _ _ _

theorem ofSplit_eq_zero {s : Nat} (some : 0 < s) (e : Int) :
    ofSplit s e = 0 ↔ e ≤ -150 ∧ s ≤ 2 ^ (-150 - e).toNat := by
  simp only [ofSplit, Nat.pow_eq]
  split
  · rename_i whole
    have greater : 1 < s * 2 ^ e.toNat * 2 ^ 150 :=
      Nat.lt_of_lt_of_le (Nat.one_lt_two_pow (by omega))
        (Nat.le_mul_of_pos_left _ (Nat.mul_pos some (Nat.two_pow_pos _)))
    rw [roundRatio_eq_zero _ Nat.one_pos]
    exact iff_of_false (Nat.not_le.2 greater) (by omega)
  · rw [roundRatio_eq_zero _ (Nat.two_pow_pos _)]
    by_cases low : e ≤ -150
    · have power : (-e).toNat = (-150 - e).toNat + 150 := by omega
      rw [power, Nat.pow_add, Nat.mul_le_mul_right_iff (Nat.two_pow_pos _)]
      exact (and_iff_right low).symm
    · have less : 2 ^ (-e).toNat < 2 ^ 150 := Nat.pow_lt_pow_right (by omega) (by omega)
      have greater : 2 ^ 150 ≤ s * 2 ^ 150 := Nat.le_mul_of_pos_left _ some
      exact iff_of_false (Nat.not_le.2 (Nat.lt_of_lt_of_le less greater)) fun both => low both.1

def halfLeast : Nat := 873 * 2 ^ 52

theorem ofSplit_split {n : Nat} (some : 0 < n) :
    ofSplit (binary64.split n).1 (binary64.split n).2 = 0 ↔ n ≤ halfLeast := by
  have minimum : binary64.minExponent = -1022 := by decide
  have width : binary64.fractionBits = 52 := rfl
  have whole := Nat.div_add_mod n (2 ^ 52)
  have small := Nat.mod_lt n (Nat.two_pow_pos 52)
  simp only [split, minimum, width, Nat.pow_eq, halfLeast]
  generalize n / 2 ^ 52 = q at *
  generalize n % 2 ^ 52 = r at *
  split
  · rename_i zero
    have same : r = n := by rw [← whole, zero, Nat.mul_zero, Nat.zero_add]
    have bound : 2 ^ 52 ≤ 2 ^ (-150 - ((-1022 : Int) - (52 : Nat))).toNat :=
      Nat.pow_le_pow_right (by omega) (by omega)
    rw [same] at small ⊢
    rw [ofSplit_eq_zero some]
    exact iff_of_true ⟨by omega, small.le.trans bound⟩ (by omega)
  · rename_i normal
    rw [ofSplit_eq_zero (by omega)]
    rcases Nat.lt_trichotomy q 873 with below | rfl | above
    · have bound : 2 ^ 53 ≤ 2 ^ (-150 - ((-1022 : Int) + q - 1 - (52 : Nat))).toNat :=
        Nat.pow_le_pow_right (by omega) (by omega)
      exact iff_of_true ⟨by omega, le_trans (by omega) bound⟩ (by omega)
    · have exponent : (-150 - ((-1022 : Int) + (873 : Nat) - 1 - (52 : Nat))).toNat = 52 := by omega
      rw [exponent]
      omega
    · refine iff_of_false (fun both => ?_) (by omega)
      have bound : 2 ^ (-150 - ((-1022 : Int) + q - 1 - (52 : Nat))).toNat < 2 ^ 52 :=
        Nat.pow_lt_pow_right (by omega) (by omega)
      exact absurd both.2 (Nat.not_le.2 (Nat.lt_of_lt_of_le bound (Nat.le_add_left _ _)))

theorem infinity_eq_topBits :
    binary32.infinity = topBits .binary32 ∧ binary64.infinity = topBits .binary64 := by decide

theorem convert_of_le {n : Nat} (small : n ≤ binary64.infinity) :
    binary64.convert .binary32 n =
      if n = binary64.infinity then binary32.infinity
      else ofSplit (binary64.split n).1 (binary64.split n).2 := by
  have below : n < binary64.signBit := Nat.lt_of_le_of_lt small (by decide)
  simp only [convert, Nat.mod_eq_of_lt below, if_neg (Nat.not_lt.2 small),
    if_neg (Nat.not_le.2 below), Nat.zero_add]
  rfl

end BinaryFormat

open BinaryFormat

/-- Half of the least single, 2 to the power -150. -/
def halfLeastSingle : Float := Float.ofBits 0x3690000000000000

theorem toBits_halfLeastSingle : halfLeastSingle.toBits.toNat = halfLeast := by decide +kernel

theorem single_ofBits_pos {n : Nat} (positive : 0 < n) (small : n ≤ topBits .binary32) :
    0 < Float32.ofBits (UInt32.ofNat n) := by
  have width : topBits .binary32 < 2 ^ 32 := by decide
  have bits : (UInt32.ofNat n).toBitVec.toNat = n :=
    UInt32.toNat_ofNat_of_lt (Nat.lt_of_le_of_lt small width)
  have value : IsPositive (unpack .binary32 (UInt32.ofNat n).toBitVec) :=
    positive_of_bits (bits.symm ▸ positive) (bits.le.trans small)
  exact single_pos_iff.2 (pack_positive value (held_of_positive value))

variable {x : Float}

theorem le_halfLeastSingle_iff (small : x.toBits.toNat ≤ topBits .binary64) :
    x ≤ halfLeastSingle ↔ x.toBits.toNat ≤ halfLeast := by
  rw [double_le_iff_bits small (toBits_halfLeastSingle.le.trans (by decide)),
    toBits_halfLeastSingle]

theorem nearestSingle_eq_zero (positive : 0 < x) (low : x ≤ halfLeastSingle) :
    nearestSingle x = 0 := by
  obtain ⟨some, small⟩ := double_pos_iff.1 positive
  rw [le_halfLeastSingle_iff small] at low
  have finite : x.toBits.toNat ≠ binary64.infinity :=
    Nat.ne_of_lt (Nat.lt_of_le_of_lt low (by decide))
  have bits : binary64.convert .binary32 x.toBits.toNat = 0 := by
    rw [convert_of_le (infinity_eq_topBits.2 ▸ small), if_neg finite, ofSplit_split some]
    exact low
  rw [nearestSingle, bits]
  decide +kernel

theorem nearestSingle_pos (positive : 0 < x) (above : ¬ x ≤ halfLeastSingle) :
    0 < nearestSingle x := by
  obtain ⟨some, small⟩ := double_pos_iff.1 positive
  rw [le_halfLeastSingle_iff small] at above
  have bits := convert_of_le (infinity_eq_topBits.2 ▸ small)
  have bounds : 0 < binary64.convert .binary32 x.toBits.toNat ∧
      binary64.convert .binary32 x.toBits.toNat ≤ binary32.infinity := by
    rw [bits]
    split
    · exact ⟨by decide, le_rfl⟩
    · refine ⟨Nat.pos_of_ne_zero fun zero => ?_, ofSplit_le_infinity _ _⟩
      exact above ((ofSplit_split some).1 zero)
  exact single_ofBits_pos bounds.1 (infinity_eq_topBits.1 ▸ bounds.2)

end TextCompletion.Decimal
