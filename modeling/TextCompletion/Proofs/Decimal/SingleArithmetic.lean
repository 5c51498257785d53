import TextCompletion.Proofs.Decimal.FloatRounding

/-!
Arithmetic on singles that are finite and carry no sign: each result is the single nearest to the
exact one. What the unit interval needs follows from that. Sums do not fall below their terms, a
sum of parts of 1 stays finite for good, and a true part of a number is less than the number.
-/

namespace TextCompletion.Decimal

open Float.Model (Format UnpackedFloat totalExponent)
open Float.Model.UnpackedFloat

section

variable {m m' : ℕ} {e e' : ℤ}

theorem decreaseExponent_exact {m : ℕ} {e t : ℤ} (le : t ≤ e) :
    ((decreaseExponent m e t).1 : ℚ) * 2 ^ t = m * 2 ^ e := by
  have exponent : (decreaseExponent m e t).2 = t := by
    simp only [decreaseExponent]
    omega
  rw [← decreaseExponent_value m e t, exponent]

theorem rounds_add_finite (h : 0 < m) (h' : 0 < m') :
    Rounds (m * 2 ^ e + m' * 2 ^ e') (pack .binary32
      (add .binary32 (.finite .positive m e h) (.finite .positive m' e' h'))).toNat := by
  have some := decreaseExponent_positive h (e := e) (min e e')
  rw [add_finite_eq, ← decreaseExponent_exact (min_le_left e e'),
    ← decreaseExponent_exact (min_le_right e e'), ← add_mul, ← Nat.cast_add]
  exact rounds_round (Nat.ne_of_gt (Nat.add_pos_left some _)) _

theorem rounds_sub_finite (h : 0 < m) (h' : 0 < m')
    (le : (m' : ℚ) * 2 ^ e' ≤ m * 2 ^ e) :
    Rounds (m * 2 ^ e - m' * 2 ^ e') (pack .binary32
      (sub .binary32 (.finite .positive m e h) (.finite .positive m' e' h'))).toNat := by
  rw [← decreaseExponent_exact (min_le_left e e'), ← decreaseExponent_exact (min_le_right e e')]
    at le ⊢
  simp only [sub, Sign.apply, UnpackedFloat.normalize]
  generalize (decreaseExponent m e (min e e')).1 = k at *
  generalize (decreaseExponent m' e' (min e e')).1 = k' at *
  have le' : k' ≤ k := by exact_mod_cast le_of_mul_le_mul_right le (by positivity)
  rw [← sub_mul, ← Nat.cast_sub le']
  rcases Nat.lt_or_eq_of_le le' with less | rfl
  · have comparison : compare ((k : ℤ) - k') 0 = .gt := compare_gt_iff_gt.2 (by omega)
    have difference : ((k : ℤ) - k').toNat = k - k' := by omega
    rw [comparison, difference]
    exact rounds_round (by omega) _
  · have comparison : compare ((k' : ℤ) - k') 0 = .eq := compare_eq_iff_eq.2 (by omega)
    rw [comparison, Nat.sub_self, Nat.cast_zero, zero_mul, ← valueOf_zero]
    exact rounds_self (Nat.zero_le _)

theorem rounds_mul_finite (h : 0 < m) (h' : 0 < m')
    (enough : e + e' ≤ -149 ∨ 8388608 ≤ m * m') :
    Rounds (m * 2 ^ e * (m' * 2 ^ e')) (pack .binary32
      (mul .binary32 (.finite .positive m e h) (.finite .positive m' e' h'))).toNat := by
  have value : (m * 2 ^ e * (m' * 2 ^ e') : ℚ) = (m * m' : ℕ) * 2 ^ (e + e') := by
    rw [zpow_add₀ two_ne_zero]
    push_cast
    ring
  rw [value]
  exact rounds_roundWithAccuracy (keeps_exact _) (le_targetExponent enough)

theorem rounds_div_finite (h : 0 < m) (h' : 0 < m') :
    Rounds (m * 2 ^ e / (m' * 2 ^ e')) (pack .binary32
      (div .binary32 (.finite .positive m e h) (.finite .positive m' e' h'))).toNat := by
  obtain ⟨k, t, accuracy, x, opened, value, kept, low⟩ := exists_div_eq .binary32 h h'
  rw [opened, ← value]
  exact rounds_roundWithAccuracy kept low

end

/-- Singles that are finite and carry no sign. -/
def IsMagnitude (x : Float32) : Prop := x.toBits.toNat < topBits .binary32

def magnitude (x : Float32) : ℚ := valueOf x.toBits.toNat

section

variable {x y : Float32}

theorem unpack_magnitude (h : IsMagnitude x) :
    (x.toBits.toNat = 0 ∧ x.toModel.unpack = .zero .positive) ∨
    0 < x.toBits.toNat ∧ ∃ pos, x.toModel.unpack =
      .finite .positive (mantissaOf .binary32 x.toBits.toNat)
        (exponentOf .binary32 x.toBits.toNat) pos := by
  rcases Nat.eq_zero_or_pos x.toBits.toNat with zero | some
  · exact .inl ⟨zero, unpack_of_zero zero⟩
  · exact .inr ⟨some, unpack_of_between some h⟩

theorem toNat_pack_zero : (pack .binary32 (.zero .positive)).toNat = 0 := by decide

theorem toNat_pack_unpack {b : BitVec (Format.numBits .binary32)}
    (small : b.toNat < topBits .binary32) :
    (pack .binary32 (unpack .binary32 b)).toNat = b.toNat := by
  rcases unpack_cases small.le with ⟨bits, value⟩ | ⟨-, -, pos, value⟩ | ⟨bits, -⟩
  · rw [value, bits, toNat_pack_zero]
  · obtain ⟨least, normal, few, bits⟩ := units_of_bits b.toNat
    rw [value, toNat_pack_finite least normal few, bits]
    exact Nat.min_eq_left small.le
  · exact absurd bits (Nat.ne_of_lt small)

theorem toNat_repack (h : IsMagnitude x) :
    (pack .binary32 x.toModel.unpack).toNat = x.toBits.toNat :=
  toNat_pack_unpack h

theorem rounds_add (first : IsMagnitude x) (second : IsMagnitude y) :
    Rounds (magnitude x + magnitude y) (x + y).toBits.toNat := by
  have packed : (x + y).toBits.toNat =
      (pack .binary32 (add .binary32 x.toModel.unpack y.toModel.unpack)).toNat := rfl
  rw [packed]
  rcases unpack_magnitude first with ⟨bits, value⟩ | ⟨-, pos, value⟩
  · have same : add .binary32 x.toModel.unpack y.toModel.unpack = y.toModel.unpack := by
      rw [value]
      rcases unpack_magnitude second with ⟨-, value'⟩ | ⟨-, pos', value'⟩ <;> rw [value'] <;> rfl
    rw [same, toNat_repack second, magnitude, bits, valueOf_zero, zero_add]
    exact rounds_self second.le
  · rcases unpack_magnitude second with ⟨bits', value'⟩ | ⟨-, pos', value'⟩
    · have same : add .binary32 x.toModel.unpack y.toModel.unpack = x.toModel.unpack := by
        rw [value, value']
        rfl
      rw [same, toNat_repack first, magnitude, magnitude, bits', valueOf_zero, add_zero]
      exact rounds_self first.le
    · rw [value, value']
      exact rounds_add_finite pos pos'

theorem rounds_sub (first : IsMagnitude x) (second : IsMagnitude y)
    (le : y.toBits.toNat ≤ x.toBits.toNat) :
    Rounds (magnitude x - magnitude y) (x - y).toBits.toNat := by
  have packed : (x - y).toBits.toNat =
      (pack .binary32 (sub .binary32 x.toModel.unpack y.toModel.unpack)).toNat := rfl
  rw [packed]
  rcases unpack_magnitude second with ⟨bits, value⟩ | ⟨some, pos, value⟩
  · have same : sub .binary32 x.toModel.unpack y.toModel.unpack = x.toModel.unpack := by
      rw [value]
      rcases unpack_magnitude first with ⟨-, value'⟩ | ⟨-, pos', value'⟩ <;> rw [value'] <;> rfl
    rw [same, toNat_repack first, magnitude, magnitude, bits, valueOf_zero, sub_zero]
    exact rounds_self first.le
  · obtain ⟨-, pos', value'⟩ := (unpack_magnitude first).resolve_left (by omega)
    rw [value, value']
    exact rounds_sub_finite pos' pos (valueOf_strictMono.monotone le)

theorem rounds_mul (first : IsMagnitude x) (second : IsMagnitude y) :
    Rounds (magnitude x * magnitude y) (x * y).toBits.toNat := by
  have packed : (x * y).toBits.toNat =
      (pack .binary32 (mul .binary32 x.toModel.unpack y.toModel.unpack)).toNat := rfl
  rw [packed]
  rcases unpack_magnitude first with ⟨bits, value⟩ | ⟨-, pos, value⟩
  · have zero : mul .binary32 x.toModel.unpack y.toModel.unpack = .zero .positive := by
      rw [value]
      rcases unpack_magnitude second with ⟨-, value'⟩ | ⟨-, pos', value'⟩ <;> rw [value'] <;> rfl
    rw [zero, magnitude, bits, valueOf_zero, zero_mul, ← valueOf_zero]
    exact rounds_self (Nat.zero_le _)
  · rcases unpack_magnitude second with ⟨bits', value'⟩ | ⟨-, pos', value'⟩
    · rw [value, value', magnitude, magnitude, bits', valueOf_zero, mul_zero, ← valueOf_zero]
      exact rounds_self (Nat.zero_le _)
    · rw [value, value']
      refine rounds_mul_finite pos pos' ?_
      obtain ⟨-, normal, -, -⟩ := units_of_bits x.toBits.toNat
      obtain ⟨-, normal', -, -⟩ := units_of_bits y.toBits.toNat
      rcases normal with low | long
      · rcases normal' with low' | long'
        · exact .inl (by omega)
        · exact .inr (long'.trans (Nat.le_mul_of_pos_left _ pos))
      · exact .inr (long.trans (Nat.le_mul_of_pos_right _ pos'))

theorem rounds_div (first : IsMagnitude x) (second : IsMagnitude y) (some : 0 < y.toBits.toNat) :
    Rounds (magnitude x / magnitude y) (x / y).toBits.toNat := by
  have packed : (x / y).toBits.toNat =
      (pack .binary32 (div .binary32 x.toModel.unpack y.toModel.unpack)).toNat := rfl
  obtain ⟨-, pos', value'⟩ := (unpack_magnitude second).resolve_left (by omega)
  rw [packed, value']
  rcases unpack_magnitude first with ⟨bits, value⟩ | ⟨-, pos, value⟩
  · rw [value, magnitude, bits, valueOf_zero, zero_div, ← valueOf_zero]
    exact rounds_self (Nat.zero_le _)
  · rw [value]
    exact rounds_div_finite pos pos'

/-! Bounds on results, as bounds on their bits. -/

theorem magnitude_nonneg (x : Float32) : 0 ≤ magnitude x :=
  valueOf_zero ▸ valueOf_strictMono.monotone (Nat.zero_le _)

theorem magnitude_pos (some : 0 < x.toBits.toNat) : 0 < magnitude x :=
  valueOf_zero ▸ valueOf_strictMono some

theorem le_add_left (first : IsMagnitude x) (second : IsMagnitude y) :
    x.toBits.toNat ≤ (x + y).toBits.toNat :=
  (rounds_add first second).le_of_le first.le (le_add_of_nonneg_right (magnitude_nonneg y))

theorem le_add_right (first : IsMagnitude x) (second : IsMagnitude y) :
    y.toBits.toNat ≤ (x + y).toBits.toNat :=
  (rounds_add first second).le_of_le second.le (le_add_of_nonneg_left (magnitude_nonneg x))

theorem add_of_zero (first : IsMagnitude x) (zero : y.toBits.toNat = 0) :
    (x + y).toBits.toNat = x.toBits.toNat := by
  have second : IsMagnitude y := Nat.lt_of_le_of_lt zero.le (topBits_pos .binary32)
  have rounded := rounds_add first second
  rw [magnitude, magnitude, zero, valueOf_zero, add_zero] at rounded
  exact Nat.le_antisymm (rounded.ge_of_le le_rfl) (rounded.le_of_le first.le le_rfl)

def InUnit (x : Float32) : Prop := x.toBits.toNat ≤ powerBits 0

theorem powerBits_lt_top {k : ℤ} (small : k ≤ 127) : powerBits k < topBits .binary32 := by
  have top : topBits .binary32 = 2139095040 := by decide
  rw [top, powerBits]
  omega

theorem InUnit.isMagnitude (h : InUnit x) : IsMagnitude x :=
  Nat.lt_of_le_of_lt h (powerBits_lt_top (by decide))

theorem toNat_single_one : (1 : Float32).toBits.toNat = powerBits 0 := rfl

theorem inUnit_one : InUnit 1 := toNat_single_one.le

theorem inUnit_zero : InUnit 0 := Nat.zero_le _

theorem InUnit.magnitude_le (h : InUnit x) : magnitude x ≤ 1 := by
  have one := valueOf_powerBits (k := 0) (by decide)
  rw [zpow_zero] at one
  exact one ▸ valueOf_strictMono.monotone h

/-- What parts of 1 can sum up to. -/
def IsMass (x : Float32) : Prop := x.toBits.toNat ≤ powerBits 25

theorem IsMass.isMagnitude (h : IsMass x) : IsMagnitude x :=
  Nat.lt_of_le_of_lt h (powerBits_lt_top (by decide))

theorem InUnit.isMass (h : InUnit x) : IsMass x := Nat.le_trans h (by decide)

/-- The part is less than half of the last bit of the greatest mass. -/
theorem IsMass.add (first : IsMass x) (second : InUnit y) : IsMass (x + y) := by
  have rounded := rounds_add first.isMagnitude second.isMagnitude
  have top := valueOf_powerBits (k := 25) (by decide)
  have next := valueOf_succ (powerBits 25)
  have exponent : exponentOf .binary32 (powerBits 25) = 2 := by decide
  have low : magnitude x ≤ valueOf (powerBits 25) := valueOf_strictMono.monotone first
  have small := second.magnitude_le
  rw [exponent] at next
  exact rounded.below _ (by norm_num at *; linarith)

theorem div_inUnit (le : x.toBits.toNat ≤ y.toBits.toNat) (some : 0 < y.toBits.toNat)
    (finite : IsMagnitude y) : InUnit (x / y) := by
  have rounded := rounds_div (Nat.lt_of_le_of_lt le finite) finite some
  have positive := magnitude_pos some
  refine rounded.ge_of_le ?_
  rw [valueOf_powerBits (by decide), zpow_zero, div_le_one positive]
  exact valueOf_strictMono.monotone le

theorem magnitude_one : magnitude 1 = 1 := by
  rw [magnitude, toNat_single_one, valueOf_powerBits (by decide), zpow_zero]

theorem le_one_div (some : 0 < y.toBits.toNat) (small : IsMass y) :
    powerBits (-25) ≤ (1 / y).toBits.toNat := by
  have rounded := rounds_div inUnit_one.isMagnitude small.isMagnitude some
  have positive := magnitude_pos some
  have bound : magnitude y ≤ 2 ^ (25 : ℤ) := by
    rw [← valueOf_powerBits (by decide)]
    exact valueOf_strictMono.monotone small
  refine rounded.le_of_le (powerBits_lt_top (by decide)).le ?_
  rw [valueOf_powerBits (by decide), magnitude_one, le_div_iff₀ positive, zpow_neg]
  exact inv_mul_le_one_of_le₀ bound (by positivity)

theorem valueOf_part : valueOf (powerBits 0 - 2) = 1 - 1 / 8388608 := by
  have fields : mantissaOf .binary32 (powerBits 0 - 2) = 16777214 ∧
      exponentOf .binary32 (powerBits 0 - 2) = -24 := by decide
  rw [valueOf, fields.1, fields.2]
  norm_num

theorem mul_lt_of_part (part : x.toBits.toNat ≤ powerBits 0 - 2)
    (normal : powerBits (-126) ≤ y.toBits.toNat) (finite : IsMagnitude y) :
    (x * y).toBits.toNat < y.toBits.toNat := by
  have rounded := rounds_mul (Nat.lt_of_le_of_lt part (by decide)) finite
  have least : powerBits (-126) = 8388608 := by decide
  obtain ⟨n, bits⟩ : ∃ n, y.toBits.toNat = n + 1 := ⟨y.toBits.toNat - 1, by omega⟩
  have below : magnitude x ≤ 1 - 1 / 8388608 :=
    valueOf_part ▸ valueOf_strictMono.monotone part
  -- the last bit of the number counts for as much as that part is short of the whole
  have step := valueOf_succ n
  have unit : (0 : ℚ) < 2 ^ exponentOf .binary32 n := by positivity
  have long := units_le_valueOf (n := n) (by omega)
  rw [bits]
  refine Nat.lt_succ_of_le (rounded.below n ?_)
  have product : magnitude x * magnitude y ≤ (1 - 1 / 8388608) * magnitude y :=
    mul_le_mul_of_nonneg_right below (magnitude_nonneg y)
  rw [magnitude, magnitude, bits] at *
  linarith

theorem toNat_ofBits {b : UInt32} (small : b.toNat < topBits .binary32) :
    (Float32.ofBits b).toBits.toNat = b.toNat :=
  toNat_pack_unpack small

/-! What is no number, and what a number less itself comes to. -/

theorem isNaN_iff : x.isNaN = true ↔ x.toModel.unpack = .notANumber := by
  have value : x.isNaN = x.toModel.unpack.isNaN := rfl
  rw [value]
  cases x.toModel.unpack <;> simp [UnpackedFloat.isNaN]

theorem unpack_pack_notANumber : unpack .binary32 (pack .binary32 .notANumber) = .notANumber := by
  rfl

theorem add_isNaN (none : x.isNaN = true ∨ y.isNaN = true) : (x + y).isNaN = true := by
  have sum : (x + y).toModel.unpack =
      unpack .binary32 (pack .binary32 (add .binary32 x.toModel.unpack y.toModel.unpack)) := rfl
  simp only [isNaN_iff] at none ⊢
  have unpacked : add .binary32 x.toModel.unpack y.toModel.unpack = .notANumber := by
    rcases none with first | second
    · rw [first]
      rfl
    · rw [second]
      cases x.toModel.unpack <;> rfl
  rw [sum, unpacked, unpack_pack_notANumber]

theorem div_isNaN (none : y.isNaN = true) : (x / y).isNaN = true := by
  have quotient : (x / y).toModel.unpack =
      unpack .binary32 (pack .binary32 (div .binary32 x.toModel.unpack y.toModel.unpack)) := rfl
  rw [isNaN_iff] at none ⊢
  have unpacked : div .binary32 x.toModel.unpack y.toModel.unpack = .notANumber := by
    rw [none]
    cases x.toModel.unpack <;> rfl
  rw [quotient, unpacked, unpack_pack_notANumber]

theorem sub_self_unpacked (u : UnpackedFloat) :
    sub .binary32 u u = .notANumber ∨ sub .binary32 u u = .zero .positive := by
  cases u with
  | notANumber => exact .inl rfl
  | infinity s => cases s <;> exact .inl rfl
  | zero s => cases s <;> exact .inr rfl
  | finite s m e h =>
    right
    simp only [sub, sub_self, UnpackedFloat.normalize]
    rfl

theorem sub_self_cases (x : Float32) : (x - x).isNaN = true ∨ ((x - x) == 0) = true := by
  have difference : (x - x).toModel.unpack =
      unpack .binary32 (pack .binary32 (sub .binary32 x.toModel.unpack x.toModel.unpack)) := rfl
  rcases sub_self_unpacked x.toModel.unpack with none | zero
  · left
    rw [isNaN_iff, difference, none, unpack_pack_notANumber]
  · right
    have equal : ((x - x) == 0) =
        ((x - x).toModel.unpack.compare (0 : Float32).toModel.unpack == some .eq) := rfl
    rw [equal, difference, zero, unpack_single_zero]
    rfl

end

end TextCompletion.Decimal
