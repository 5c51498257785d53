import TextCompletion.Proofs.Decimal.Scaling
import TextCompletion.Proofs.Json.Numerals

/-!
What a number is worth that was read, against the number that is written. The significand and its
power of ten stand close to the exact number, however many digits there are. Main statements: a
number whose exact value is zero is read as zero, however it is spelled; one that is well below half
of the least double above zero is read as zero, too, and one that is well above it is not.
-/

namespace TextCompletion.Json

open Decimal

def Power.exponent (e : Power) : ℤ :=
  if e.isDown then -wholeFrom 0 e.digits else wholeFrom 0 e.digits

namespace Numeral

def exponent (n : Numeral) : ℤ := (n.power.map Power.exponent).getD 0

def magnitude (n : Numeral) : ℚ :=
  wholeFrom 0 (n.whole ++ n.decimals) * 10 ^ (n.exponent - n.decimals.length)

/-- The exponent is one of those that are told apart. -/
def IsBounded (n : Numeral) : Prop := n.exponent.natAbs ≤ Reader.exponentBound

end Numeral

/-! ## Digits -/

section

variable {ds ds' : List UInt8} {n m : ℕ}

theorem wholeFrom_append (n : ℕ) (ds ds' : List UInt8) :
    wholeFrom n (ds ++ ds') = wholeFrom (wholeFrom n ds) ds' := List.foldl_append

theorem toNat_le_of_isDigit {d : UInt8} (digit : isDigit d = true) : d.toNat - 48 ≤ 9 := by
  have range : 48 ≤ d ∧ d ≤ 57 := by simpa [isDigit] using digit
  have top := UInt8.le_iff_toNat_le.1 range.2
  have value : (57 : UInt8).toNat = 57 := rfl
  omega

theorem wholeFrom_between (all : IsDigits ds) (n : ℕ) :
    n * 10 ^ ds.length ≤ wholeFrom n ds ∧ wholeFrom n ds + 1 ≤ (n + 1) * 10 ^ ds.length := by
  induction ds generalizing n with
  | nil => simp [wholeFrom]
  | cons d ds ih =>
    obtain ⟨digit, all⟩ := List.forall_mem_cons.1 all
    have small := toNat_le_of_isDigit digit
    have next : wholeFrom n (d :: ds) = wholeFrom (n * 10 + (d.toNat - 48)) ds := rfl
    obtain ⟨low, high⟩ := ih all (n * 10 + (d.toNat - 48))
    rw [next, List.length_cons, Nat.pow_succ']
    constructor
    · refine le_trans ?_ low
      rw [← Nat.mul_assoc]
      exact Nat.mul_le_mul_right _ (Nat.le_add_right _ _)
    · refine high.trans ?_
      rw [← Nat.mul_assoc]
      exact Nat.mul_le_mul_right _ (by omega)

theorem around_wholeFrom (all : IsDigits ds) (all' : IsDigits ds') (many : 2 ^ 50 ≤ m) {i j : ℤ}
    (same : ds.length + i = ds'.length + j) :
    Around 1 (wholeFrom m ds * 10 ^ i) (wholeFrom m ds' * 10 ^ j) := by
  have between {ds : List UInt8} (all : IsDigits ds) (i : ℤ) :
      (m * 10 ^ (ds.length + i) : ℚ) ≤ wholeFrom m ds * 10 ^ i ∧
        (wholeFrom m ds * 10 ^ i : ℚ) ≤ (m + 1) * 10 ^ (ds.length + i) := by
    obtain ⟨low, high⟩ := wholeFrom_between all m
    have low : (m * 10 ^ ds.length : ℚ) ≤ wholeFrom m ds := by exact_mod_cast low
    have high : (wholeFrom m ds : ℚ) ≤ (m + 1) * 10 ^ ds.length := by
      exact_mod_cast (Nat.le_succ _).trans high
    rw [zpow_add₀ (by norm_num), zpow_natCast, ← mul_assoc, ← mul_assoc]
    exact ⟨mul_le_mul_of_nonneg_right low (by positivity),
      mul_le_mul_of_nonneg_right high (by positivity)⟩
  have second := between all' j
  rw [← same] at second
  exact .of_units (by exact_mod_cast many) (between all i) second (by positivity)

theorem leading_le (small : n ≤ Decimal.wordBound) : (leading n ds).1 ≤ Decimal.wordBound := by
  induction ds generalizing n with
  | nil => exact small
  | cons d ds ih =>
    rw [leading]
    split
    · exact ih ‹_›
    · exact small

theorem leading_many (all : IsDigits ds) (left : (leading n ds).2 ≠ []) :
    2 ^ 50 ≤ (leading n ds).1 := by
  induction ds generalizing n with
  | nil => exact absurd rfl left
  | cons d ds ih =>
    obtain ⟨digit, all⟩ := List.forall_mem_cons.1 all
    have small := toNat_le_of_isDigit digit
    rw [leading] at left ⊢
    split
    · rw [if_pos ‹_›] at left
      exact ih all left
    · have bound : Decimal.wordBound = 2 ^ 64 - 1 := rfl
      omega

end

namespace Numeral

variable {n : Numeral} {t : List UInt8} {x : Number}

theorem Writes.digits (written : n.Writes t) : IsDigits n.whole ∧ IsDigits n.decimals := by
  obtain ⟨decimals, power, isWhole, isDecimals, -, -⟩ := written
  obtain ⟨negative, whole, ds, e⟩ := n
  constructor
  · cases isWhole with
    | zero => exact List.forall_mem_singleton.2 rfl
    | digits digit _ digits => exact List.forall_mem_cons.2 ⟨digit, digits⟩
  · cases isDecimals with
    | none => exact Reader.isDigits_nil
    | point digit digits => exact List.forall_mem_cons.2 ⟨digit, digits⟩

/-- The digits that do not fit are of no weight. -/
theorem around_significand (whole : IsDigits n.whole) (decimals : IsDigits n.decimals) :
    Around 1 (wholeFrom 0 (n.whole ++ n.decimals) * 10 ^ (-n.decimals.length : ℤ))
      (n.significand * 10 ^ n.start) := by
  obtain ⟨first, split, value⟩ := exists_leading 0 n.whole
  obtain ⟨used, split', value'⟩ := exists_leading (leading 0 n.whole).1 n.decimals
  change n.whole = first ++ n.dropped at split
  change n.decimals = used ++ n.unused at split'
  change n.significand = _ at value'
  have length := congrArg List.length split'
  rw [List.length_append] at length
  have start : n.start = n.dropped.length - used.length := by
    rw [start]
    omega
  have behind : IsDigits n.dropped := fun d member =>
    whole d (by rw [split]; exact List.mem_append_right _ member)
  have behind' : IsDigits n.unused := fun d member =>
    decimals d (by rw [split']; exact List.mem_append_right _ member)
  have before : IsDigits used := fun d member =>
    decimals d (by rw [split']; exact List.mem_append_left _ member)
  rw [split, List.append_assoc, wholeFrom_append, ← value, start]
  by_cases all : n.dropped = []
  · rw [all, List.nil_append, List.length_nil]
    by_cases all' : n.unused = []
    · rw [all', List.append_nil] at split'
      rw [split', ← value', Nat.cast_zero, zero_sub]
      exact (Around.refl _).mono (by positivity) (by positivity) (by decide)
    · have digits : wholeFrom (leading 0 n.whole).1 n.decimals =
          wholeFrom n.significand n.unused := by
        rw [congrArg (wholeFrom _) split', wholeFrom_append, ← value']
      rw [digits]
      refine around_wholeFrom behind' Reader.isDigits_nil ?_ ?_
      · exact leading_many decimals all'
      · rw [List.length_nil]
        omega
  · rw [value']
    refine around_wholeFrom ?_ before (leading_many whole all) ?_
    · exact fun d member => (List.mem_append.1 member).elim (behind d) (decimals d)
    · rw [List.length_append]
      omega

theorem significand_lt (n : Numeral) : n.significand < 2 ^ 64 := by
  have bound : n.significand ≤ Decimal.wordBound := leading_le (leading_le (Nat.zero_le _))
  exact Nat.lt_of_le_of_lt bound (by decide)

theorem magnitude_nonneg (n : Numeral) : 0 ≤ n.magnitude := by
  unfold magnitude
  positivity

theorem around_magnitude (written : n.Writes t) :
    Around 1 n.magnitude (n.significand * 10 ^ (n.start + n.exponent)) := by
  have ten : (10 : ℚ) ≠ 0 := by norm_num
  have digits := around_significand written.digits.1 written.digits.2
  rw [magnitude, sub_eq_neg_add, zpow_add₀ ten, zpow_add₀ ten, ← mul_assoc, ← mul_assoc]
  have product := digits.mul (.refl (10 ^ n.exponent)) (by positivity) (by positivity)
    (by positivity) (by positivity)
  exact product

theorem toFloat_integer (negative : Bool) (m : ℕ) :
    (integer negative m).toFloat = if negative then -(wordToFloat m) else wordToFloat m := by
  cases negative with
  | false => rfl
  | true =>
    unfold integer
    simp only [if_true]
    split
    · rfl
    · simp only [Number.toFloat, Int.natAbs_neg, Int.natAbs_natCast]

theorem natCast_le_tiny {m : ℕ} : (m : ℚ) ≤ 2 ^ (-1075 : ℤ) ↔ m = 0 := by
  constructor
  · intro small
    have tiny : (2 : ℚ) ^ (-1075 : ℤ) < 1 := zpow_lt_one_of_neg₀ (by norm_num) (by norm_num)
    have below : (m : ℚ) < 1 := small.trans_lt tiny
    exact Nat.lt_one_iff.1 (by exact_mod_cast below)
  · rintro rfl
    rw [Nat.cast_zero]
    positivity

theorem isZero_integer (negative : Bool) {m : ℕ} (fits : m < 2 ^ 64) :
    IsZero (integer negative m).toFloat ↔ m = 0 := by
  obtain ⟨v, value, around, -, -⟩ := exists_wordToFloat fits
  have same : v = 0 ↔ m = 0 := by
    rw [← around.eq_zero_iff (Nat.cast_nonneg m) value.nonneg, Nat.cast_eq_zero]
  rw [toFloat_integer]
  cases negative with
  | false => exact value.isZero_iff.trans same
  | true => exact (isZero_neg value).trans (value.isZero_iff.trans same)

theorem scaled?_of_bounded (bounded : n.IsBounded) :
    scaled? n.isNegative n.significand n.start n.power =
      (fraction? n.isNegative n.significand (n.start + n.exponent)).map .decimal := by
  unfold IsBounded exponent at *
  cases power : n.power with
  | none => simp [scaled?]
  | some e =>
    rw [power] at bounded
    have small : wholeFrom 0 e.digits ≤ Reader.exponentBound := by
      simp only [Option.map_some, Option.getD_some, Power.exponent] at bounded
      split at bounded <;> omega
    simp only [scaled?, if_pos small, Option.map_some, Option.getD_some, Power.exponent]
    split <;> rfl

/-- A number whose exponent is not too large is read unless it is too large itself, and is zero just
where the exact number, but for a few roundings, is at most half of the least one above zero. -/
theorem number?_cases (written : n.Writes t) (bounded : n.IsBounded) :
    (∃ x q, n.number? = some x ∧ Around 5 n.magnitude q ∧
      (IsZero x.toFloat ↔ q ≤ 2 ^ (-1075 : ℤ))) ∨
    n.number? = none ∧ 10 ^ 308 < n.magnitude := by
  have around := around_magnitude written
  have nonneg := n.magnitude_nonneg
  unfold number?
  split
  · obtain ⟨dropped, decimals, power⟩ := ‹n.dropped = [] ∧ n.decimals = [] ∧ n.power = none›
    have whole : n.start + n.exponent = 0 := by
      simp [start, exponent, dropped, decimals, power]
    rw [whole, zpow_zero, mul_one] at around
    refine .inl ⟨_, _, rfl, around.mono nonneg (Nat.cast_nonneg _) (by decide), ?_⟩
    rw [isZero_integer _ n.significand_lt, natCast_le_tiny]
  · rw [scaled?_of_bounded bounded]
    rcases fraction?_cases n.significand_lt n.isNegative (n.start + n.exponent) with
      ⟨y, fraction, q, around', zero⟩ | ⟨none, beyond⟩
    · have all := around.trans around'
      exact .inl ⟨.decimal y, q, by rw [fraction]; rfl, all, zero⟩
    · refine .inr ⟨by rw [none]; rfl, ?_⟩
      have high := around.2
      rw [pow_one] at high
      exact lt_of_mul_lt_mul_right (beyond.trans_le high) (by positivity)

/-- An exponent that is not told apart leaves zero or passes the range. -/
theorem number?_of_unbounded (unbounded : ¬n.IsBounded) :
    (∃ x, n.number? = some x ∧ IsZero x.toFloat) ∨ n.number? = none ∧ n.significand ≠ 0 := by
  unfold IsBounded exponent at unbounded
  cases power : n.power with
  | none => simp [power] at unbounded
  | some e =>
    have large : ¬wholeFrom 0 e.digits ≤ Reader.exponentBound := by
      rw [power] at unbounded
      simp only [Option.map_some, Option.getD_some, Power.exponent] at unbounded
      split at unbounded <;> omega
    simp only [number?, power, reduceCtorEq, and_false, if_false, scaled?, if_neg large]
    split
    · exact .inr ⟨rfl, (‹_ ∧ _›).1⟩
    · have zero : HasValue (0.0 : Float) 0 := Eq.refl (0 : ℚ)
      refine .inl ⟨_, rfl, ?_⟩
      cases n.isNegative with
      | false => exact zero.isZero_iff.2 rfl
      | true => exact (isZero_neg zero).2 (zero.isZero_iff.2 rfl)

/-! ## Zero and the range -/

theorem isZero_of_eq_zero (written : n.Writes t) (zero : n.magnitude = 0) :
    ∃ x, n.number? = some x ∧ IsZero x.toFloat := by
  by_cases bounded : n.IsBounded
  · rcases number?_cases written bounded with ⟨x, q, number, around, vanishes⟩ | ⟨-, beyond⟩
    · have none : q ≤ 0 := by simpa [zero] using around.2
      exact ⟨x, number, vanishes.2 (none.trans (by positivity))⟩
    · rw [zero] at beyond
      exact absurd beyond (not_lt.2 (by positivity))
  · refine (number?_of_unbounded bounded).resolve_right fun refused => refused.2 ?_
    have none := (around_magnitude written).eq_zero_iff n.magnitude_nonneg (by positivity)
    have product := none.1 zero
    rw [mul_eq_zero_iff_right (by positivity)] at product
    exact_mod_cast product

theorem exists_number? (written : n.Writes t) (bounded : n.IsBounded)
    (range : n.magnitude ≤ 10 ^ 308) : ∃ x, n.number? = some x := by
  rcases number?_cases written bounded with ⟨x, q, number, -, -⟩ | ⟨-, beyond⟩
  · exact ⟨x, number⟩
  · exact absurd range (not_le.2 beyond)

theorem factors_lt : ((1 + 1 / 2 ^ 49) ^ 5 : ℚ) < 1 + 1 / 2 ^ 40 := by norm_num

theorem isZero_of_small (written : n.Writes t)
    (small : n.magnitude * (1 + 1 / 2 ^ 40) ≤ 2 ^ (-1075 : ℤ)) (number : n.number? = some x) :
    IsZero x.toFloat := by
  by_cases bounded : n.IsBounded
  · rcases number?_cases written bounded with ⟨x', q, number', around, zero⟩ | ⟨none, -⟩
    · obtain rfl := Option.some.inj (number'.symm.trans number)
      have factors := mul_le_mul_of_nonneg_left factors_lt.le n.magnitude_nonneg
      exact zero.2 (around.2.trans (factors.trans small))
    · rw [none] at number
      cases number
  · rcases number?_of_unbounded bounded with ⟨x', number', zero⟩ | ⟨none, -⟩
    · obtain rfl := Option.some.inj (number'.symm.trans number)
      exact zero
    · rw [none] at number
      cases number

theorem not_isZero_of_large (written : n.Writes t) (bounded : n.IsBounded)
    (large : 2 ^ (-1075 : ℤ) * (1 + 1 / 2 ^ 40) ≤ n.magnitude) (number : n.number? = some x) :
    ¬IsZero x.toFloat := by
  rcases number?_cases written bounded with ⟨x', q, number', around, zero⟩ | ⟨none, -⟩
  · obtain rfl := Option.some.inj (number'.symm.trans number)
    intro vanishes
    have least : (0 : ℚ) < 2 ^ (-1075 : ℤ) := by positivity
    have above := large.trans (around.1.trans
      (mul_le_mul_of_nonneg_right (zero.1 vanishes) (by positivity)))
    exact absurd (le_of_mul_le_mul_left above least) (not_le.2 factors_lt)
  · rw [none] at number
    cases number

end Numeral

end TextCompletion.Json
