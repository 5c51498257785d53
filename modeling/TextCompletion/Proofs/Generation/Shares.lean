import TextCompletion.Proofs.Decimal.SingleArithmetic
import TextCompletion.Proofs.Generation.Nucleus

/-!
Shares that are numbers, and what is drawn from them. The greatest logit has the power 1, and sums
of powers stop growing where single precision takes in no more ones; so all shares lie in the unit
interval and the greatest is no subnormal number. Main statement: a place is drawn only where the
mass grows, and the point drawn lies below the whole mass, so that the weight drawn is above zero.
-/

namespace TextCompletion.Distribution

open Decimal

variable {x mass point part total : Float32} {xs weights logits : List Float32} {token : Nat}

/-! Masses of parts of 1. -/

theorem foldl_isMass (first : IsMass mass) (units : ∀ x ∈ xs, InUnit x) :
    IsMass (xs.foldl (· + ·) mass) := by
  induction xs generalizing mass with
  | nil => exact first
  | cons x xs ih =>
    have head := units x List.mem_cons_self
    exact ih (first.add head) fun y member => units y (.tail _ member)

theorem le_foldl (first : IsMass mass) (units : ∀ x ∈ xs, InUnit x) :
    mass.toBits.toNat ≤ (xs.foldl (· + ·) mass).toBits.toNat := by
  induction xs generalizing mass with
  | nil => exact Nat.le_refl _
  | cons x xs ih =>
    have head := units x List.mem_cons_self
    have rest := ih (first.add head) fun y member => units y (.tail _ member)
    exact (le_add_left first.isMagnitude head.isMagnitude).trans rest

theorem le_foldl_of_mem (first : IsMass mass) (units : ∀ x ∈ xs, InUnit x) (member : x ∈ xs) :
    x.toBits.toNat ≤ (xs.foldl (· + ·) mass).toBits.toNat := by
  induction xs generalizing mass with
  | nil => cases member
  | cons y ys ih =>
    have head := units y List.mem_cons_self
    have tail : ∀ x ∈ ys, InUnit x := fun z inside => units z (.tail _ inside)
    have next := first.add head
    rcases List.mem_cons.1 member with rfl | later
    · exact (le_add_right first.isMagnitude head.isMagnitude).trans (le_foldl next tail)
    · exact ih next tail later

/-! The place of a point. -/

/-- How many of the masses before the weights are at most the point. -/
def passed (point mass : Float32) (xs : List Float32) : Nat :=
  ((massBefore mass xs).filter fun m => m ≤ point).length

theorem passed_cons (point mass x : Float32) (xs : List Float32) :
    passed point mass (x :: xs) =
      if mass ≤ point then passed point (mass + x) xs + 1 else passed point (mass + x) xs := by
  rw [passed, massBefore, List.filter_cons]
  by_cases reached : mass ≤ point <;> simp [reached, passed]

theorem passed_eq_zero (first : IsMass mass) (units : ∀ x ∈ xs, InUnit x)
    (before : point.toBits.toNat < mass.toBits.toNat) : passed point mass xs = 0 := by
  induction xs generalizing mass with
  | nil => rfl
  | cons x xs ih =>
    have head := units x List.mem_cons_self
    have grown := le_add_left first.isMagnitude head.isMagnitude
    have small := first.isMagnitude.le
    have unreached : ¬ mass ≤ point := by
      rw [single_le_iff_bits small (before.le.trans small)]
      omega
    rw [passed_cons, if_neg unreached]
    exact ih (first.add head) (fun y member => units y (.tail _ member)) (by omega)

/-- Below the whole mass a point passes only so many places as that the next one has a weight. -/
theorem pos_of_passed (first : IsMass mass) (units : ∀ x ∈ xs, InUnit x)
    (inside : point.toBits.toNat < (xs.foldl (· + ·) mass).toBits.toNat) :
    (passed point mass xs = 0 → point.toBits.toNat < mass.toBits.toNat) ∧
    ∀ j, passed point mass xs = j + 1 → ∃ x, xs[j]? = some x ∧ 0 < x.toBits.toNat := by
  induction xs generalizing mass with
  | nil => exact ⟨fun _ => inside, fun j none => by cases none⟩
  | cons x xs ih =>
    have head := units x List.mem_cons_self
    have next := first.add head
    have tail : ∀ x ∈ xs, InUnit x := fun y member => units y (.tail _ member)
    have small := first.isMagnitude.le
    rcases Nat.lt_or_ge point.toBits.toNat mass.toBits.toNat with before | reached
    · have none := passed_eq_zero first units before
      refine ⟨fun _ => before, fun j some => ?_⟩
      omega
    · have low : point.toBits.toNat ≤ topBits .binary32 :=
        inside.le.trans (foldl_isMass first units).isMagnitude.le
      rw [passed_cons, if_pos ((single_le_iff_bits small low).2 reached)]
      obtain ⟨here, later⟩ := ih next tail inside
      refine ⟨fun none => by omega, fun j places => ?_⟩
      cases j with
      | zero =>
        refine ⟨x, rfl, ?_⟩
        -- a weight of zero would leave the mass where the point has passed it
        by_contra zero
        have same := add_of_zero first.isMagnitude (Nat.eq_zero_of_not_pos zero)
        have beyond := here (by omega)
        omega
      | succ j => exact later j (by omega)

theorem totalWeight_eq_ok (sum : totalWeight weights = .ok total) :
    ∃ x xs, weights = x :: xs ∧ total = xs.foldl (· + ·) x := by
  cases weights with
  | nil => cases sum
  | cons x xs =>
    refine ⟨x, xs, rfl, ?_⟩
    simp only [totalWeight] at sum
    split at sum
    · cases sum
    split at sum
    · cases sum
    · exact (Except.ok.inj sum).symm

theorem locate_pos (units : ∀ w ∈ weights, InUnit w) (sum : totalWeight weights = .ok total)
    (inside : point.toBits.toNat < total.toBits.toNat) :
    ∃ w, weights[locate point weights]? = some w ∧ 0 < w.toBits.toNat := by
  obtain ⟨x, xs, rfl, rfl⟩ := totalWeight_eq_ok sum
  have head := units x List.mem_cons_self
  obtain ⟨none, some⟩ := pos_of_passed head.isMass
    (fun y member => units y (.tail _ member)) inside
  have place : locate point (x :: xs) = passed point x xs := rfl
  rw [place]
  cases places : passed point x xs with
  | zero => exact ⟨x, rfl, Nat.zero_lt_of_lt (none places)⟩
  | succ j => exact some j places

theorem total_isMass (units : ∀ w ∈ weights, InUnit w) (sum : totalWeight weights = .ok total) :
    IsMass total ∧ ∀ w ∈ weights, w.toBits.toNat ≤ total.toBits.toNat := by
  obtain ⟨x, xs, rfl, rfl⟩ := totalWeight_eq_ok sum
  have head := (units x List.mem_cons_self).isMass
  have tail : ∀ w ∈ xs, InUnit w := fun w member => units w (.tail _ member)
  refine ⟨foldl_isMass head tail, fun w member => ?_⟩
  rcases List.mem_cons.1 member with rfl | later
  · exact le_foldl head tail
  · exact le_foldl_of_mem head tail later

theorem toNat_unitBits (w : UInt32) :
    ((w >>> 9) ||| 0x3F800000).toNat = powerBits 0 + (w >>> 9).toNat ∧
      (w >>> 9).toNat < 8388608 := by
  have shift : (w >>> 9).toNat = w.toNat / 512 := by
    rw [UInt32.toNat_shiftRight, Nat.shiftRight_eq_div_pow]
    rfl
  have few : (w >>> 9).toNat < 8388608 := by
    have width := w.toNat_lt
    omega
  have exponent : (0x3F800000 : UInt32).toNat = 127 <<< 23 := by decide
  have base : powerBits 0 = 127 <<< 23 := by decide
  refine ⟨?_, few⟩
  rw [UInt32.toNat_or, exponent, base, Nat.or_comm, Nat.shiftLeft_add_eq_or_of_lt few]

theorem toNat_unitFloat_le (w : UInt32) : (Random.unitFloat w).toBits.toNat ≤ powerBits 0 - 2 := by
  obtain ⟨bits, few⟩ := toNat_unitBits w
  have top : topBits .binary32 = 2139095040 ∧ powerBits 0 = 1065353216 := by decide
  have value : (Float32.ofBits ((w >>> 9) ||| 0x3F800000)).toBits.toNat =
      powerBits 0 + (w >>> 9).toNat := by
    rw [toNat_ofBits (by omega), bits]
  have one := toNat_single_one
  rw [Random.unitFloat]
  generalize Float32.ofBits ((w >>> 9) ||| 0x3F800000) = x at *
  have rounded : Rounds (magnitude x - magnitude 1) (x - 1).toBits.toNat :=
    rounds_sub (by rw [IsMagnitude]; omega) (by rw [IsMagnitude]; omega) (by omega)
  have below : magnitude x ≤ 2 - 1 / 8388608 := by
    have fields : mantissaOf .binary32 (powerBits 0 + 8388607) = 16777215 ∧
        exponentOf .binary32 (powerBits 0 + 8388607) = -23 := by decide
    have last : valueOf (powerBits 0 + 8388607) = 2 - 1 / 8388608 := by
      rw [valueOf, fields.1, fields.2]
      norm_num
    exact last ▸ valueOf_strictMono.monotone (by omega)
  refine rounded.ge_of_le ?_
  rw [valueOf_part, magnitude_one]
  linarith

/-- A draw by a part that is less than 1, be it by the last bit, meets a weight above zero. -/
theorem draw_pos (units : ∀ w ∈ weights, InUnit w)
    (large : ∃ w ∈ weights, powerBits (-126) ≤ w.toBits.toNat)
    (short : part.toBits.toNat ≤ powerBits 0 - 2) (drawn : draw weights part = .ok token) :
    ∃ w, weights[token]? = some w ∧ 0 < w := by
  rw [draw] at drawn
  cases sum : totalWeight weights with
  | error fault =>
    rw [sum] at drawn
    cases drawn
  | ok total =>
    rw [sum] at drawn
    obtain rfl : locate (part * total) weights = token := Except.ok.inj drawn
    obtain ⟨mass, above⟩ := total_isMass units sum
    obtain ⟨w, member, normal⟩ := large
    have inside := mul_lt_of_part short (normal.trans (above w member)) mass.isMagnitude
    obtain ⟨w', place, positive⟩ := locate_pos units sum inside
    have small := (units w' (List.mem_of_getElem? place)).isMagnitude
    refine ⟨w', place, ?_⟩
    rw [single_lt_iff_bits inUnit_zero.isMagnitude.le small.le]
    exact positive

/-! Shares of a softmax. -/

theorem greater_cases (x y : Float32) : greater x y = x ∨ greater x y = y := by
  rw [greater]
  split_ifs <;> simp

theorem foldl_greater_mem (xs : List Float32) (x : Float32) : xs.foldl greater x ∈ x :: xs := by
  induction xs generalizing x with
  | nil => exact List.mem_cons_self
  | cons y ys ih =>
    have rest := ih (greater x y)
    rw [List.foldl_cons]
    rcases greater_cases x y with kept | taken
    · rw [kept] at rest ⊢
      rcases List.mem_cons.1 rest with same | later
      · rw [same]
        exact List.mem_cons_self
      · exact .tail _ (.tail _ later)
    · rw [taken] at rest ⊢
      exact .tail _ rest

theorem greatest_mem (some : logits ≠ []) : greatest logits ∈ logits := by
  cases logits with
  | nil => exact absurd rfl some
  | cons x xs => exact foldl_greater_mem xs x

theorem power_of_zero (zero : (x == 0) = true) : power x = 1 := by
  have number : ¬ x.isNaN = true := by
    intro none
    have equal : (x.toModel.unpack.compare (0 : Float32).toModel.unpack == some .eq) = true := zero
    rw [isNaN_iff.1 none] at equal
    cases equal
  rw [power, if_neg number, if_pos zero]

theorem power_cases (x : Float32) : (power x).isNaN = true ∨ InUnit (power x) := by
  rw [power]
  split
  · exact .inl ‹_›
  split
  · exact .inr inUnit_one
  dsimp only
  split
  · exact .inr inUnit_one
  split
  · rename_i low positive
    obtain ⟨-, small⟩ := bits_of_positive (single_pos_iff.1 positive)
    right
    by_contra above
    rw [InUnit, ← toNat_single_one, not_le] at above
    exact low ((single_le_iff_bits inUnit_one.isMagnitude.le small).2 above.le)
  · exact .inr inUnit_zero

def powers (logits : List Float32) : List Float32 :=
  logits.map fun x => power (x - greatest logits)

theorem foldl_isNaN (none : mass.isNaN = true ∨ ∃ x ∈ xs, x.isNaN = true) :
    (xs.foldl (· + ·) mass).isNaN = true := by
  induction xs generalizing mass with
  | nil => simpa using none
  | cons x xs ih =>
    refine ih ?_
    rcases none with first | ⟨y, member, absent⟩
    · exact .inl (add_isNaN (.inl first))
    · rcases List.mem_cons.1 member with rfl | later
      · exact .inl (add_isNaN (.inr absent))
      · exact .inr ⟨y, later, absent⟩

theorem powers_inUnit (numbers : ∀ x ∈ softmax logits, x.isNaN = false) :
    ∀ x ∈ powers logits, x.isNaN = false ∧ InUnit x := by
  intro x member
  have number : x.isNaN = false := by
    by_contra absent
    have total : (sum (powers logits)).isNaN = true :=
      foldl_isNaN (.inr ⟨x, member, by simpa using absent⟩)
    have share := numbers (x / sum (powers logits)) (List.mem_map_of_mem member)
    rw [div_isNaN total] at share
    cases share
  refine ⟨number, ?_⟩
  obtain ⟨y, -, rfl⟩ := List.mem_map.1 member
  exact (power_cases _).resolve_left (by rw [number]; exact Bool.false_ne_true)

theorem one_mem_powers (numbers : ∀ x ∈ softmax logits, x.isNaN = false) (some : logits ≠ []) :
    1 ∈ powers logits := by
  have member : power (greatest logits - greatest logits) ∈ powers logits :=
    List.mem_map_of_mem (greatest_mem some)
  rcases sub_self_cases (greatest logits) with none | zero
  · have number := (powers_inUnit numbers _ member).1
    rw [power, if_pos none, none] at number
    cases number
  · rwa [power_of_zero zero] at member

theorem sum_powers (numbers : ∀ x ∈ softmax logits, x.isNaN = false) :
    IsMass (sum (powers logits)) ∧
      ∀ x ∈ powers logits, x.toBits.toNat ≤ (sum (powers logits)).toBits.toNat := by
  have units : ∀ x ∈ powers logits, InUnit x := fun x member => (powers_inUnit numbers x member).2
  exact ⟨foldl_isMass inUnit_zero.isMass units,
    fun x member => le_foldl_of_mem inUnit_zero.isMass units member⟩

theorem sum_powers_pos (numbers : ∀ x ∈ softmax logits, x.isNaN = false) (some : logits ≠ []) :
    0 < (sum (powers logits)).toBits.toNat := by
  have one := (sum_powers numbers).2 1 (one_mem_powers numbers some)
  rw [toNat_single_one] at one
  exact Nat.lt_of_lt_of_le (by decide) one

theorem softmax_inUnit (numbers : ∀ x ∈ softmax logits, x.isNaN = false) :
    ∀ x ∈ softmax logits, InUnit x := by
  intro x member
  obtain ⟨y, inside, rfl⟩ := List.mem_map.1 member
  have some : logits ≠ [] := by
    rintro rfl
    cases inside
  obtain ⟨total, above⟩ := sum_powers numbers
  exact div_inUnit (above y inside) (sum_powers_pos numbers some) total.isMagnitude

/-- The share of the greatest logit, 1 by the sum, is a normal number. -/
theorem exists_large_share (numbers : ∀ x ∈ softmax logits, x.isNaN = false) (some : logits ≠ []) :
    ∃ x ∈ softmax logits, powerBits (-25) ≤ x.toBits.toNat :=
  ⟨1 / sum (powers logits), List.mem_map_of_mem (one_mem_powers numbers some),
    le_one_div (sum_powers_pos numbers some) (sum_powers numbers).1⟩

end TextCompletion.Distribution
