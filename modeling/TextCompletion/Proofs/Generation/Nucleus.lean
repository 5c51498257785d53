import TextCompletion.Proofs.Decimal.Underflow
import TextCompletion.Proofs.Generation.Attempt

/-!
Whether a token can be drawn. From shares that are not below zero and not all zero one can, and the
most likely token is the first to enter the nucleus, so a nucleus keeps it. The exception is a share
so small that it becomes zero in single precision: then nothing enters.
-/

namespace TextCompletion

namespace Distribution

open Decimal

/-- Shares of a softmax that is one. -/
structure Proper (weights : List Float32) : Prop where
  finite : ∀ w ∈ weights, w.isFinite = true
  nonnegative : ∀ w ∈ weights, 0 ≤ w
  nonzero : ∃ w ∈ weights, (w == 0) = false

variable {weights : List Float32} {share part w x y : Float32} {i : Nat}

theorem pos_of_ne_zero (nonnegative : 0 ≤ x) (nonzero : (x == 0) = false) : 0 < x := by
  rw [single_nonneg_iff] at nonnegative
  rw [single_pos_iff]
  by_contra zero
  obtain ⟨s, unpacked⟩ := nonnegative.eq_zero zero
  have equal : (x.toModel.unpack.compare (0 : Float32).toModel.unpack == some .eq) = false :=
    nonzero
  rw [unpack_single_zero, unpacked] at equal
  cases equal

theorem orderKey_of_pos (positive : 0 < x) :
    x.toBits.toNat ≤ topBits .binary32 ∧ 0 < orderKey x ∧ orderKey x = x.toBits.toNat := by
  obtain ⟨some, small⟩ := bits_of_positive (single_pos_iff.1 positive)
  have bits : 0 < x.toBits.toNat ∧ x.toBits.toNat ≤ topBits .binary32 := ⟨some, small⟩
  have width : topBits .binary32 < Nat.pow 2 31 := by decide
  have key : orderKey x = x.toBits.toNat := if_pos (Nat.lt_of_le_of_lt bits.2 width)
  exact ⟨bits.2, by omega, key⟩

theorem orderKey_of_not_pos (nonnegative : 0 ≤ x) (zero : ¬ 0 < x) : orderKey x ≤ 0 := by
  rw [single_nonneg_iff] at nonnegative
  rw [single_pos_iff] at zero
  obtain ⟨s, unpacked⟩ := nonnegative.eq_zero zero
  have bits : x.toBits.toNat = 0 ∨ x.toBits.toNat = 2 ^ (23 + 8) := bits_of_zero unpacked
  rw [orderKey]
  rcases bits with none | sign
  · rw [none]
    decide
  · rw [sign]
    decide

theorem le_of_orderKey (first : 0 ≤ x) (second : 0 ≤ y) (keys : orderKey x ≤ orderKey y) :
    x ≤ y := by
  by_cases positive : 0 < x
  · obtain ⟨small, some, key⟩ := orderKey_of_pos positive
    have positive' : 0 < y := by
      by_contra zero
      have low := orderKey_of_not_pos second zero
      omega
    obtain ⟨small', -, key'⟩ := orderKey_of_pos positive'
    exact (single_le_iff_bits small small').2 (by omega)
  · rw [single_nonneg_iff] at first second
    obtain ⟨s, zero⟩ := first.eq_zero (fun p => positive (single_pos_iff.2 p))
    rw [single_le_iff, zero, zero_compare_le]
    exact second

theorem mem_descending : (x, i) ∈ descending weights ↔ weights[i]? = some x := by
  rw [descending, List.mem_mergeSort, List.mk_mem_zipIdx_iff_getElem?]

def mayPrecede (x y : Float32 × Nat) : Bool := orderKey y.1 ≤ orderKey x.1

theorem mayPrecede_trans (a b c : Float32 × Nat) (first : mayPrecede a b = true)
    (second : mayPrecede b c = true) : mayPrecede a c = true := by
  simp only [mayPrecede, decide_eq_true_eq] at *
  omega

theorem mayPrecede_total (a b : Float32 × Nat) : (mayPrecede a b || mayPrecede b a) = true := by
  simp only [mayPrecede, Bool.or_eq_true, decide_eq_true_eq]
  omega

theorem descending_places (weights : List Float32) :
    ((descending weights).map Prod.snd).Perm (List.range weights.length) := by
  have sorted := (List.mergeSort_perm weights.zipIdx
    fun x y => decide (orderKey y.1 ≤ orderKey x.1)).map Prod.snd
  rwa [List.zipIdx_map_snd, ← List.range_eq_range'] at sorted

theorem descending_stable (weights : List Float32) :
    (descending weights).Pairwise fun a b =>
      orderKey b.1 < orderKey a.1 ∨ orderKey b.1 = orderKey a.1 ∧ a.2 < b.2 := by
  have numbered : ((weights.zipIdx.zipIdx).mergeSort (List.zipIdxLE mayPrecede)).map Prod.fst =
      descending weights := List.mergeSort_zipIdx
  have sorted := List.pairwise_mergeSort (List.zipIdxLE_trans mayPrecede_trans)
    (List.zipIdxLE_total mayPrecede_total) weights.zipIdx.zipIdx
  have distinct : (descending weights).Pairwise fun a b => a.2 ≠ b.2 :=
    List.pairwise_map.1 ((descending_places weights).nodup_iff.2 List.nodup_range)
  rw [← numbered] at distinct ⊢
  rw [List.pairwise_map] at distinct ⊢
  refine (sorted.and distinct).imp_of_mem fun {a b} first second ⟨le, apart⟩ => ?_
  -- the numbers given before the sort are the places
  have number : ∀ p ∈ (weights.zipIdx.zipIdx).mergeSort (List.zipIdxLE mayPrecede),
      p.2 = p.1.2 := by
    rintro ⟨a, n⟩ member
    rw [List.mem_mergeSort, List.mk_mem_zipIdx_iff_getElem?, List.getElem?_zipIdx] at member
    obtain ⟨x, -, rfl⟩ := Option.map_eq_some_iff.1 member
    exact (Nat.zero_add n).symm
  have first' := number a first
  have second' := number b second
  simp only [List.zipIdxLE, mayPrecede, decide_eq_true_eq] at le
  split_ifs at le with falls ties
  · have ordered := of_decide_eq_true le
    omega
  · omega

theorem descending_pairwise (weights : List Float32) :
    (descending weights).Pairwise fun a b => orderKey b.1 ≤ orderKey a.1 :=
  (descending_stable weights).imp fun falls => by omega

theorem orderKey_le_head {rest : List (Float32 × Nat)}
    (sorted : descending weights = (x, i) :: rest) (member : y ∈ weights) :
    orderKey y ≤ orderKey x := by
  obtain ⟨j, place⟩ := List.mem_iff_getElem?.1 member
  have inside : (y, j) ∈ (x, i) :: rest := sorted ▸ mem_descending.2 place
  have falling := descending_pairwise weights
  rw [sorted, List.pairwise_cons] at falling
  rcases List.mem_cons.1 inside with same | later
  · rw [(Prod.mk.inj same).1]
  · exact falling.1 _ later

theorem nucleus_of_pos {rest : List (Float32 × Nat)} (sorted : descending weights = (x, i) :: rest)
    (positive : 0 < share) : i ∈ nucleus share weights := by
  rw [nucleus, sorted, headUpTo, if_neg (single_not_le_zero positive)]
  exact List.mem_cons_self

theorem getElem?_cut (share : Float32) (weights : List Float32) (i : Nat) :
    (cut share weights)[i]? =
      weights[i]?.map fun x => if (nucleus share weights).contains i then x else 0 := by
  simp only [cut, List.getElem?_map, List.getElem?_zipIdx, Option.map_map, Nat.zero_add]
  rfl

theorem length_cut (share : Float32) (weights : List Float32) :
    (cut share weights).length = weights.length := by
  simp only [cut, List.length_map, List.length_zipIdx]

theorem Proper.exists_greatest (proper : Proper weights) :
    ∃ i x rest, descending weights = (x, i) :: rest ∧ weights[i]? = some x ∧
      (∀ y ∈ weights, y ≤ x) ∧ 0 < x := by
  obtain ⟨w, member, nonzero⟩ := proper.nonzero
  cases sorted : descending weights with
  | nil =>
    obtain ⟨j, place⟩ := List.mem_iff_getElem?.1 member
    have inside := mem_descending.2 place
    rw [sorted] at inside
    exact absurd inside List.not_mem_nil
  | cons head rest =>
    obtain ⟨x, i⟩ := head
    have place : weights[i]? = some x := mem_descending.1 (sorted ▸ List.mem_cons_self)
    have nonnegative := proper.nonnegative x (List.mem_of_getElem? place)
    refine ⟨i, x, rest, rfl, place, fun y member => ?_, ?_⟩
    · exact le_of_orderKey (proper.nonnegative y member) nonnegative
        (orderKey_le_head sorted member)
    · by_contra zero
      have some := (orderKey_of_pos (pos_of_ne_zero (proper.nonnegative w member) nonzero)).2.1
      have none := orderKey_of_not_pos nonnegative zero
      have least := orderKey_le_head sorted member
      omega

theorem cut_keeps_head {rest : List (Float32 × Nat)} (sorted : descending weights = (x, i) :: rest)
    (positive : 0 < share) : (cut share weights)[i]? = some x := by
  have place : weights[i]? = some x := mem_descending.1 (sorted ▸ List.mem_cons_self)
  have kept : (nucleus share weights).contains i = true :=
    List.contains_iff_mem.2 (nucleus_of_pos sorted positive)
  rw [getElem?_cut, place, Option.map_some, if_pos kept]

theorem Proper.cut_nonnegative (proper : Proper weights) :
    ∀ w ∈ cut share weights, 0 ≤ w := by
  intro w member
  obtain ⟨i, place⟩ := List.mem_iff_getElem?.1 member
  rw [getElem?_cut] at place
  obtain ⟨x, here, value⟩ := Option.map_eq_some_iff.1 place
  rw [← value]
  split
  · exact proper.nonnegative x (List.mem_of_getElem? here)
  · decide

theorem no_badWeight (nonnegative : ∀ w ∈ weights, 0 ≤ w) :
    (weights.any fun w => !decide (0 ≤ w)) = false := by
  rw [List.any_eq_false]
  intro w member
  simp [nonnegative w member]

theorem totalWeight_of_pos (nonnegative : ∀ w ∈ weights, 0 ≤ w) (some : ∃ w ∈ weights, 0 < w) :
    ∃ total, totalWeight weights = .ok total := by
  cases weights with
  | nil => simp at some
  | cons x xs =>
    have positive : 0 < xs.foldl (· + ·) x := by
      refine foldl_add_pos (nonnegative x List.mem_cons_self)
        (fun w member => nonnegative w (.tail _ member)) ?_
      obtain ⟨w, member, positive⟩ := some
      rcases List.mem_cons.1 member with rfl | member
      · exact .inl positive
      · exact .inr ⟨w, member, positive⟩
    refine ⟨xs.foldl (· + ·) x, ?_⟩
    simp only [totalWeight, no_badWeight nonnegative, single_beq_zero positive,
      Bool.false_eq_true, if_false]

theorem length_massBefore (mass : Float32) (weights : List Float32) :
    (massBefore mass weights).length = weights.length := by
  induction weights generalizing mass with
  | nil => rfl
  | cons x xs ih => rw [massBefore, List.length_cons, ih, List.length_cons]

/-- Masses stand before every weight but the first, so a point beyond all of them has a place
too. -/
theorem locate_lt (point : Float32) (some : weights ≠ []) :
    locate point weights < weights.length := by
  cases weights with
  | nil => exact absurd rfl some
  | cons x xs =>
    have few := List.length_filter_le (fun mass => decide (mass ≤ point)) (massBefore x xs)
    rw [length_massBefore] at few
    exact Nat.lt_succ_of_le few

theorem draw_of_pos (nonnegative : ∀ w ∈ weights, 0 ≤ w) (some : ∃ w ∈ weights, 0 < w)
    (part : Float32) : ∃ token < weights.length, draw weights part = .ok token := by
  obtain ⟨total, sum⟩ := totalWeight_of_pos nonnegative some
  have nonempty : weights ≠ [] := by
    rintro rfl
    simp at some
  refine ⟨locate (part * total) weights, locate_lt _ nonempty, ?_⟩
  rw [draw, sum]
  rfl

theorem foldl_add_zero (weights : List Float32) (none : ∀ w ∈ weights, w = 0) :
    weights.foldl (· + ·) 0 = 0 := by
  induction weights with
  | nil => rfl
  | cons w rest ih =>
    have zero : (0 : Float32) + 0 = 0 := by decide
    rw [List.foldl_cons, none w List.mem_cons_self, zero]
    exact ih fun w member => none w (.tail _ member)

theorem nucleus_of_le_zero (none : share ≤ 0) : nucleus share weights = [] := by
  rw [nucleus]
  cases descending weights with
  | nil => rfl
  | cons head rest => rw [headUpTo, if_pos none]

theorem draw_of_zeros (some : weights ≠ []) (zeros : ∀ w ∈ weights, w = 0) (part : Float32) :
    draw weights part = .error .allZero := by
  cases weights with
  | nil => exact absurd rfl some
  | cons w rest =>
    have first : w = 0 := zeros w List.mem_cons_self
    have total := foldl_add_zero rest fun v member => zeros v (.tail _ member)
    have good : ∀ v ∈ w :: rest, 0 ≤ v := by
      intro v member
      rw [zeros v member]
      decide
    have equal : ((0 : Float32) == 0) = true := by decide
    rw [draw, totalWeight, no_badWeight good, first, total]
    simp only [equal, Bool.false_eq_true, if_false, if_true]
    rfl

theorem draw_of_empty_nucleus (some : weights ≠ []) (none : share ≤ 0) (part : Float32) :
    draw (cut share weights) part = .error .allZero := by
  have kept : cut share weights ≠ [] := by
    rw [← List.length_pos_iff, length_cut, List.length_pos_iff]
    exact some
  refine draw_of_zeros kept (fun w member => ?_) part
  obtain ⟨i, place⟩ := List.mem_iff_getElem?.1 member
  rw [getElem?_cut, nucleus_of_le_zero none] at place
  obtain ⟨x, -, value⟩ := Option.map_eq_some_iff.1 place
  exact value.symm

theorem argmaxFrom_lt (xs : List Float32) {best place : Nat} (inside : best < place)
    (bestValue : Float32) : argmaxFrom best bestValue place xs < place + xs.length := by
  induction xs generalizing best place bestValue with
  | nil => exact inside
  | cons x xs ih =>
    have rest : place + 1 + xs.length = place + (x :: xs).length := by
      rw [List.length_cons]
      omega
    rw [argmaxFrom, ← rest]
    split
    · exact ih (Nat.lt_succ_self place) x
    · exact ih (Nat.lt_succ_of_lt inside) bestValue

theorem argmax?_of_ne_nil (some : weights ≠ []) :
    ∃ i < weights.length, argmax? weights = .some i := by
  cases weights with
  | nil => exact absurd rfl some
  | cons x xs =>
    have inside := argmaxFrom_lt xs Nat.zero_lt_one x
    rw [Nat.add_comm] at inside
    exact ⟨_, inside, rfl⟩

end Distribution

open Decimal TextCompletion.Distribution

def Sampling.shares? (logits : List Float32) : Sampling → Option (List Float32)
  | .greedy => none
  | .whole t => some (softmax (scaled t logits))
  | .nucleus t _ => some (softmax (scaled t logits))

namespace SamplingConfig

def shares? (c : SamplingConfig) (context : List Nat) (logits : List Float32) :
    Option (List Float32) :=
  c.sampling.shares? (c.adjust context logits)

def weights? (c : SamplingConfig) (context : List Nat) (logits : List Float32) :
    Option (List Float32) :=
  c.sampling.weights? (c.adjust context logits)

end SamplingConfig

theorem length_softmax (logits : List Float32) : (softmax logits).length = logits.length := by
  simp [softmax]

theorem length_scaled (t : Float) (logits : List Float32) :
    (scaled t logits).length = logits.length := by
  simp [scaled]

theorem intoUnit_of_lt_one {x : Float} (positive : 0 < intoUnit x) (below : intoUnit x < 1) :
    intoUnit x = x := by
  have one : ¬ (1 : Float) < 1 := by decide
  have zero : ¬ (0 : Float) < 0 := by decide
  unfold intoUnit at *
  split
  · rw [if_pos ‹_›] at below
    exact absurd below one
  rw [if_neg ‹_›] at positive below
  split
  · rw [if_pos ‹_›] at positive
    exact absurd positive zero
  rw [if_neg ‹_›] at below
  split
  · rw [if_pos ‹_›] at below
    exact absurd below one
  · rfl

theorem intoUnit_of_pos {x : Float} (positive : 0 < x) (within : ¬ 1 < x) : intoUnit x = x := by
  rw [intoUnit, double_not_isNaN positive, if_neg Bool.false_ne_true,
    if_neg (double_not_lt_zero positive), if_neg within]

theorem lt_one_of_tiny {x : Float} (positive : 0 < x) (tiny : x ≤ halfLeastSingle) :
    x < 1 ∧ ¬ 1 ≤ x ∧ ¬ 1 < x := by
  obtain ⟨-, small⟩ := double_pos_iff.1 positive
  have one : (1 : Float).toBits.toNat ≤ topBits .binary64 ∧
      BinaryFormat.halfLeast < (1 : Float).toBits.toNat := by decide +kernel
  rw [le_halfLeastSingle_iff small] at tiny
  rw [double_lt_iff_bits small one.1, double_le_iff_bits one.1 small,
    double_lt_iff_bits one.1 small]
  omega

namespace Params

/-- Parameters whose nucleus has a share above zero that becomes zero in single precision. -/
structure LosesNucleus (p : Params) : Prop where
  draws : 0 < p.temperature
  warm : ¬ p.temperature < leastTemperature
  share : 0 < p.topP
  tiny : p.topP ≤ halfLeastSingle

variable {p : Params} {t share : Float}

theorem sampling_effective (p : Params) :
    p.effective.sampling =
      if 0 < p.temperature ∧ 0 < intoUnit p.topP ∧ ¬ p.temperature < leastTemperature then
        if intoUnit p.topP < 1 ∧ ¬ (intoUnit p.topP ≤ 0 ∨ 1 ≤ intoUnit p.topP) then
          .nucleus p.temperature (intoUnit p.topP)
        else .whole p.temperature
      else .greedy := by
  have share : p.effective.topP = intoUnit p.topP := rfl
  have drawing : p.effective.doSample = decide (0 < p.temperature) := rfl
  have heat : p.effective.temperature = atLeastZero p.temperature := rfl
  simp only [SamplingConfig.sampling, SamplingConfig.samplerTemperature,
    SamplingConfig.samplerTopP, share, drawing, heat]
  by_cases draws : 0 < p.temperature
  · have same : atLeastZero p.temperature = p.temperature := if_pos draws
    rw [same]
    by_cases some : 0 < intoUnit p.topP
    · by_cases warm : p.temperature < leastTemperature
      · simp [draws, some, warm]
      · by_cases below : intoUnit p.topP < 1
        · simp only [draws, some, warm, below, decide_true, Bool.and_self, if_true, if_false,
            not_false_eq_true, and_self, true_and, Bool.or_eq_true, decide_eq_true_eq, ite_not]
        · simp [draws, some, warm, below]
    · simp [draws, some]
  · simp [draws]

theorem sampling_nucleus (nucleus : p.effective.sampling = .nucleus t share) :
    0 < p.temperature ∧ ¬ p.temperature < leastTemperature ∧ 0 < share ∧ share = p.topP := by
  rw [sampling_effective] at nucleus
  split at nucleus
  · rename_i draws
    split at nucleus
    · rename_i between
      obtain ⟨rfl, rfl⟩ := Sampling.nucleus.inj nucleus
      exact ⟨draws.1, draws.2.2, draws.2.1, intoUnit_of_lt_one draws.2.1 between.1⟩
    · cases nucleus
  · cases nucleus

theorem LosesNucleus.sampling (loses : p.LosesNucleus) :
    p.effective.sampling = .nucleus p.temperature p.topP := by
  obtain ⟨below, whole, within⟩ := lt_one_of_tiny loses.share loses.tiny
  have same := intoUnit_of_pos loses.share within
  rw [sampling_effective, same, if_pos ⟨loses.draws, loses.share, loses.warm⟩,
    if_pos ⟨below, not_or.2 ⟨double_not_le_zero loses.share, whole⟩⟩]

end Params

/-- One of the greatest shares is above zero and keeps its weight. -/
def KeepsGreatest (shares weights : List Float32) : Prop :=
  ∃ (i : Nat) (x : Float32), shares[i]? = some x ∧ (∀ y ∈ shares, y ≤ x) ∧ (x == 0) = false ∧
    weights[i]? = some x

variable {shares : List Float32} {share : Float32}

theorem keepsGreatest_self (proper : Proper shares) : KeepsGreatest shares shares := by
  obtain ⟨i, x, rest, -, place, greatest, positive⟩ := proper.exists_greatest
  exact ⟨i, x, place, greatest, single_beq_zero positive, place⟩

theorem keepsGreatest_cut (proper : Proper shares) (positive : 0 < share) :
    KeepsGreatest shares (cut share shares) := by
  obtain ⟨i, x, rest, sorted, place, greatest, some⟩ := proper.exists_greatest
  exact ⟨i, x, place, greatest, single_beq_zero some, cut_keeps_head sorted positive⟩

theorem KeepsGreatest.exists_pos {weights : List Float32} (keeps : KeepsGreatest shares weights)
    (nonnegative : ∀ w ∈ weights, 0 ≤ w) : ∃ w ∈ weights, 0 < w := by
  obtain ⟨i, x, -, -, nonzero, kept⟩ := keeps
  have member := List.mem_of_getElem? kept
  exact ⟨x, member, pos_of_ne_zero (nonnegative x member) nonzero⟩

section

variable {p : Params} {n : Nat} {context : List Nat} {logits : List Float32}

theorem length_of_shares? (shared : p.effective.shares? context logits = some shares) :
    shares.length = logits.length := by
  rw [SamplingConfig.shares?] at shared
  cases drawn : p.effective.sampling with
  | greedy => simp [drawn, Sampling.shares?] at shared
  | whole t =>
    rw [drawn] at shared
    rw [← Option.some.inj shared, length_softmax, length_scaled, SamplingConfig.length_adjust]
  | nucleus t share =>
    rw [drawn] at shared
    rw [← Option.some.inj shared, length_softmax, length_scaled, SamplingConfig.length_adjust]

theorem weights_of_shares? (keeps : ¬ p.LosesNucleus)
    (shared : p.effective.shares? context logits = some shares) (proper : Proper shares) :
    ∃ weights, p.effective.weights? context logits = some weights ∧
      KeepsGreatest shares weights ∧ weights.length = shares.length ∧ ∀ w ∈ weights, 0 ≤ w := by
  rw [SamplingConfig.shares?] at shared
  rw [SamplingConfig.weights?]
  cases drawn : p.effective.sampling with
  | greedy => simp [drawn, Sampling.shares?] at shared
  | whole t =>
    rw [drawn] at shared
    exact ⟨shares, shared, keepsGreatest_self proper, rfl, proper.nonnegative⟩
  | nucleus t share =>
    rw [drawn] at shared
    obtain ⟨draws, warm, positive, same⟩ := Params.sampling_nucleus drawn
    have above : ¬ share ≤ halfLeastSingle := by
      intro tiny
      rw [same] at positive tiny
      exact keeps ⟨draws, warm, positive, tiny⟩
    have cutting : Sampling.weights? (p.effective.adjust context logits) (.nucleus t share) =
        some (cut (nearestSingle share) shares) := by
      rw [← Option.some.inj shared]
      rfl
    exact ⟨_, cutting, keepsGreatest_cut proper (nearestSingle_pos positive above),
      length_cut _ _, proper.cut_nonnegative⟩

theorem chooseToken_of_weights? {weights : List Float32}
    (weighed : p.effective.weights? context logits = some weights) :
    p.effective.chooseToken n context logits =
      draw weights (Random.unitFloat (Random.word p.effective.seed n)) := by
  rw [SamplingConfig.weights?] at weighed
  rw [SamplingConfig.chooseToken, Sampling.choose, weighed]

theorem chooseToken_of_greedy (greedy : p.effective.sampling = .greedy) (some : logits ≠ []) :
    ∃ token < logits.length, p.effective.chooseToken n context logits = .ok token := by
  have length := p.effective.length_adjust context logits
  have nonempty : p.effective.adjust context logits ≠ [] := by
    intro none
    rw [none] at length
    exact some (List.length_eq_zero_iff.1 length.symm)
  obtain ⟨token, inside, greatest⟩ := argmax?_of_ne_nil nonempty
  refine ⟨token, length ▸ inside, ?_⟩
  rw [SamplingConfig.chooseToken, greedy]
  simp only [Sampling.choose, Sampling.weights?, greatest]

/-- How a step of a run chooses its token. -/
structure Chooses (p : Params) (n : Nat) (context : List Nat) (logits : List Float32) : Prop where
  chooses : ¬ p.LosesNucleus →
    ∃ token < logits.length, p.effective.chooseToken n context logits = .ok token
  fails : p.LosesNucleus → p.effective.chooseToken n context logits = .error .allZero
  keeps : ¬ p.LosesNucleus → ∀ shares, p.effective.shares? context logits = some shares →
    ∃ weights, p.effective.weights? context logits = some weights ∧ KeepsGreatest shares weights

theorem chooses_of_proper (n : Nat) (some : logits ≠ [])
    (proper : ∀ shares, p.effective.shares? context logits = .some shares → Proper shares) :
    Chooses p n context logits := by
  refine ⟨fun keeps => ?_, fun loses => ?_, fun keeps shares shared => ?_⟩
  · cases shared : p.effective.shares? context logits with
    | none =>
      refine chooseToken_of_greedy ?_ some
      rw [SamplingConfig.shares?] at shared
      cases drawn : p.effective.sampling with
      | greedy => rfl
      | whole t => simp [drawn, Sampling.shares?] at shared
      | nucleus t share => simp [drawn, Sampling.shares?] at shared
    | some shares =>
      obtain ⟨weights, weighed, greatest, length, nonnegative⟩ :=
        weights_of_shares? keeps shared (proper shares shared)
      rw [chooseToken_of_weights? weighed, ← length_of_shares? shared, ← length]
      exact draw_of_pos nonnegative (greatest.exists_pos nonnegative) _
  · have weighed : p.effective.weights? context logits =
        .some (cut (nearestSingle p.topP)
          (softmax (scaled p.temperature (p.effective.adjust context logits)))) := by
      rw [SamplingConfig.weights?, loses.sampling]
      rfl
    have nonempty : softmax (scaled p.temperature (p.effective.adjust context logits)) ≠ [] := by
      intro none
      have length := congrArg List.length none
      rw [length_softmax, length_scaled, SamplingConfig.length_adjust] at length
      exact some (List.length_eq_zero_iff.1 length)
    rw [chooseToken_of_weights? weighed, nearestSingle_eq_zero loses.share loses.tiny]
    exact draw_of_empty_nucleus nonempty (by decide) _
  · obtain ⟨weights, weighed, greatest, -⟩ :=
      weights_of_shares? keeps shared (proper shares shared)
    exact ⟨weights, weighed, greatest⟩

end

namespace TokenLoop

variable {σ : Type} {d : Decoder σ} {config : SamplingConfig} {stop : StopCondition}
  {budget count offset : Nat} {context pending : List Nat} {s s' : σ} {fault : DrawFault}

/-- Every logits that a decoder gives have proper shares in every context. -/
def ProperShares (config : SamplingConfig) (d : Decoder σ) : Prop :=
  ∀ s tokens offset logits s', d.step s tokens offset = (.ok logits, s') →
    logits ≠ [] ∧ ∀ context shares, config.shares? context logits = some shares → Proper shares

def FailsToDraw (config : SamplingConfig) (d : Decoder σ) (fault : DrawFault) : Prop :=
  ∃ s tokens offset logits s' n context, d.step s tokens offset = (.ok logits, s') ∧
    config.chooseToken n context logits = .error fault

theorem attempt_failsToDraw
    (failed : attempt d config count context pending offset s =
      (.error ⟨[.sampleToken], .draw fault⟩, s')) : FailsToDraw config d fault := by
  unfold attempt at failed
  rcases step : d.step s pending offset with ⟨failure | logits, s₁⟩
  · -- a failure of the decoder is noted with its position
    simp [step, Failure.within] at failed
  · cases choice : config.chooseToken count context logits with
    | ok token => simp [step, choice] at failed
    | error fault' =>
      have same : fault' = fault := by simpa [step, choice] using congrArg Prod.fst failed
      exact ⟨s, pending, offset, logits, s₁, count, context, step, same ▸ choice⟩

theorem Course.failsToDraw {r : TokenRun σ}
    (h : Course d config stop budget count context pending offset s r)
    (ending : r.ending = .error ⟨[.sampleToken], .draw fault⟩) : FailsToDraw config d fault := by
  induction h with
  | budgetUsed => cases ending
  | windowFull _ => cases ending
  | failed _ round => exact attempt_failsToDraw (Except.error.inj ending ▸ round)
  | stopped _ _ _ => cases ending
  | accepted _ _ _ _ ih => exact ih ending

theorem run_failsToDraw {prompt : List Nat}
    (failed : (run d config stop prompt s).ending = .error ⟨[.sampleToken], .draw fault⟩) :
    FailsToDraw config d fault := by
  by_cases start : prompt = []
  · rw [start, run_nil] at failed
    cases failed
  · exact (run_course start).failsToDraw failed

end TokenLoop

/-- Where shares are proper a token is chosen, and a greatest share keeps its weight, unless the
parameters lose the nucleus; then no step can draw. -/
theorem chooses_unless_nucleus_lost (p : Params) :
    (∀ n context logits, logits ≠ [] →
      (∀ shares, p.effective.shares? context logits = some shares → Proper shares) →
      Chooses p n context logits) ∧
    ∀ (σ : Type) (d : Decoder σ), TokenLoop.ProperShares p.effective d → ¬ p.LosesNucleus →
      ∀ stop prompt s fault, (TokenLoop.run d p.effective stop prompt s).ending ≠
        .error ⟨[.sampleToken], .draw fault⟩ := by
  refine ⟨fun n context logits nonempty proper => chooses_of_proper n nonempty proper, ?_⟩
  intro σ d proper keeps stop prompt s fault failed
  obtain ⟨s₁, tokens, offset, logits, s₂, n, context, step, choice⟩ :=
    TokenLoop.run_failsToDraw failed
  obtain ⟨nonempty, shares⟩ := proper s₁ tokens offset logits s₂ step
  obtain ⟨token, -, chosen⟩ := (chooses_of_proper n nonempty (shares context)).chooses keeps
  rw [chosen] at choice
  cases choice

theorem proper_halves : Proper [0.5, 0.5] := by
  refine ⟨?_, ?_, ⟨0.5, List.mem_cons_self, ?_⟩⟩ <;> decide

theorem proper_of_halves {p : Params} {context : List Nat} {logits : List Float32}
    (halves : p.effective.shares? context logits = some [0.5, 0.5]) :
    ∀ shares, p.effective.shares? context logits = some shares → Proper shares := by
  intro shares shared
  rw [← Option.some.inj (halves.symm.trans shared)]
  exact proper_halves

theorem chooses_of_two_by_default :
    ∃ token < 2, ({} : Params).effective.chooseToken 0 [1] [5, 5] = .ok token := by
  have halves : ({} : Params).effective.shares? [1] [5, 5] = some [0.5, 0.5] := by decide +kernel
  have keeps : ¬ ({} : Params).LosesNucleus := by
    rintro ⟨-, -, -, tiny⟩
    exact absurd tiny (by decide)
  have chooses := (chooses_unless_nucleus_lost {}).1 0 [1] [5, 5] (by decide)
    (proper_of_halves halves)
  exact chooses.chooses keeps

/-- A positive share of the nucleus with which no token is drawn from two that are as likely. -/
theorem tiny_share_draws_nothing :
    let p : Params := { temperature := 1, topP := 1e-50 }
    0 < p.effective.topP ∧ p.effective.shares? [1] [5, 5] = some [0.5, 0.5] ∧
      Proper [0.5, 0.5] ∧ p.effective.chooseToken 0 [1] [5, 5] = .error .allZero := by
  intro p
  have halves : p.effective.shares? [1] [5, 5] = some [0.5, 0.5] := by decide +kernel
  have loses : p.LosesNucleus :=
    ⟨by decide, by decide, by decide, by decide⟩
  have chooses : Chooses p 0 [1] [5, 5] := chooses_of_proper 0 (by decide) (proper_of_halves halves)
  exact ⟨by decide +kernel, halves, proper_halves, chooses.fails loses⟩

end TextCompletion
