import TextCompletion.Proofs.Generation.Outcome
import TextCompletion.Proofs.Generation.Greedy
import TextCompletion.Proofs.Generation.Shares

/-!
Which tokens can be drawn. The nucleus is the shortest head of the ranking whose mass reaches a
share; sorting keeps the order of equal shares, so there is but one. Main statement: whatever the
random word is, where the shares are numbers a draw meets a token whose weight is above zero, and so
one of the nucleus; no word is so small or so great that it meets a token that was cut.
-/

namespace TextCompletion

open Decimal

namespace Distribution

/-- The places of shares in the order of falling shares, and equal shares in the order of their
places. -/
structure Ranked (shares : List Float32) (order : List Nat) : Prop where
  places : order.Perm (List.range shares.length)
  falling : order.Pairwise fun i j => ∀ x y, shares[i]? = some x → shares[j]? = some y →
    y < x ∨ (x == y) = true ∧ i < j

/-- The sum of the shares at some places, from left to right. -/
def massAt (shares : List Float32) (places : List Nat) : Float32 :=
  sum (places.filterMap fun i => shares[i]?)

/-- The shortest head of the ranking whose mass reaches the share, or all of it. -/
structure IsNucleus (share : Float32) (shares : List Float32) (order kept : List Nat) : Prop where
  ranked : Ranked shares order
  head : kept <+: order
  shortest : ∀ n < kept.length, ¬ share ≤ massAt shares (kept.take n)
  reaches : share ≤ massAt shares kept ∨ kept = order

variable {shares : List Float32} {share mass : Float32} {list : List (Float32 × Nat)}

theorem headUpTo_shortest (share mass : Float32) (list : List (Float32 × Nat)) :
    ∃ k, headUpTo share mass list = (list.take k).map Prod.snd ∧
      (∀ n < k, ¬ share ≤ ((list.take n).map Prod.fst).foldl (· + ·) mass) ∧
      (share ≤ ((list.take k).map Prod.fst).foldl (· + ·) mass ∨ k = list.length) := by
  induction list generalizing mass with
  | nil => exact ⟨0, rfl, fun n less => absurd less (Nat.not_lt_zero n), .inr rfl⟩
  | cons head rest ih =>
    obtain ⟨x, i⟩ := head
    by_cases reached : share ≤ mass
    · exact ⟨0, if_pos reached, fun n less => absurd less (Nat.not_lt_zero n), .inl reached⟩
    · obtain ⟨k, kept, short, reaches⟩ := ih (mass + x)
      refine ⟨k + 1, ?_, fun n less => ?_, ?_⟩
      · rw [headUpTo, if_neg reached, kept]
        rfl
      · cases n with
        | zero => exact reached
        | succ n => exact short n (Nat.lt_of_succ_lt_succ less)
      · exact reaches.imp_right (congrArg (· + 1))

theorem filterMap_places (held : ∀ p ∈ list, shares[p.2]? = some p.1) :
    (list.map Prod.snd).filterMap (fun i => shares[i]?) = list.map Prod.fst := by
  induction list with
  | nil => rfl
  | cons p rest ih =>
    rw [List.map_cons, List.filterMap_cons_some (held p List.mem_cons_self),
      ih fun q member => held q (.tail _ member), List.map_cons]

theorem massAt_take (n : Nat) : massAt shares (((descending shares).take n).map Prod.snd) =
    (((descending shares).take n).map Prod.fst).foldl (· + ·) 0 := by
  rw [massAt, filterMap_places fun p member => mem_descending.1 (List.mem_of_mem_take member)]
  rfl

theorem orderKey_of_inUnit {x : Float32} (unit : InUnit x) : orderKey x = x.toBits.toNat := by
  have width : powerBits 0 < Nat.pow 2 31 := by decide
  exact if_pos (Nat.lt_of_le_of_lt unit width)

theorem beq_iff_bits {x y : Float32} (unit : InUnit x) (unit' : InUnit y) :
    (x == y) = true ↔ x.toBits.toNat = y.toBits.toNat := by
  have equal : (x == y) = (x.toModel.unpack.compare y.toModel.unpack == some .eq) := rfl
  rw [equal, single_compare unit.isMagnitude.le unit'.isMagnitude.le, beq_iff_eq, Option.some_inj,
    compare_eq_iff_eq]

theorem ranked_descending (units : ∀ x ∈ shares, InUnit x) :
    Ranked shares ((descending shares).map Prod.snd) where
  places := descending_places shares
  falling := by
    rw [List.pairwise_map]
    refine (descending_stable shares).imp_of_mem fun {a b} first second falls x y here there => ?_
    obtain rfl : a.1 = x := Option.some.inj ((mem_descending.1 first).symm.trans here)
    obtain rfl : b.1 = y := Option.some.inj ((mem_descending.1 second).symm.trans there)
    have unit := units a.1 (List.mem_of_getElem? here)
    have unit' := units b.1 (List.mem_of_getElem? there)
    rw [orderKey_of_inUnit unit, orderKey_of_inUnit unit'] at falls
    rcases falls with less | ⟨same, before⟩
    · left
      rw [single_lt_iff_bits unit'.isMagnitude.le unit.isMagnitude.le]
      omega
    · exact .inr ⟨(beq_iff_bits unit unit').2 (by omega), before⟩

theorem isNucleus_nucleus (share : Float32) (units : ∀ x ∈ shares, InUnit x) :
    IsNucleus share shares ((descending shares).map Prod.snd) (nucleus share shares) := by
  obtain ⟨k, kept, short, reaches⟩ := headUpTo_shortest share 0 (descending shares)
  have places : nucleus share shares = ((descending shares).take k).map Prod.snd := kept
  refine ⟨ranked_descending units, ?_, fun n less => ?_, ?_⟩
  · rw [places, List.map_take]
    exact List.take_prefix _ _
  · have few : n < k := by
      rw [places, List.length_map, List.length_take] at less
      omega
    rw [places, ← List.map_take, List.take_take, Nat.min_eq_left few.le, massAt_take]
    exact short n few
  · rcases reaches with enough | whole
    · left
      rw [places, massAt_take]
      exact enough
    · right
      rw [places, whole, List.take_length]

variable {order order' kept kept' : List Nat}

theorem Ranked.unique (units : ∀ x ∈ shares, InUnit x) (h : Ranked shares order)
    (h' : Ranked shares order') : order = order' := by
  refine List.Perm.eq_of_pairwise (fun i j first second before after => ?_) h.falling h'.falling
    (h.places.trans h'.places.symm)
  have inside : i < shares.length := List.mem_range.1 (h.places.subset first)
  have inside' : j < shares.length := List.mem_range.1 (h'.places.subset second)
  have unit := units shares[i] (List.getElem_mem inside)
  have unit' := units shares[j] (List.getElem_mem inside')
  have one := before _ _ (List.getElem?_eq_getElem inside) (List.getElem?_eq_getElem inside')
  have other := after _ _ (List.getElem?_eq_getElem inside') (List.getElem?_eq_getElem inside)
  rw [single_lt_iff_bits unit'.isMagnitude.le unit.isMagnitude.le, beq_iff_bits unit unit'] at one
  rw [single_lt_iff_bits unit.isMagnitude.le unit'.isMagnitude.le, beq_iff_bits unit' unit] at other
  omega

theorem IsNucleus.length_le (h : IsNucleus share shares order kept)
    (h' : IsNucleus share shares order kept') : kept'.length ≤ kept.length := by
  by_contra longer
  have head : kept <+: kept' :=
    List.prefix_of_prefix_length_le h.head h'.head (Nat.le_of_not_le longer)
  have short := h'.shortest kept.length (Nat.lt_of_not_le longer)
  rw [← List.prefix_iff_eq_take.1 head] at short
  have whole := h.reaches.resolve_left short
  have few := h'.head.length_le
  rw [← whole] at few
  exact longer few

theorem IsNucleus.unique (units : ∀ x ∈ shares, InUnit x) (h : IsNucleus share shares order kept)
    (h' : IsNucleus share shares order' kept') : kept = kept' := by
  obtain rfl := h.ranked.unique units h'.ranked
  have length := Nat.le_antisymm (h'.length_le h) (h.length_le h')
  exact (List.prefix_of_prefix_length_le h.head h'.head length.le).eq_of_length length

variable {logits : List Float32} {word : UInt32} {token : Nat}

theorem nonempty_of_draw {weights : List Float32} {part : Float32}
    (drawn : draw weights part = .ok token) : weights ≠ [] := by
  rintro rfl
  cases drawn

theorem draw_softmax (numbers : ∀ x ∈ softmax logits, x.isNaN = false)
    (drawn : draw (softmax logits) (Random.unitFloat word) = .ok token) :
    ∃ x, (softmax logits)[token]? = some x ∧ 0 < x := by
  have nonempty : logits ≠ [] := by
    rintro rfl
    exact nonempty_of_draw drawn rfl
  obtain ⟨x, member, large⟩ := exists_large_share numbers nonempty
  exact draw_pos (softmax_inUnit numbers) ⟨x, member, Nat.le_trans (by decide) large⟩
    (toNat_unitFloat_le word) drawn

theorem share_of_draw_cut {part : Float32} (drawn : draw (cut share shares) part = .ok token) :
    ¬ share ≤ 0 := by
  intro none
  have some : shares ≠ [] := by
    rintro rfl
    exact nonempty_of_draw drawn rfl
  rw [draw_of_empty_nucleus some none] at drawn
  cases drawn

theorem cut_inUnit (share : Float32) (units : ∀ x ∈ shares, InUnit x) :
    ∀ x ∈ cut share shares, InUnit x := by
  intro x member
  obtain ⟨i, place⟩ := List.mem_iff_getElem?.1 member
  rw [getElem?_cut] at place
  obtain ⟨y, here, rfl⟩ := Option.map_eq_some_iff.1 place
  split
  · exact units y (List.mem_of_getElem? here)
  · exact inUnit_zero

theorem mem_nucleus_of_pos {w : Float32} (kept : (cut share shares)[token]? = some w)
    (positive : 0 < w) : shares[token]? = some w ∧ token ∈ nucleus share shares := by
  rw [getElem?_cut] at kept
  obtain ⟨x, here, value⟩ := Option.map_eq_some_iff.1 kept
  by_cases inside : (nucleus share shares).contains token = true
  · rw [if_pos inside] at value
    exact ⟨value ▸ here, List.contains_iff_mem.1 inside⟩
  · rw [if_neg inside] at value
    rw [← value] at positive
    exact absurd positive (by decide)

theorem draw_cut (numbers : ∀ x ∈ softmax logits, x.isNaN = false) (positive : 0 < share)
    (drawn : draw (cut share (softmax logits)) (Random.unitFloat word) = .ok token) :
    ∃ x, (cut share (softmax logits))[token]? = some x ∧ 0 < x := by
  have units := softmax_inUnit numbers
  have nonempty : logits ≠ [] := by
    rintro rfl
    exact nonempty_of_draw drawn rfl
  obtain ⟨x, member, large⟩ := exists_large_share numbers nonempty
  have normal : powerBits (-126) ≤ powerBits (-25) := by decide
  cases sorted : descending (softmax logits) with
  | nil =>
    obtain ⟨i, place⟩ := List.mem_iff_getElem?.1 member
    have inside := mem_descending.2 place
    rw [sorted] at inside
    exact absurd inside List.not_mem_nil
  | cons head rest =>
    -- the greatest share is kept
    obtain ⟨y, i⟩ := head
    have place : (softmax logits)[i]? = some y :=
      mem_descending.1 (sorted ▸ List.mem_cons_self)
    have keys := orderKey_le_head sorted member
    rw [orderKey_of_inUnit (units x member),
      orderKey_of_inUnit (units y (List.mem_of_getElem? place))] at keys
    exact draw_pos (cut_inUnit share units)
      ⟨y, List.mem_of_getElem? (cut_keeps_head sorted positive), by omega⟩
      (toNat_unitFloat_le word) drawn

theorem argmax?_lt {values : List Float32} {i : Nat} (found : argmax? values = some i) :
    i < values.length := by
  have nonempty : values ≠ [] := by
    rintro rfl
    cases found
  obtain ⟨j, inside, same⟩ := argmax?_of_ne_nil nonempty
  rw [found] at same
  exact Option.some.inj same ▸ inside

end Distribution

open TextCompletion.Distribution

namespace Params

variable {p : Params}

theorem intoUnit_pos {x : Float} (some : ¬ x ≤ 0) : 0 < intoUnit x := by
  have one : (0 : Float) < 1 := by decide
  rw [intoUnit]
  by_cases none : x.isNaN = true
  · rwa [if_pos none]
  · have number : x.isNaN = false := by simpa using none
    have zero : (0 : Float).isNaN = false := rfl
    have positive : 0 < x := by
      by_contra low
      exact some (double_le_of_not_lt number zero low)
    rw [if_neg none, if_neg (double_not_lt_zero positive)]
    split
    · exact one
    · exact positive

theorem IsGreedy.of_sampling (greedy : p.effective.sampling = .greedy) : p.IsGreedy := by
  rw [sampling_effective] at greedy
  by_contra drawing
  simp only [IsGreedy, not_or] at drawing
  obtain ⟨number, warm, some⟩ := drawing
  have positive : 0 < p.temperature := by
    have number' : p.temperature.isNaN = false := by simpa using number
    have zero : (0 : Float).isNaN = false := rfl
    have cold : (1e-7 : Float).isNaN = false := rfl
    have least : (0 : Float) < 1e-7 := by decide
    by_contra low
    have below := (double_le_iff_rank number' zero).1 (double_le_of_not_lt number' zero low)
    exact warm ((double_lt_iff_rank number' cold).2
      (below.trans_lt ((double_lt_iff_rank zero cold).1 least)))
  rw [if_pos ⟨positive, intoUnit_pos some, warm⟩] at greedy
  split at greedy <;> cases greedy

/-- The token has a weight above zero, which is its share, and the nucleus holds it. -/
structure DrawnFrom (p : Params) (shares weights : List Float32) (token : Nat) : Prop where
  weight : ∃ x, shares[token]? = some x ∧ weights[token]? = some x ∧ 0 < x
  nucleus : 0 < p.topP → p.topP < 1 →
    (∃ order kept, IsNucleus (nearestSingle p.topP) shares order kept) ∧
      ∀ order kept, IsNucleus (nearestSingle p.topP) shares order kept → token ∈ kept

/-- Tokens that may follow a context. -/
structure Admissible (p : Params) (context : List Nat) (logits : List Float32) (token : Nat) :
    Prop where
  valid : token < logits.length
  drawn : ¬ p.IsGreedy → ∃ shares weights, p.effective.shares? context logits = some shares ∧
    p.effective.weights? context logits = some weights ∧ p.DrawnFrom shares weights token

def SharesAreNumbers (p : Params) (context : List Nat) (logits : List Float32) : Prop :=
  ∀ shares, p.effective.shares? context logits = some shares → ∀ x ∈ shares, x.isNaN = false

variable {context : List Nat} {logits shares : List Float32} {token : Nat} {word : UInt32}
  {t share : Float}

theorem sampling_within (positive : 0 < p.topP) (within : p.topP < 1)
    (drawing : p.effective.sampling ≠ .greedy) :
    p.effective.sampling = .nucleus p.temperature p.topP := by
  have one : (1 : Float).isNaN = false := rfl
  have below : ¬ 1 < p.topP ∧ ¬ 1 ≤ p.topP := by
    have number := double_not_isNaN positive
    rw [double_lt_iff_rank number one] at within
    rw [double_lt_iff_rank one number, double_le_iff_rank one number]
    exact ⟨within.asymm, within.not_ge⟩
  have same := intoUnit_of_pos positive below.1
  rw [sampling_effective, same] at drawing ⊢
  split
  · rw [if_pos ⟨within, not_or.2 ⟨double_not_le_zero positive, below.2⟩⟩]
  · rename_i idle
    exact absurd (if_neg idle) drawing

theorem valid_of_share {x : Float32} (shared : p.effective.shares? context logits = some shares)
    (place : shares[token]? = some x) : token < logits.length := by
  rw [← length_of_shares? shared]
  exact (List.getElem?_eq_some_iff.1 place).1

theorem admissible_of_whole (numbers : p.SharesAreNumbers context logits)
    (whole : p.effective.sampling = .whole t)
    (chosen : p.effective.sampling.choose word (p.effective.adjust context logits) = .ok token) :
    p.Admissible context logits token := by
  have shared : p.effective.shares? context logits =
      some (softmax (scaled t (p.effective.adjust context logits))) := by
    rw [SamplingConfig.shares?, whole, Sampling.shares?]
  have weighed : p.effective.weights? context logits =
      some (softmax (scaled t (p.effective.adjust context logits))) := by
    rw [SamplingConfig.weights?, whole, Sampling.weights?]
  rw [whole] at chosen
  obtain ⟨x, place, positive⟩ := draw_softmax (numbers _ shared) chosen
  refine ⟨valid_of_share shared place, fun _ => ⟨_, _, shared, weighed, ?_, fun some within => ?_⟩⟩
  · exact ⟨x, place, place, positive⟩
  · have cutting := sampling_within some within (by rw [whole]; exact Sampling.noConfusion)
    rw [whole] at cutting
    cases cutting

theorem admissible_of_nucleus (numbers : p.SharesAreNumbers context logits)
    (cutting : p.effective.sampling = .nucleus t share)
    (chosen : p.effective.sampling.choose word (p.effective.adjust context logits) = .ok token) :
    p.Admissible context logits token := by
  obtain ⟨-, -, some, rfl⟩ := sampling_nucleus cutting
  have shared : p.effective.shares? context logits =
      .some (softmax (scaled t (p.effective.adjust context logits))) := by
    rw [SamplingConfig.shares?, cutting, Sampling.shares?]
  have weighed : p.effective.weights? context logits =
      .some (cut (nearestSingle p.topP)
        (softmax (scaled t (p.effective.adjust context logits)))) := by
    rw [SamplingConfig.weights?, cutting, Sampling.weights?]
  rw [cutting] at chosen
  have positive : 0 < nearestSingle p.topP := by
    refine nearestSingle_pos some fun tiny => share_of_draw_cut chosen ?_
    rw [nearestSingle_eq_zero some tiny]
    decide
  have units := softmax_inUnit (numbers _ shared)
  obtain ⟨x, kept, weight⟩ := draw_cut (numbers _ shared) positive chosen
  obtain ⟨place, inside⟩ := mem_nucleus_of_pos kept weight
  have here := isNucleus_nucleus (nearestSingle p.topP) units
  refine ⟨valid_of_share shared place, fun _ => ⟨_, _, shared, weighed, ?_, fun _ _ => ⟨?_, ?_⟩⟩⟩
  · exact ⟨x, place, kept, weight⟩
  · exact ⟨_, _, here⟩
  · exact fun order other cuts => here.unique units cuts ▸ inside

/-- Whatever the random word is, the token chosen is admissible. -/
theorem admissible_of_choose (numbers : p.SharesAreNumbers context logits)
    (chosen : p.effective.sampling.choose word (p.effective.adjust context logits) = .ok token) :
    p.Admissible context logits token := by
  cases sampling : p.effective.sampling with
  | greedy =>
    rw [sampling] at chosen
    have inside := argmax?_lt (Sampling.argmax_of_choose chosen)
    rw [SamplingConfig.length_adjust] at inside
    exact ⟨inside, fun drawing => absurd (IsGreedy.of_sampling sampling) drawing⟩
  | whole t => exact admissible_of_whole numbers sampling chosen
  | nucleus t share => exact admissible_of_nucleus numbers sampling chosen

theorem sharesAreNumbers_of_halves
    (halves : p.effective.shares? context logits = some [0.5, 0.5]) :
    p.SharesAreNumbers context logits := by
  intro shares shared
  obtain rfl := Option.some.inj (halves.symm.trans shared)
  decide

end Params

namespace TokenLoop

open Params

variable {σ : Type}

/-- Whatever word is drawn in whatever context, the token is admissible if the shares are numbers;
and so is every token that a run draws, and that it may return, from answers with such shares. -/
theorem run_admissible (p : Params) :
    (∀ (context : List Nat) (logits : List Float32) (word : UInt32) (token : Nat),
      p.SharesAreNumbers context logits →
      p.effective.sampling.choose word (p.effective.adjust context logits) = .ok token →
        p.Admissible context logits token) ∧
    ∀ (d : Decoder σ) (stop : StopCondition) (prompt : List Nat) (s : σ),
      (∀ tokens, (run d p.effective stop prompt s).tokens = .ok tokens →
        tokens <+: (run d p.effective stop prompt s).drawn) ∧
      ∀ i token, (run d p.effective stop prompt s).drawn[i]? = some token →
        ∃ logits, d.answer? s (run d p.effective stop prompt s).calls i = some (.ok logits) ∧
          (p.SharesAreNumbers (prompt ++ (run d p.effective stop prompt s).accepted.take i)
            logits → p.Admissible
              (prompt ++ (run d p.effective stop prompt s).accepted.take i) logits token) := by
  refine ⟨fun _ _ _ _ numbers chosen => admissible_of_choose numbers chosen, ?_⟩
  intro d stop prompt s
  refine ⟨fun tokens returned => TokenRun.returned_prefix returned, fun i token drawn => ?_⟩
  obtain ⟨logits, answer, choice⟩ := run_chooses drawn
  exact ⟨logits, answer, fun numbers => admissible_of_choose numbers choice⟩

/-- Of two tokens that are as likely the first is in a nucleus of half the mass, and the greatest
word draws it; a run draws it from both. -/
theorem run_admissible_firstOfTwo :
    let p : Params := { topP := 0.5 }
    let p' : Params := { maxNewTokens := 1, topP := 1 }
    ¬ p.IsGreedy ∧ p.Admissible [0] [5, 5] 0 ∧ ¬ p'.IsGreedy ∧ p'.Admissible [0] [5, 5] 0 := by
  have drawing : ¬ ({ topP := 0.5 } : Params).IsGreedy := by
    simp only [IsGreedy]
    decide
  have sampling : ({ topP := 0.5 } : Params).effective.sampling = .nucleus 0.7 0.5 :=
    sampling_within (by decide) (by decide)
      fun greedy => drawing (IsGreedy.of_sampling greedy)
  have logits : ({ topP := 0.5 } : Params).effective.adjust [0] [5, 5] = [5, 5] := by decide +kernel
  have halves : softmax (scaled 0.7 [5, 5]) = [0.5, 0.5] := by decide +kernel
  have sorted : descending [0.5, 0.5] = [(0.5, 0), (0.5, 1)] :=
    List.mergeSort_of_pairwise (by decide)
  have first : cut (nearestSingle 0.5) [0.5, 0.5] = [0.5, 0] := by
    rw [cut, nucleus, sorted]
    decide +kernel
  have chosen : ({ topP := 0.5 } : Params).effective.sampling.choose 0xFFFFFFFF
      (({ topP := 0.5 } : Params).effective.adjust [0] [5, 5]) = .ok 0 := by
    rw [sampling, logits, Sampling.choose, Sampling.weights?, halves, first]
    decide +kernel
  have shared : ({ topP := 0.5 } : Params).effective.shares? [0] [5, 5] = some [0.5, 0.5] := by
    rw [SamplingConfig.shares?, sampling, logits, Sampling.shares?, halves]
  have whole : ({ maxNewTokens := 1, topP := 1 } : Params).effective.shares? [0] [5, 5] =
      some [0.5, 0.5] := by decide +kernel
  have drawn : (run (Decoder.recording fun _ => .ok [5, 5])
      ({ maxNewTokens := 1, topP := 1 } : Params).effective {} [0] []).drawn[0]? = some 0 := by
    decide +kernel
  refine ⟨drawing, ?_, ?_, ?_⟩
  · exact (run_admissible (σ := Unit) { topP := 0.5 }).1 [0] [5, 5] 0xFFFFFFFF 0
      (sharesAreNumbers_of_halves shared) chosen
  · simp only [IsGreedy]
    decide
  · obtain ⟨-, chosen⟩ := (run_admissible { maxNewTokens := 1, topP := 1 }).2
      (Decoder.recording fun _ => .ok [5, 5]) {} [0] []
    obtain ⟨logits, answer, admissible⟩ := chosen 0 0 drawn
    obtain ⟨call, -, result⟩ := Option.map_eq_some_iff.1 answer
    obtain rfl : [5, 5] = logits := Except.ok.inj result
    exact admissible (sharesAreNumbers_of_halves whole)

end TokenLoop
end TextCompletion
