import TextCompletion.Proofs.Weights.Shards
import Mathlib.Algebra.Group.Nat.Defs

/-!
Stored tensors have as many values as their shapes say. A tensor file is read for so many elements,
and so is an archive; values that are brought into another order stay as many. Main statement: so it
is for every tensor of a store that was loaded.
-/

namespace TextCompletion

def Tensor.IsFilled (t : Tensor) : Prop := t.values.length = t.shape.foldl (· * ·) 1

namespace Weights

@[simp] theorem length_elements (size : Nat) (decode : Nat → Float32) (count : Nat)
    (bytes : Bytes) : (elements size decode count bytes).length = count := by
  induction count generalizing bytes with
  | zero => rfl
  | succ count ih => rw [elements, List.length_cons, ih]

namespace Archive

variable {d i : Nat}

/-- Every `d`th of `d * n` places, whichever of the first `d` it begins with. -/
theorem countP_range_mod (inside : i < d) (n : Nat) :
    (List.range (d * n)).countP (fun k => k % d == i) = n := by
  induction n with
  | zero => rfl
  | succ n ih =>
    have once : (List.range d).countP ((fun k => k % d == i) ∘ (d * n + ·)) =
        (List.range d).count i := by
      refine List.countP_congr fun k member => ?_
      have below : k < d := List.mem_range.1 member
      rw [Function.comp_apply, Nat.mul_add_mod, Nat.mod_eq_of_lt below]
    rw [Nat.mul_succ, List.range_add, List.countP_append, List.countP_map, ih, once,
      List.count_range, if_pos inside]

theorem length_filter_mod {n : Nat} (inside : i < d) {values : List Float32}
    (length : values.length = d * n) :
    ((values.zipIdx.filter fun (_, k) => k % d == i).map Prod.fst).length = n := by
  rw [List.length_map, ← List.countP_eq_length_filter, ← countP_range_mod inside n,
    List.range_eq_range', ← length, ← List.zipIdx_map_snd, List.countP_map]
  rfl

theorem length_transpose {dims : List Nat} {values : List Float32}
    (length : values.length = dims.prod) : (transpose dims values).length = dims.prod := by
  induction dims generalizing values with
  | nil => exact length
  | cons d dims ih =>
    rw [List.prod_cons] at length
    -- the first index counts the places modulo `d`, and each part is brought into order by itself
    have each : ∀ i ∈ List.range d,
        (transpose dims ((values.zipIdx.filter fun (_, k) => k % d == i).map Prod.fst)).length =
          dims.prod :=
      fun i member => ih (length_filter_mod (List.mem_range.1 member) length)
    rw [transpose, List.length_flatMap, List.map_congr_left each, List.map_const',
      List.length_range, List.sum_replicate_nat, List.prod_cons]

theorem Layout.isFilled_of_read {l : Layout} {storage : Bytes} {t : Tensor}
    (read : l.read storage = .ok t) : t.IsFilled := by
  unfold Layout.read at read
  split at read
  · cases read
  · rename_i decode _
    dsimp only at read
    split at read
    · cases read
    split at read
    · cases read
      exact length_elements ..
    split at read
    · cases read
      rw [Tensor.IsFilled, ← List.prod_eq_foldl]
      exact length_transpose (by rw [length_elements, List.prod_eq_foldl])
    · cases read

end Archive

def Store.IsFilled (s : Store) : Prop := ∀ name t, (name, .ok t) ∈ s.entries → t.IsFilled

namespace Store

variable {s : Store} {name : String} {shape : List Nat} {t : Tensor}

theorem isFilled_join {stores : List Store} (filled : ∀ s ∈ stores, s.IsFilled) :
    (join stores).IsFilled := by
  intro name t member
  obtain ⟨s, held, member⟩ := List.mem_flatMap.1 member
  exact filled s held name t member

theorem length_of_get (filled : s.IsFilled) (found : s.get name shape = .ok t) :
    t.values.length = shape.foldl (· * ·) 1 := by
  unfold get at found
  split at found
  · cases found
  · cases found
  · rename_i stored present
    split at found
    · rename_i fits
      obtain rfl : stored = t := Except.ok.inj found
      obtain ⟨e, member, rest⟩ := Option.map_eq_some_iff.1 present
      have here : (e.1, .ok stored) ∈ s.entries :=
        rest ▸ List.mem_reverse.1 (List.mem_of_find?_eq_some member)
      rw [← fits]
      exact filled _ _ here
    · cases found

end Store

theorem Header.isFilled_store (h : Header) : h.store.IsFilled := by
  intro name t member
  obtain ⟨⟨_, info⟩, -, stored⟩ := List.mem_map.1 member
  have read : h.stored info = .ok t := (Prod.mk.inj stored).2
  unfold Header.stored at read
  split at read
  · cases read
  · cases read
    exact length_elements ..

theorem Archive.isFilled_tensorsOf (all : List Entry) (directory : String)
    (object : Pickle.Value) : Store.IsFilled ⟨tensorsOf all directory object⟩ := by
  intro name t member
  obtain ⟨⟨key, value⟩, -, made⟩ := List.mem_filterMap.1 member
  dsimp only at made
  split at made
  · have read := (Prod.mk.inj (Option.some.inj made)).2
    obtain ⟨storage, -, read⟩ := bind_eq_ok.1 read
    exact Layout.isFilled_of_read read
  · cases made

theorem Archive.isFilled_of_tensors {file : Bytes}
    {found : List (String × Except TensorFault Tensor)}
    (read : Archive.tensors file = .ok found) : Store.IsFilled ⟨found⟩ := by
  obtain ⟨all, -, read⟩ := bind_eq_ok.1 read
  obtain ⟨parts, each, whole⟩ := bind_eq_ok.1 read
  obtain rfl : parts.flatten = found := Except.ok.inj whole
  intro name t member
  obtain ⟨part, among, member⟩ := List.mem_flatten.1 member
  obtain ⟨e, -, made⟩ := exists_of_mapM_eq_ok each among
  dsimp only at made
  split at made
  · cases made
  · obtain ⟨object, -, made⟩ := bind_eq_ok.1 made
    obtain rfl := Except.ok.inj made
    exact isFilled_tensorsOf all _ object name t member

variable {t : FileTree} {s : Store}

theorem isFilled_of_readArchive {path : String} (read : readArchive t path = .ok s) :
    s.IsFilled := by
  obtain ⟨node, -, read⟩ := bind_eq_ok.1 read
  split at read
  · cases read
  · split at read
    · rename_i entries found
      obtain rfl := Except.ok.inj read
      exact Archive.isFilled_of_tensors found
    · cases read

/-- Every tensor of a loaded store has as many values as its shape says, whatever files it came
from. -/
theorem isFilled_of_load {files : WeightFiles} (loaded : (load t files).result = .ok s) :
    s.IsFilled := by
  unfold load at loaded
  split at loaded
  · simp only [Logged.result_bind, Logged.result_lift, Logged.result_report, Logged.result_pure,
      bind_eq_ok, Except.ok.injEq] at loaded
    obtain ⟨headers, -, -, -, rfl⟩ := loaded
    refine Store.isFilled_join fun s member => ?_
    obtain ⟨h, -, rfl⟩ := List.mem_map.1 member
    exact h.isFilled_store
  · simp only [Logged.result_bind, Logged.result_lift, Logged.result_report, bind_eq_ok] at loaded
    obtain ⟨-, -, read⟩ := loaded
    exact isFilled_of_readArchive read
  · simp only [Logged.result_bind, Logged.result_lift, Logged.result_report, Logged.result_pure,
      bind_eq_ok, Except.ok.injEq] at loaded
    obtain ⟨stores, each, -, -, rfl⟩ := loaded
    refine Store.isFilled_join fun s member => ?_
    obtain ⟨path, -, read⟩ := exists_of_mapM_eq_ok each member
    exact isFilled_of_readArchive (readArchive_of_whole read)

end Weights
end TextCompletion
