/-!
Lists of texts in strictly increasing order of their bytes.
-/

namespace TextCompletion.Text

def insertSorted (s : String) : List String → List String
  | [] => [s]
  | t :: ts => if s < t then s :: t :: ts else if s = t then t :: ts else t :: insertSorted s ts

@[simp] theorem mem_insertSorted {s t : String} {texts : List String} :
    t ∈ insertSorted s texts ↔ t = s ∨ t ∈ texts := by
  induction texts with
  | nil => simp [insertSorted]
  | cons a rest ih =>
    unfold insertSorted
    split
    · simp
    · split
      · subst_vars
        simp
      · simp only [List.mem_cons, ih]
        exact or_left_comm

theorem insertSorted_pairwise {s : String} {texts : List String}
    (h : texts.Pairwise (· < ·)) : (insertSorted s texts).Pairwise (· < ·) := by
  induction texts with
  | nil => simp [insertSorted]
  | cons a rest ih =>
    obtain ⟨first, tail⟩ := List.pairwise_cons.1 h
    unfold insertSorted
    split
    · rename_i less
      refine List.pairwise_cons.2 ⟨fun t member => ?_, h⟩
      rcases List.mem_cons.1 member with rfl | member
      · exact less
      · exact String.lt_trans less (first t member)
    · split
      · exact h
      · rename_i notLess other
        refine List.pairwise_cons.2 ⟨fun t member => ?_, ih tail⟩
        rcases mem_insertSorted.1 member with rfl | member
        · exact Std.lt_of_le_of_ne (String.not_lt.1 notLess) fun e => other e.symm
        · exact first t member

def sortDistinct (texts : List String) : List String := texts.foldr insertSorted []

@[simp] theorem mem_sortDistinct {s : String} {texts : List String} :
    s ∈ sortDistinct texts ↔ s ∈ texts := by
  induction texts with
  | nil => simp [sortDistinct]
  | cons a rest ih => simpa [sortDistinct] using or_congr_right ih

theorem sortDistinct_pairwise (texts : List String) : (sortDistinct texts).Pairwise (· < ·) := by
  induction texts with
  | nil => simp [sortDistinct]
  | cons s rest ih => exact insertSorted_pairwise ih

/-- Only which texts there are decides. -/
theorem sortDistinct_congr {texts texts' : List String}
    (same : ∀ text, text ∈ texts ↔ text ∈ texts') : sortDistinct texts = sortDistinct texts' := by
  have sorted := sortDistinct_pairwise texts
  have sorted' := sortDistinct_pairwise texts'
  have distinct {names : List String} (sorted : names.Pairwise (· < ·)) : names.Nodup :=
    sorted.imp fun {_ _} less => String.ne_of_lt less
  refine List.Perm.eq_of_pairwise (fun a b _ _ less less' => absurd less' (String.lt_asymm less))
    sorted sorted' ?_
  rw [List.perm_ext_iff_of_nodup (distinct sorted) (distinct sorted')]
  intro text
  rw [mem_sortDistinct, mem_sortDistinct, same]

end TextCompletion.Text
