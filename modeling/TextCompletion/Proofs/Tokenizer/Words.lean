import TextCompletion.Tokenizer.Basic
import Mathlib.Data.List.Infix

/-!
How a text comes apart. Added tokens are cut out of it, and what is left is split at blanks. Main
statements: a text in which no added token occurs is one stretch, and words with a space between any
two of them come apart into the words.
-/

namespace TextCompletion.Tokenizer

/-! Cutting. -/

def whole (cs : List Char) : List Piece := if cs.isEmpty then [] else [.stretch cs]

section

variable {texts : List (List Char × AddedToken)} {cs : List Char}

theorem longestAt_eq_none (absent : ∀ x ∈ texts, ¬ x.1 <+: cs) : longestAt texts cs = none := by
  unfold longestAt
  induction texts with
  | nil => rfl
  | cons x texts ih =>
    obtain ⟨first, absent⟩ := List.forall_mem_cons.1 absent
    have other : x.1.isPrefixOf cs = false :=
      Bool.eq_false_iff.2 fun same => first (List.isPrefixOf_iff_prefix.1 same)
    rw [List.foldl_cons]
    simp only [other, Bool.not_false, Bool.or_true, if_true]
    exact ih absent

theorem cutFrom_of_absent (absent : ∀ x ∈ texts, ¬ x.1 <:+: cs) (last : Option Char)
    (before : List Char) : cutFrom texts 0 0 last before cs = whole (before.reverse ++ cs) := by
  induction cs generalizing last before with
  | nil => rw [cutFrom, stretches, List.append_nil, whole, List.isEmpty_reverse]
  | cons c cs ih =>
    have here : longestAt texts (c :: cs) = none :=
      longestAt_eq_none fun x member => mt List.IsPrefix.isInfix (absent x member)
    have later : ∀ x ∈ texts, ¬ x.1 <:+: cs := fun x member inside =>
      absent x member (inside.trans (List.suffix_cons c cs).isInfix)
    rw [cutFrom, here]
    dsimp only
    rw [if_pos rfl, ih later, List.reverse_cons, List.append_assoc, List.singleton_append]

theorem cut_of_absent (absent : ∀ x ∈ texts, ¬ x.1 <:+: cs) : cut texts cs = whole cs :=
  cutFrom_of_absent absent none []

end

section

variable {t : Tokenizer} {s : String}

theorem mem_of_mem_firstOfEach {added : List AddedToken} {a : AddedToken}
    (member : a ∈ firstOfEach added) : a ∈ added := by
  induction added with
  | nil => exact member
  | cons b added ih =>
    rw [firstOfEach, List.mem_cons] at member
    exact List.mem_cons.2 (member.imp_right fun later => ih (List.mem_filter.1 later).1)

theorem mem_of_mem_sought {a : AddedToken} (member : a ∈ t.sought) : a ∈ t.added := by
  rw [sought, List.mem_append] at member
  rcases member with special | other
  · exact (List.mem_filter.1 (mem_of_mem_firstOfEach special)).1
  · exact (List.mem_filter.1 other).1

theorem pieces_of_absent (plain : t.lowercase = false)
    (absent : ∀ a ∈ t.added, ¬ a.text.toList <:+: s.toList) : t.pieces s = whole s.toList := by
  have same (s : String) : t.normalize s = s := by
    rw [normalize, plain]
    rfl
  have raw : ∀ x ∈ t.rawTexts, ¬ x.1 <:+: s.toList := fun x member => by
    obtain ⟨a, listed, rfl⟩ := List.mem_map.1 member
    exact absent a (mem_of_mem_sought (List.mem_filter.1 listed).1)
  have normalized : ∀ x ∈ t.normalizedTexts, ¬ x.1 <:+: s.toList := fun x member => by
    obtain ⟨a, listed, rfl⟩ := List.mem_map.1 member
    rw [same]
    exact absent a (mem_of_mem_sought (List.mem_filter.1 listed).1)
  rw [pieces, cut_of_absent raw, whole]
  split
  · rfl
  · rename_i some
    simp only [List.flatMap_cons, List.flatMap_nil, List.append_nil, String.ofList_toList, same]
    rw [cut_of_absent normalized, whole, if_neg some]

end

/-! Splitting. -/

section

variable {κ : Type} [DecidableEq κ] {kind : Char → Option κ} {word cs : List Char} {c : Char}

theorem runs_blank (blank : kind c = none) : runs kind (c :: cs) = runs kind cs := by
  rw [runs, blank]

theorem runs_last {k : κ} (own : kind c = some k) (ends : ∀ d ∈ cs.head?, kind d = none) :
    runs kind (c :: cs) = [c] :: runs kind cs := by
  rw [runs, own]
  cases cs with
  | nil => rfl
  | cons d cs =>
    have blank : kind d = none := ends d rfl
    cases runs kind (d :: cs) with
    | nil => rfl
    | cons word words => simp only [blank, reduceCtorEq, if_false]

theorem runs_append {k : κ} (nonempty : word ≠ []) (one : ∀ c ∈ word, kind c = some k)
    (ends : ∀ d ∈ cs.head?, kind d = none) : runs kind (word ++ cs) = word :: runs kind cs := by
  induction word with
  | nil => exact absurd rfl nonempty
  | cons c word ih =>
    obtain ⟨own, one⟩ := List.forall_mem_cons.1 one
    cases word with
    | nil => exact runs_last own ends
    | cons d word =>
      have next : kind d = some k := one d List.mem_cons_self
      have later := ih (List.cons_ne_nil d word) one
      rw [List.cons_append, runs, own, later]
      simp only [List.cons_append, next, if_true]

end

/-- A word without blanks. -/
structure IsWord (word : List Char) : Prop where
  nonempty : word ≠ []
  solid : ∀ c ∈ word, Text.isBlank c = false

theorem blankKind_of_isWord {word : List Char} (isWord : IsWord word) :
    ∀ c ∈ word, blankKind c = some () := by
  intro c member
  rw [blankKind, isWord.solid c member]
  rfl

/-- Words with a space between any two come apart into the words. -/
theorem runs_intercalate {words : List (List Char)} (each : ∀ word ∈ words, IsWord word) :
    runs blankKind ([' '].intercalate words) = words := by
  induction words with
  | nil => rfl
  | cons word words ih =>
    obtain ⟨first, each⟩ := List.forall_mem_cons.1 each
    have one := blankKind_of_isWord first
    cases words with
    | nil =>
      have alone : runs blankKind (word ++ []) = word :: runs blankKind [] :=
        runs_append first.nonempty one nofun
      rw [List.append_nil] at alone
      rw [List.intercalate_singleton, alone, runs]
    | cons next words =>
      have blank : blankKind ' ' = none := rfl
      have after : runs blankKind (' ' :: [' '].intercalate (next :: words)) = next :: words := by
        rw [runs_blank blank, ih each]
      rw [List.intercalate_cons_cons, List.append_assoc, List.singleton_append,
        runs_append first.nonempty one (by rintro d ⟨⟩; exact blank), after]

theorem infix_intercalate {word : List Char} {words : List (List Char)} (member : word ∈ words) :
    word <:+: [' '].intercalate words := by
  induction words with
  | nil => cases member
  | cons first words ih =>
    cases words with
    | nil =>
      obtain rfl := List.mem_singleton.1 member
      rw [List.intercalate_singleton]
    | cons next words =>
      rw [List.intercalate_cons_cons]
      rcases List.mem_cons.1 member with rfl | later
      · exact ((List.prefix_append word _).trans (List.prefix_append _ _)).isInfix
      · exact (ih later).trans (List.suffix_append _ _).isInfix

end TextCompletion.Tokenizer
