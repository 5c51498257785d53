import TextCompletion.ModelConfig
import Mathlib.Data.List.Nodup

/-!
The end tokens of two documents merged. Ids are taken one by one, and one that is there already is
left out, so what is gathered are the ids seen so far in the order of their first occurrence. Main
statement: the merged list is that of all ids stated, whatever form they are stated in, and merging
it again changes nothing.
-/

namespace TextCompletion

/-- The elements of a list, each once, in the order of their first occurrence. -/
structure FirstSeen (source ids : List Nat) : Prop where
  mem_iff : ∀ id, id ∈ ids ↔ id ∈ source
  ordered : ids.Pairwise fun a b => source.idxOf a < source.idxOf b

namespace FirstSeen

variable {source ids : List Nat}

theorem nil : FirstSeen [] [] := ⟨fun _ => Iff.rfl, List.Pairwise.nil⟩

theorem nodup (seen : FirstSeen source ids) : ids.Nodup := by
  refine List.Pairwise.imp ?_ seen.ordered
  rintro a b less rfl
  exact Nat.lt_irrefl _ less

theorem ordered_append (seen : FirstSeen source ids) (more : List Nat) :
    ids.Pairwise fun a b => (source ++ more).idxOf a < (source ++ more).idxOf b := by
  refine List.Pairwise.imp_of_mem ?_ seen.ordered
  intro a b first second less
  rwa [List.idxOf_append_of_mem ((seen.mem_iff a).1 first),
    List.idxOf_append_of_mem ((seen.mem_iff b).1 second)]

theorem known (seen : FirstSeen source ids) {id : Nat} (before : id ∈ source) :
    FirstSeen (source ++ [id]) ids := by
  refine ⟨fun other => ?_, seen.ordered_append [id]⟩
  rw [seen.mem_iff, List.mem_append, List.mem_singleton]
  constructor
  · exact Or.inl
  · rintro (there | rfl)
    · exact there
    · exact before

theorem concat (seen : FirstSeen source ids) {id : Nat} (new : id ∉ source) :
    FirstSeen (source ++ [id]) (ids ++ [id]) := by
  refine ⟨fun other => ?_, ?_⟩
  · rw [List.mem_append, List.mem_append, seen.mem_iff]
  · refine List.pairwise_append.2 ⟨seen.ordered_append [id], List.pairwise_singleton _ id, ?_⟩
    intro a first b last
    obtain rfl : b = id := List.mem_singleton.1 last
    have earlier : a ∈ source := (seen.mem_iff a).1 first
    rw [List.idxOf_append_of_mem earlier, List.idxOf_append_of_notMem new]
    exact Nat.lt_of_lt_of_le (List.idxOf_lt_length_of_mem earlier) (Nat.le_add_right _ _)

end FirstSeen

namespace ModelConfig

variable {source ids more : List Nat} {id : Nat}

theorem appendNew_cons (ids more : List Nat) (id : Nat) :
    appendNew ids (id :: more) = appendNew (appendNew ids [id]) more := rfl

theorem appendNew_append (ids more rest : List Nat) :
    appendNew ids (more ++ rest) = appendNew (appendNew ids more) rest :=
  List.foldl_append

theorem appendNew_of_mem (known : id ∈ ids) : appendNew ids [id] = ids := by
  simp [appendNew, known]

theorem appendNew_of_notMem (new : id ∉ ids) : appendNew ids [id] = ids ++ [id] := by
  simp [appendNew, new]

theorem prefix_appendNew (ids more : List Nat) : ids <+: appendNew ids more := by
  induction more generalizing ids with
  | nil => exact List.prefix_refl ids
  | cons id more ih =>
    rw [appendNew_cons]
    by_cases known : id ∈ ids
    · rw [appendNew_of_mem known]
      exact ih ids
    · rw [appendNew_of_notMem known]
      exact (List.prefix_append ids [id]).trans (ih (ids ++ [id]))

theorem appendNew_of_subset (known : ∀ id ∈ more, id ∈ ids) : appendNew ids more = ids := by
  induction more with
  | nil => rfl
  | cons id more ih =>
    rw [appendNew_cons, appendNew_of_mem (known id List.mem_cons_self)]
    exact ih fun other member => known other (List.mem_cons_of_mem id member)

theorem appendNew_of_nodup (new : (ids ++ more).Nodup) : appendNew ids more = ids ++ more := by
  induction more generalizing ids with
  | nil => rw [List.append_nil]; rfl
  | cons id more ih =>
    have unseen : id ∉ ids := by
      intro known
      exact (List.nodup_append.1 new).2.2 id known id List.mem_cons_self rfl
    rw [List.append_cons] at new ⊢
    rw [appendNew_cons, appendNew_of_notMem unseen, ih new]

theorem firstSeen_appendNew_singleton (seen : FirstSeen source ids) (id : Nat) :
    FirstSeen (source ++ [id]) (appendNew ids [id]) := by
  by_cases known : id ∈ ids
  · rw [appendNew_of_mem known]
    exact seen.known ((seen.mem_iff id).1 known)
  · rw [appendNew_of_notMem known]
    exact seen.concat (mt (seen.mem_iff id).2 known)

theorem firstSeen_appendNew (seen : FirstSeen source ids) (more : List Nat) :
    FirstSeen (source ++ more) (appendNew ids more) := by
  induction more generalizing source ids with
  | nil => rwa [List.append_nil]
  | cons id more ih =>
    rw [List.append_cons, appendNew_cons]
    exact ih (firstSeen_appendNew_singleton seen id)

/-- What was gathered from some ids on adds nothing new to them when it is appended as a whole. -/
theorem appendNew_appendNew (seen : FirstSeen source ids) (more : List Nat) :
    appendNew ids (appendNew ids more) = appendNew ids more := by
  obtain ⟨rest, whole⟩ := prefix_appendNew ids more
  have gathered : (ids ++ rest).Nodup := whole ▸ (firstSeen_appendNew seen more).nodup
  calc appendNew ids (appendNew ids more)
      = appendNew (appendNew ids ids) rest := by rw [← whole, appendNew_append]
    _ = appendNew ids rest := by rw [appendNew_of_subset fun _ known => known]
    _ = appendNew ids more := by rw [appendNew_of_nodup gathered, whole]

def listed (ids : Option TokenIds) : List Nat := (ids.map TokenIds.toList).getD []

variable (c : ModelConfig) (g : Option GenerationConfig)

theorem stopTokens_eq :
    c.stopTokens g = appendNew (c.stopTokens none) (listed (g.bind (·.eosTokenId))) := by
  have alone : c.stopTokens none = appendNew [] (listed c.eosTokenId) :=
    congrArg (appendNew []) (List.append_nil _)
  rw [alone, ← appendNew_append]
  rfl

theorem firstSeen_stopTokens :
    FirstSeen (listed c.eosTokenId ++ listed (g.bind (·.eosTokenId))) (c.stopTokens g) :=
  firstSeen_appendNew FirstSeen.nil _

/-- The end tokens are the ids of both documents, each once and in the order of their first
occurrence. Those of the model configuration alone come first, one id means the same alone and in a
list, and the merged ids may stand in the place of those of the generation configuration. -/
theorem stopTokens_merges :
    (c.stopTokens g).Nodup ∧
      (∀ id, id ∈ c.stopTokens g ↔
        id ∈ listed c.eosTokenId ∨ id ∈ listed (g.bind (·.eosTokenId))) ∧
      ((c.stopTokens g).Pairwise fun a b =>
        (listed c.eosTokenId ++ listed (g.bind (·.eosTokenId))).idxOf a <
          (listed c.eosTokenId ++ listed (g.bind (·.eosTokenId))).idxOf b) ∧
      c.stopTokens none <+: c.stopTokens g ∧
      (∀ id, { c with eosTokenId := some (.one id) }.stopTokens g =
        { c with eosTokenId := some (.many [id]) }.stopTokens g) ∧
      (∀ id start, c.stopTokens (some ⟨some (.one id), start⟩) =
        c.stopTokens (some ⟨some (.many [id]), start⟩)) ∧
      ∀ start, c.stopTokens (some ⟨some (.many (c.stopTokens g)), start⟩) = c.stopTokens g := by
  have seen := firstSeen_stopTokens c g
  refine ⟨seen.nodup, fun id => ?_, seen.ordered, ?_, fun id => rfl, fun id start => rfl,
    fun start => ?_⟩
  · rw [seen.mem_iff, List.mem_append]
  · rw [stopTokens_eq c g]
    exact prefix_appendNew _ _
  · rw [stopTokens_eq c (some _)]
    change appendNew (c.stopTokens none) (c.stopTokens g) = c.stopTokens g
    rw [stopTokens_eq c g]
    exact appendNew_appendNew (firstSeen_stopTokens c none) _

end ModelConfig
end TextCompletion
