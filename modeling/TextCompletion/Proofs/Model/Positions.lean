import TextCompletion.Model.Settings
import TextCompletion.Proofs.Json.Shapes

/-!
The number of positions in `config.json` as two readers see it: the one that settles how the model
is loaded, and the one of the model's family. Main statement: where the first reader finds a
number, the second one has the same, and every family but two insists on one.
-/

namespace TextCompletion

open Json

def positionsName : String := "max_position_embeddings"

namespace ModelConfig

open Json.Reader

theorem tokenIds_aligned : Aligned tokenIds innerValue := by
  intro c a c₁ v c₂ left right
  obtain ⟨w, c', read, left⟩ := Reader.bind_eq_ok.1 left
  obtain ⟨rfl, rfl⟩ := Agree.same _ _ _ _ _ _ read right
  cases ids : TokenIds.ofJson? w with
  | some ids' =>
    rw [ids] at left
    obtain ⟨-, rfl⟩ := pure_eq_ok.1 left
    exact ⟨rfl, trivial⟩
  | none =>
    rw [ids] at left
    exact absurd left (fails_failUnplaced _ _ _ _)

theorem keeps_positions {α : Type} {r : Reader α} (aligned : Aligned r innerValue)
    {set : ModelConfig → α → ModelConfig}
    (keep : ∀ c a, (set c a).maxPositionEmbeddings = c.maxPositionEmbeddings) (c : ModelConfig) :
    Agree (fun c' _ => c'.maxPositionEmbeddings = c.maxPositionEmbeddings)
      (do pure (set c (← r))) innerValue :=
  aligned.map_left fun a _ _ => keep c a

theorem sets_positions (c : ModelConfig) :
    Agree (fun c' v => OrNull (Bounded Decimal.wordBound "usize") c'.maxPositionEmbeddings v)
      (do pure { c with maxPositionEmbeddings := ← optional count }) innerValue :=
  (optional_agree (natural_agree _ _ _)).map_left fun _ _ related => related

theorem schema_observes :
    Observes schema (maxDepth - 1) positionsName (·.maxPositionEmbeddings)
      (OrNull (Bounded Decimal.wordBound "usize")) := by
  have flag : Aligned truthy innerValue := (Agree.same innerValue).map_left fun _ _ _ => trivial
  have string : Aligned (optional text) innerValue := (optional_agree (text_agree _)).aligned
  have strings : Aligned (list text) innerValue :=
    list_aligned (fun depth => (text_agree depth).aligned) _
  have tokens : Aligned (optional tokenIds) innerValue :=
    (optional_agree tokenIds_aligned).aligned
  have token : Aligned (optional tokenId) innerValue :=
    (optional_agree (natural_agree _ _ _)).aligned
  refine ⟨⟨_, List.mem_of_getElem? (i := 6) rfl, rfl⟩, ?_, ?_⟩
  · simp only [schema, List.forall_mem_cons, positionsName]
    simp only [String.reduceEq, false_implies, true_implies, true_and, List.not_mem_nil,
      implies_true, and_true]
    exact sets_positions
  · simp only [schema, List.forall_mem_cons, positionsName]
    simp only [ne_eq, String.reduceEq, not_false_eq_true, not_true_eq_false, false_implies,
      true_implies, List.not_mem_nil, implies_true, and_true]
    exact ⟨keeps_positions flag fun _ _ => rfl, keeps_positions string fun _ _ => rfl,
      keeps_positions strings fun _ _ => rfl, keeps_positions tokens fun _ _ => rfl,
      keeps_positions token fun _ _ => rfl, keeps_positions token fun _ _ => rfl⟩

end ModelConfig

namespace Settings

def ofFamily : Family → Form
  | .causal f => ofCausal f
  | .seq2Seq f => ofSeq2Seq f

/-- A member sets the number of positions if it is the one for it, and leaves it otherwise. -/
def Settles (m : Field) : Prop :=
  ∀ h v h', m.read h v = .ok h' →
    if m.name = positionsName then Shape.count v = .ok h'.positions else h'.positions = h.positions

variable {α : Type} {name : String} {shape : Shape α}

theorem map_eq_ok {β : Type} {g : α → β} {x : Except FaultKind α} {b : β} :
    g <$> x = .ok b ↔ ∃ a, x = .ok a ∧ g a = b := by
  cases x <;> simp [Functor.map, Except.map]

theorem settles_required {set : Hyperparameters → α → Hyperparameters}
    (other : name ≠ positionsName) (keep : ∀ h a, (set h a).positions = h.positions) :
    Settles (.required name shape set) := by
  intro h v h' read
  obtain ⟨a, -, rfl⟩ := map_eq_ok.1 read
  exact (if_neg other).mpr (keep h a)

theorem settles_positionsField : Settles positionsField := by
  intro h v h' read
  obtain ⟨n, count, rfl⟩ := map_eq_ok.1 read
  exact count

-- What stands in for an absent member has no part in `Settles`, so a required one speaks for all.
theorem settles_fields (f : Family) : ∀ m ∈ (ofFamily f).fields, Settles m := by
  rcases f with f | f <;> cases f <;>
    (repeat' refine List.forall_mem_cons.2 ⟨?_, ?_⟩) <;>
    first
    | exact fun _ member => absurd member List.not_mem_nil
    | exact settles_positionsField
    | exact settles_required (by simp [positionsName]) fun _ _ => rfl

def HasTable (f : Family) : Prop := f ≠ .seq2Seq .t5

instance (f : Family) : Decidable (HasTable f) := inferInstanceAs (Decidable (f ≠ .seq2Seq .t5))

/-- The families that do not insist on a number of positions. -/
def HasDefault (f : Family) : Prop := f = .causal .gemma ∨ f = .causal .gemma2

theorem positions_listed {f : Family} (table : HasTable f) :
    positionsField ∈ (ofFamily f).fields ∨
      HasDefault f ∧ defaultedPositionsField ∈ (ofFamily f).fields := by
  rcases f with f | f
  · cases f with
    | gemma => exact .inr ⟨.inl rfl, by simp [ofFamily, ofCausal, gemmaFields]⟩
    | gemma2 => exact .inr ⟨.inr rfl, by simp [ofFamily, ofCausal, gemma2Fields]⟩
    | _ =>
      exact .inl (by simp [ofFamily, ofCausal, llamaFields, mistralFields, mixtralFields,
        phiFields, phi3Fields, qwen2Fields, qwen3Fields, stableLmFields, starcoder2Fields])
  · cases f with
    | t5 => exact absurd rfl table
    | marian => exact .inl (by simp [ofFamily, ofSeq2Seq, marianFields])

theorem fields_observes {f : Family} (table : HasTable f) :
    Shape.Observes (ofFamily f).fields positionsName (·.positions)
      (fun n v => Shape.count v = .ok n) where
  listed := by
    rcases positions_listed table with listed | ⟨-, listed⟩
    · exact ⟨_, listed, rfl⟩
    · exact ⟨_, listed, rfl⟩
  sets m member named h v h' read := by
    simpa [named] using settles_fields f m member h v h' read
  keeps m member other h v h' read := by
    simpa [other] using settles_fields f m member h v h' read

/-- No family's settings fit into an array as short as that of the other reader. -/
theorem fields_beyond (f : Family) :
    ∃ m ∈ (ofFamily f).fields.drop ModelConfig.schema.fields.length, m.presence ≠ .defaulted := by
  rcases f with f | f <;> cases f <;> decide

theorem defaults_other (f : Family) : ∀ d ∈ (ofFamily f).defaults, d.1 ≠ positionsName := by
  rcases f with f | f <;> cases f <;> simp [ofFamily, ofCausal, ofSeq2Seq, positionsName]

theorem count_of_bounded {n : Nat} {v : Json}
    (bounded : Reader.Bounded Decimal.wordBound "usize" n v) : Shape.count v = .ok n := by
  obtain ⟨m, rfl, fits⟩ := bounded
  exact fits

variable {f : Family} {c : ModelConfig} {h : Hyperparameters} {bytes : List UInt8} {document : Json}

/-- Both readers on one document: they find the same number of positions or both find none, and a
family without a number of its own finds one. -/
theorem positions_agree (table : HasTable f)
    (configured : Reader.run (Reader.record ModelConfig.schema) bytes = .ok c)
    (kept : Reader.run (Reader.value maxDepth) bytes = .ok document)
    (settings : (ofFamily f).read document = .ok h) :
    h.positions = c.maxPositionEmbeddings.getD (ofFamily f).blank.positions ∧
      (¬HasDefault f → c.maxPositionEmbeddings.isSome = true) := by
  -- an array that is short enough for one reader leaves out what the other insists on
  rcases Reader.run_record_observes ModelConfig.schema_observes configured kept with
    ⟨items, rfl, short⟩ | ⟨members, rfl, first⟩
  · rcases Shape.record_observes (fields_observes table) settings with
      ⟨items', same, defaulted⟩ | ⟨_, absurd, -⟩
    · obtain rfl : items = items' := by simpa [withDefaults] using same
      obtain ⟨m, member, other⟩ := fields_beyond f
      exact absurd (defaulted m (List.drop_subset_drop_left _ short member)) other
    · simp [withDefaults] at absurd
  · obtain ⟨more, completed, filled⟩ := Shape.lookup?_withDefaults (ofFamily f).defaults members
    have unseen : lookup? more positionsName = lookup? members positionsName := by
      rw [filled, List.lookup_eq_none_iff.2 fun d listed => by
        simpa using (defaults_other f d listed).symm, Option.or_none]
    rw [Form.read, completed] at settings
    rcases Shape.record_observes (fields_observes table) settings with
      ⟨_, absurd, -⟩ | ⟨present, same, second, required⟩
    · simp at absurd
    · obtain rfl : more = present := by simpa using same
      rw [unseen] at second
      cases stated : lookup? members positionsName with
      | none =>
        rw [stated] at first second
        have none : c.maxPositionEmbeddings = none := first
        refine ⟨by rw [none]; exact second, fun insists => ?_⟩
        rcases positions_listed table with listed | ⟨default, -⟩
        · have found := required positionsField listed rfl
          have name : positionsField.name = positionsName := rfl
          simp [name, unseen, stated] at found
        · exact absurd default insists
      | some v =>
        rw [stated] at first second
        cases positions : c.maxPositionEmbeddings with
        | none =>
          have first : Reader.OrNull _ c.maxPositionEmbeddings v := first
          rw [positions] at first
          obtain rfl : v = .null := first
          simp [Reader.From, Shape.count, Shape.natural] at second
        | some n =>
          have first : Reader.OrNull _ c.maxPositionEmbeddings v := first
          rw [positions] at first
          have same : Except.ok n = Except.ok h.positions :=
            (count_of_bounded first).symm.trans second
          exact ⟨(Except.ok.inj same).symm, fun _ => rfl⟩

end Settings
end TextCompletion
