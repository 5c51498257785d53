import TextCompletion.Json.Shape
import TextCompletion.Proofs.Json.Records

/-!
A record that is made of a value. As with a record read from a text, what one member becomes is
settled by the last value of its name; a required member must be there, and an array may stop short
of members with a default only.
-/

namespace TextCompletion.Json

open Reader (From)

theorem lookup?_eq_none {members : List (String × Json)} {name : String} :
    lookup? members name = none ↔ name ∉ members.map Prod.fst := by
  simp only [lookup?, Option.map_eq_none_iff, List.find?_eq_none, List.mem_reverse, List.mem_map]
  constructor
  · rintro absent ⟨m, member, rfl⟩
    exact absent m member (beq_self_eq_true m.1)
  · intro absent m member same
    exact absent ⟨m, member, by simpa using same⟩

theorem lookup?_filterMap (names : List String) (value? : String → Option Json) (name : String) :
    lookup? (names.filterMap fun n => (value? n).map fun v => (n, v)) name =
      if name ∈ names then value? name else none := by
  induction names with
  | nil => rfl
  | cons n names ih =>
    by_cases same : n = name
    · subst same
      cases value : value? n with
      | none => simp [value, ih]
      | some v => by_cases later : n ∈ names <;> simp [value, lookup?_cons, ih, later]
    · have other : name ≠ n := fun h => same h.symm
      cases value : value? n with
      | none => simp [value, ih, other]
      | some v => simp [value, lookup?_cons_of_ne same, ih, other]

namespace Shape

theorem lookup?_sortedMembers (members : List (String × Json)) (name : String) :
    lookup? (sortedMembers members) name = lookup? members name := by
  rw [sortedMembers, lookup?_filterMap]
  by_cases present : name ∈ members.map Prod.fst
  · rw [if_pos (Text.mem_sortDistinct.2 present)]
  · rw [if_neg (mt Text.mem_sortDistinct.1 present), lookup?_eq_none.2 present]

/-- What an object has stays, and a key that it lacks gets the first default of this key. -/
theorem lookup?_withDefaults (defaults members : List (String × Json)) :
    ∃ more, withDefaults defaults (.object members) = .object more ∧
      ∀ name, lookup? more name = (lookup? members name).or (defaults.lookup name) := by
  refine ⟨_, rfl, fun name => ?_⟩
  induction defaults generalizing members with
  | nil => rw [List.foldl_nil, List.lookup_nil, Option.or_none]
  | cons d defaults ih =>
    obtain ⟨k, v⟩ := d
    rw [List.foldl_cons, ih, List.lookup_cons]
    by_cases same : name = k
    · subst same
      simp only [beq_self_eq_true]
      cases present : lookup? members name with
      | some w => simp [present]
      | none =>
        have last : lookup? [(name, v)] name = some v := by simp [lookup?]
        simp [present, lookup?_append, last]
    · have unseen : lookup? [(k, v)] name = none := by simpa [lookup?] using Ne.symm same
      simp only [beq_eq_false_iff_ne.2 same]
      split
      · rfl
      · rw [lookup?_append, unseen, Option.none_or]

variable {σ ω : Type}

/-- What is observed of a record is set by the member of this name and by no other one. -/
structure Observes (members : List (Member σ)) (name : String) (observe : σ → ω)
    (R : ω → Json → Prop) : Prop where
  listed : ∃ m ∈ members, m.name = name
  sets : ∀ m ∈ members, m.name = name → ∀ s v s', m.read s v = .ok s' → R (observe s') v
  keeps : ∀ m ∈ members, m.name ≠ name → ∀ s v s', m.read s v = .ok s' → observe s' = observe s

variable {members : List (Member σ)} {name : String} {observe : σ → ω} {R : ω → Json → Prop}
  {type : String} {s s' blank : σ}

theorem readMembers_observes (observes : Observes members name observe R)
    {present : List (String × Json)} (read : readMembers members s present = .ok s') :
    From R (observe s) (observe s') (lookup? present name) := by
  induction present generalizing s with
  | nil => exact congrArg observe (Except.ok.inj read).symm
  | cons entry rest ih =>
    obtain ⟨k, v⟩ := entry
    rw [readMembers] at read
    cases found : members.find? fun m => m.name == k with
    | none =>
      rw [found] at read
      have other : k ≠ name := by
        obtain ⟨m, member, rfl⟩ := observes.listed
        rintro rfl
        simpa using List.find?_eq_none.1 found m member
      rw [lookup?_cons_of_ne other]
      exact ih read
    | some m =>
      rw [found] at read
      have member := List.mem_of_find?_eq_some found
      have named : m.name = k := by simpa using List.find?_some found
      cases made : m.read s v with
      | error f => simp [made] at read
      | ok s₁ =>
        simp only [made] at read
        -- here a later member of the name counts, as it does in `lookup?`
        by_cases field : k = name
        · subst field
          have set := observes.sets m member named s v s₁ made
          have effect := ih read
          rw [lookup?_cons, if_pos rfl]
          cases later : lookup? rest k with
          | none =>
            rw [later] at effect
            exact effect.symm ▸ set
          | some w =>
            rw [later] at effect
            exact effect
        · have keep := observes.keeps m member (named ▸ field) s v s₁ made
          rw [lookup?_cons_of_ne field]
          exact keep ▸ ih read

theorem readElements_defaulted {total index : Nat} {items : List Json}
    (read : readElements type total members s index items = .ok s') :
    ∀ m ∈ members.drop items.length, m.presence = .defaulted := by
  induction members generalizing s index items with
  | nil => simp
  | cons m members ih =>
    cases items with
    | nil =>
      rw [readElements] at read
      split at read
      · next defaulted =>
        rw [List.length_nil, List.drop_zero, List.forall_mem_cons]
        exact ⟨defaulted, ih read⟩
      · simp at read
    | cons v items =>
      rw [readElements] at read
      split at read
      · exact ih read
      · simp at read

/-- A record made of a value: of an object whose member of the name settles what is observed and
that has all required members, or of an array that leaves out members with a default only. -/
theorem record_observes (observes : Observes members name observe R) {v : Json}
    (read : record type members blank v = .ok s) :
    (∃ items, v = .array items ∧ ∀ m ∈ members.drop items.length, m.presence = .defaulted) ∨
      ∃ present, v = .object present ∧
        From R (observe blank) (observe s) (lookup? present name) ∧
          ∀ m ∈ members, m.presence = .required → (lookup? present m.name).isSome = true := by
  cases v with
  | array items => exact .inl ⟨items, rfl, readElements_defaulted read⟩
  | object present =>
    refine .inr ⟨present, rfl, ?_⟩
    rw [record] at read
    cases made : readMembers members blank (sortedMembers present) with
    | error f => simp [made, bind, Except.bind] at read
    | ok s₁ =>
      cases missing : missing? members present with
      | some n => simp [made, missing, bind, Except.bind] at read
      | none =>
        obtain rfl : s₁ = s := by simpa [made, missing, bind, Except.bind] using read
        refine ⟨?_, ?_⟩
        · rw [← lookup?_sortedMembers]
          exact readMembers_observes observes made
        · intro m member required
          have present := List.find?_eq_none.1 (Option.map_eq_none_iff.1 missing) m member
          simpa [required, Option.isSome_iff_ne_none] using present
  | _ => simp [record] at read

end Shape
end TextCompletion.Json
