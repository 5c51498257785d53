import TextCompletion.Proofs.Json.Skipping

/-!
A record that is read field by field against the value that the same text holds. What one field of
the record becomes is settled by the member of that name alone, wherever it stands among the
others; a record in the form of an array has no more elements than fields.
-/

namespace TextCompletion.Json

theorem lookup?_cons (k : String) (v : Json) (rest : List (String × Json)) (name : String) :
    lookup? ((k, v) :: rest) name =
      (lookup? rest name).or (if k = name then some v else none) := by
  have last : lookup? [(k, v)] name = if k = name then some v else none := by
    by_cases same : k = name <;> simp [lookup?, same]
  rw [← List.singleton_append, lookup?_append, last]

theorem lookup?_cons_of_ne {k name : String} (other : k ≠ name) (v : Json)
    (rest : List (String × Json)) : lookup? ((k, v) :: rest) name = lookup? rest name := by
  rw [lookup?_cons, if_neg other, Option.or_none]

namespace Reader

variable {σ ω : Type}

/-- What is observed of a record is set by the field of this name, in a way that fits its value, and
by no other field. All fields agree with values of any kind. -/
structure Observes (schema : Schema σ) (depth : Nat) (name : String) (observe : σ → ω)
    (R : ω → Json → Prop) : Prop where
  listed : ∃ f ∈ schema.fields, f.name = name
  sets : ∀ f ∈ schema.fields, f.name = name →
    ∀ s, Agree (fun s' v => R (observe s') v) (f.read s) (value depth)
  keeps : ∀ f ∈ schema.fields, f.name ≠ name →
    ∀ s, Agree (fun s' _ => observe s' = observe s) (f.read s) (value depth)

/-- What is observed comes from the value of the member, or is as it was where there is none. -/
def From (R : ω → Json → Prop) (before after : ω) : Option Json → Prop
  | none => after = before
  | some v => R after v

theorem from_trans {R : ω → Json → Prop} {a b c : ω} {v w : Option Json} (first : From R a b v)
    (second : From R b c w) : From R a c (w.or v) := by
  cases w with
  | none =>
    obtain rfl : c = b := second
    exact first
  | some w => exact second

theorem eq_of_from {R : ω → Json → Prop} {a b : ω} {o : Option Json} (settled : From R a b o)
    (neutral : o.getD .null = .null) (null : R b .null → b = a) : b = a := by
  cases o with
  | none => exact settled
  | some v =>
    obtain rfl : v = .null := neutral
    exact null settled

variable {schema : Schema σ} {depth : Nat} {name : String} {observe : σ → ω} {R : ω → Json → Prop}

theorem Observes.aligned (observes : Observes schema depth name observe R) {f : Field σ}
    (member : f ∈ schema.fields) (s : σ) : Aligned (f.read s) (value depth) := by
  by_cases same : f.name = name
  · exact (observes.sets f member same s).aligned
  · exact (observes.keeps f member same s).aligned

theorem namedFields_observes (observes : Observes schema depth name observe R) {fuel : Nat}
    {first : Bool} {seen : List String} {s s' : σ} {ms : List (String × Json)} {c c₁ c₂ : Cursor}
    (read : namedFields schema fuel first seen s c = .ok s' c₁)
    (kept : membersFrom (value depth) fuel first c = .ok ms c₂) :
    c₁ = c₂ ∧ From R (observe s) (observe s') (lookup? ms name) ∧
      (name ∈ seen → lookup? ms name = none) := by
  induction fuel generalizing first seen s ms c with
  | zero => exact absurd read (fails_failHere _ _ _ _)
  | succ fuel ih =>
    obtain ⟨more, c', next, read⟩ := bind_eq_ok.1 read
    obtain ⟨more', c'', next', kept⟩ := bind_eq_ok.1 kept
    obtain ⟨rfl, rfl⟩ := Agree.same _ _ _ _ _ _ next next'
    cases more with
    | false =>
      obtain ⟨rfl, rfl⟩ := pure_eq_ok.1 kept
      simp only [Bool.false_eq_true, if_false] at read
      cases missing : schema.fields.find? fun f => f.required && !seen.contains f.name with
      | some f =>
        rw [missing] at read
        exact absurd read (fails_failUnplaced _ _ _ _)
      | none =>
        rw [missing] at read
        obtain ⟨rfl, rfl⟩ := pure_eq_ok.1 read
        exact ⟨rfl, rfl, fun _ => rfl⟩
    | true =>
      obtain ⟨k, d₁, key, read⟩ := bind_eq_ok.1 read
      obtain ⟨k', d₁', key', kept⟩ := bind_eq_ok.1 kept
      obtain ⟨rfl, rfl⟩ := Agree.same _ _ _ _ _ _ key key'
      obtain ⟨_, d₂, colon, kept⟩ := bind_eq_ok.1 kept
      obtain ⟨v, d₃, item, kept⟩ := bind_eq_ok.1 kept
      obtain ⟨rest, d₄, tail, kept⟩ := bind_eq_ok.1 kept
      obtain ⟨rfl, rfl⟩ := pure_eq_ok.1 kept
      cases found : schema.fields.find? fun f => f.name == k with
      | none =>
        rw [found] at read
        have other : k ≠ name := by
          obtain ⟨f, member, rfl⟩ := observes.listed
          rintro rfl
          simpa using List.find?_eq_none.1 found f member
        obtain ⟨_, d₂', colon', read⟩ := bind_eq_ok.1 read
        obtain ⟨rfl, -⟩ := Agree.same _ _ _ _ _ _ colon colon'
        obtain ⟨_, d₃', skipped, read⟩ := bind_eq_ok.1 read
        obtain ⟨rfl, -⟩ := skipValue_aligned depth _ _ _ _ _ skipped item
        rw [lookup?_cons_of_ne other]
        exact ih read tail
      | some f =>
        rw [found] at read
        have member := List.mem_of_find?_eq_some found
        have named : f.name = k := by simpa using List.find?_some found
        cases new : seen.contains k with
        | true =>
          simp only [new, if_true] at read
          exact absurd read (fails_failUnplaced _ _ _ _)
        | false =>
          simp only [new, Bool.false_eq_true, if_false] at read
          obtain ⟨_, d₂', colon', read⟩ := bind_eq_ok.1 read
          obtain ⟨rfl, -⟩ := Agree.same _ _ _ _ _ _ colon colon'
          obtain ⟨s₁, d₃', set, read⟩ := bind_eq_ok.1 read
          obtain ⟨rfl, -⟩ := observes.aligned member s _ _ _ _ _ set item
          obtain ⟨same, effect, once⟩ := ih read tail
          refine ⟨same, ?_⟩
          -- a field is read once, so no later member of the name replaces this value
          by_cases field : k = name
          · subst field
            have none := once List.mem_cons_self
            rw [none] at effect
            have set := (observes.sets f member named s _ _ _ _ _ set item).2
            rw [lookup?_cons, none, if_pos rfl]
            refine ⟨?_, fun twice => absurd twice (by simpa using new)⟩
            exact effect.symm ▸ set
          · have keep := (observes.keeps f member (named ▸ field) s _ _ _ _ _ set item).2
            rw [lookup?_cons_of_ne field]
            exact ⟨keep ▸ effect, fun twice => once (List.mem_cons_of_mem k twice)⟩

theorem positionalFields_length (observes : Observes schema depth name observe R)
    {fields : List (Field σ)} (member : ∀ f ∈ fields, f ∈ schema.fields) {index fuel : Nat}
    {s s' : σ} {items : List Json} {c c₁ c₂ c₃ : Cursor}
    (read : positionalFields schema fields index s c = .ok s' c₁)
    (closed : closeArray c₁ = .ok () c₂)
    (kept : elementsFrom (value depth) fuel (index == 0) c = .ok items c₃) :
    items.length ≤ fields.length := by
  induction fields generalizing index fuel s c c₃ items with
  | nil =>
    obtain ⟨-, rfl⟩ := pure_eq_ok.1 read
    obtain ⟨token, -⟩ := closeArray_eq_ok closed
    cases fuel with
    | zero => exact absurd kept (fails_failHere _ _ _ _)
    | succ fuel =>
      obtain ⟨more, c', next, kept⟩ := bind_eq_ok.1 kept
      rcases nextElement_eq_ok next with ⟨rfl, -⟩ | ⟨-, b, element, token', -⟩
      · obtain ⟨rfl, -⟩ := pure_eq_ok.1 kept
        exact Nat.le_refl _
      · exact absurd (Option.some.inj (token'.symm.trans token)) element
  | cons f fields ih =>
    cases fuel with
    | zero => exact absurd kept (fails_failHere _ _ _ _)
    | succ fuel =>
      obtain ⟨more, c', next, read⟩ := bind_eq_ok.1 read
      obtain ⟨more', c'', next', kept⟩ := bind_eq_ok.1 kept
      obtain ⟨rfl, rfl⟩ := Agree.same _ _ _ _ _ _ next next'
      cases more with
      | false =>
        obtain ⟨rfl, -⟩ := pure_eq_ok.1 kept
        exact Nat.zero_le _
      | true =>
        obtain ⟨s₁, d₁, set, read⟩ := bind_eq_ok.1 read
        obtain ⟨v, d₁', item, kept⟩ := bind_eq_ok.1 kept
        obtain ⟨rest, d₂, tail, kept⟩ := bind_eq_ok.1 kept
        obtain ⟨rfl, -⟩ := pure_eq_ok.1 kept
        obtain ⟨rfl, -⟩ := observes.aligned (member f List.mem_cons_self) s _ _ _ _ _ set item
        have later : (index + 1 == 0) = false := rfl
        have shorter := ih (fun g h => member g (List.mem_cons_of_mem f h)) read (later ▸ tail)
        exact Nat.succ_le_succ shorter

/-- A record against the whole value: an object whose member of the name settles what is observed,
or an array with no more elements than fields. -/
theorem record_observes (observes : Observes schema depth name observe R) {s : σ} {v : Json}
    {c c₁ c₂ : Cursor} (read : record schema c = .ok s c₁)
    (kept : value (depth + 1) c = .ok v c₂) :
    (∃ items, v = .array items ∧ items.length ≤ schema.fields.length) ∨
      ∃ ms, v = .object ms ∧
        From R (observe schema.blank) (observe s) (lookup? ms name) := by
  obtain ⟨token, c', peeked, read⟩ := bind_eq_ok.1 read
  obtain ⟨token', c'', peeked', kept⟩ := bind_eq_ok.1 kept
  obtain ⟨rfl, rfl⟩ := Agree.same _ _ _ _ _ _ peeked peeked'
  split at read
  · exact absurd read (fails_failNext _ _ _ _)
  · obtain ⟨_, c₃, moved, read⟩ := bind_eq_ok.1 read
    obtain ⟨_, c₃', moved', kept⟩ := bind_eq_ok.1 kept
    obtain ⟨rfl, -⟩ := Agree.same _ _ _ _ _ _ moved moved'
    obtain ⟨items, c₄, body, kept⟩ := bind_eq_ok.1 kept
    obtain ⟨rfl, -⟩ := pure_eq_ok.1 kept
    obtain ⟨c₅, fields, closed⟩ := closedBy_eq_ok.1 read
    obtain ⟨c₅', elements, closed'⟩ := closedBy_eq_ok.1 body
    obtain ⟨fuel, c₆, counted, elements⟩ := bind_eq_ok.1 elements
    obtain ⟨-, rfl⟩ := budget_eq_ok.1 counted
    exact .inl ⟨items, rfl, positionalFields_length observes (fun _ h => h) fields closed elements⟩
  · obtain ⟨_, c₃, moved, read⟩ := bind_eq_ok.1 read
    obtain ⟨_, c₃', moved', kept⟩ := bind_eq_ok.1 kept
    obtain ⟨rfl, -⟩ := Agree.same _ _ _ _ _ _ moved moved'
    obtain ⟨ms, c₄, body, kept⟩ := bind_eq_ok.1 kept
    obtain ⟨rfl, -⟩ := pure_eq_ok.1 kept
    obtain ⟨c₅, fields, closed⟩ := closedBy_eq_ok.1 read
    obtain ⟨c₅', members, closed'⟩ := closedBy_eq_ok.1 body
    obtain ⟨fuel, c₆, counted, fields⟩ := bind_eq_ok.1 fields
    obtain ⟨fuel', c₆', counted', members⟩ := bind_eq_ok.1 members
    obtain ⟨rfl, rfl⟩ := Agree.same _ _ _ _ _ _ counted counted'
    exact .inr ⟨ms, rfl, (namedFields_observes observes fields members).2.1⟩
  · exact absurd read (fails_wrongType _ _ _ _)

theorem run_eq_ok {α : Type} {r : Reader α} {bytes : List UInt8} {a : α}
    (ok : run r bytes = .ok a) : ∃ c, r (Cursor.start bytes) = .ok a c := by
  unfold run at ok
  split at ok
  · next x c whole =>
    obtain rfl := Except.ok.inj ok
    obtain ⟨y, c₁, read, rest⟩ := bind_eq_ok.1 whole
    obtain ⟨token, c₂, peeked, rest⟩ := bind_eq_ok.1 rest
    split at rest
    · obtain ⟨rfl, -⟩ := pure_eq_ok.1 rest
      exact ⟨c₁, read⟩
    · exact absurd rest (fails_failNext _ _ _ _)
  · simp at ok

theorem run_record_observes (observes : Observes schema depth name observe R) {s : σ} {v : Json}
    {bytes : List UInt8} (read : run (record schema) bytes = .ok s)
    (kept : run (value (depth + 1)) bytes = .ok v) :
    (∃ items, v = .array items ∧ items.length ≤ schema.fields.length) ∨
      ∃ ms, v = .object ms ∧
        From R (observe schema.blank) (observe s) (lookup? ms name) := by
  obtain ⟨c₁, read⟩ := run_eq_ok read
  obtain ⟨c₂, kept⟩ := run_eq_ok kept
  exact record_observes observes read kept

end Reader
end TextCompletion.Json
