import Mathlib.Data.List.Forall2
import TextCompletion.Proofs.Json.Agreement

/-!
A reader that follows the reader for values of any kind: wherever that one takes a value, it stops
at the same place with what it makes of the value. Main statements: values are read alike however
deep a reader may go, and texts, `null` and lists are read by their own readers as they are read as
values.
-/

namespace TextCompletion

namespace Json

/-- The kind of a value is told by its first byte. -/
inductive Starts : UInt8 → Json → Prop
  | null : Starts 110 .null
  | true : Starts 116 (.boolean true)
  | false : Starts 102 (.boolean false)
  | number (b : UInt8) (x : Number) : Starts b (.number x)
  | string (s : String) : Starts 34 (.string s)
  | array (items : List Json) : Starts 91 (.array items)
  | object (members : List (String × Json)) : Starts 123 (.object members)

namespace Reader

variable {α β : Type} {R : α → β → Prop} {r : Reader α} {r' : Reader β} {c c₁ : Cursor} {v : Json}
  {depth : Nat} {b : UInt8}

theorem eq_of_passed {γ δ : Type} {first : Reader γ} {second : Reader δ} {a a' : α}
    (read : (do let _ ← first; let _ ← second; pure a) c = .ok a' c₁) : a' = a := by
  obtain ⟨_, _, -, read⟩ := bind_eq_ok.1 read
  obtain ⟨_, _, -, read⟩ := bind_eq_ok.1 read
  exact (pure_eq_ok.1 read).1.symm

theorem starts_of_scalar (read : scalar b c = .ok v c₁) : Starts b v := by
  unfold scalar at read
  split at read
  · next first =>
    obtain rfl := eq_of_passed read
    exact first ▸ .null
  split at read
  · next first =>
    obtain rfl := eq_of_passed read
    exact first ▸ .true
  split at read
  · next first =>
    obtain rfl := eq_of_passed read
    exact first ▸ .false
  split at read
  · obtain ⟨_, _, -, read⟩ := bind_eq_ok.1 read
    obtain ⟨x, _, -, read⟩ := bind_eq_ok.1 read
    obtain ⟨rfl, -⟩ := pure_eq_ok.1 read
    exact .number b x
  split at read
  · obtain ⟨x, _, -, read⟩ := bind_eq_ok.1 read
    obtain ⟨rfl, -⟩ := pure_eq_ok.1 read
    exact .number b x
  split at read
  · next first =>
    obtain ⟨_, _, -, read⟩ := bind_eq_ok.1 read
    obtain ⟨s, _, -, read⟩ := bind_eq_ok.1 read
    obtain ⟨rfl, -⟩ := pure_eq_ok.1 read
    exact first ▸ .string s
  · exact absurd read (fails_failNext _ _ _ _)

theorem starts_of_valueAt (read : valueAt depth b c = .ok v c₁) : Starts b v := by
  rw [valueAt] at read
  split at read
  · next bracket =>
    cases depth with
    | zero => exact absurd read (fails_failNext _ _ _ _)
    | succ depth =>
      obtain ⟨_, _, -, read⟩ := bind_eq_ok.1 read
      split at read
      · next first =>
        obtain ⟨items, _, -, read⟩ := bind_eq_ok.1 read
        obtain ⟨rfl, -⟩ := pure_eq_ok.1 read
        exact first ▸ .array items
      · next other =>
        obtain ⟨members, _, -, read⟩ := bind_eq_ok.1 read
        obtain ⟨rfl, -⟩ := pure_eq_ok.1 read
        exact bracket.resolve_left other ▸ .object members
  · exact starts_of_scalar read

theorem exists_valueAt (read : value depth c = .ok v c₁) : ∃ b, c.skipBlank.peek? = some b ∧
    Starts b v ∧ valueAt depth b c.skipBlank = .ok v c₁ := by
  rw [value_eq] at read
  obtain ⟨token, c', peeked, read⟩ := bind_eq_ok.1 read
  obtain ⟨next, rfl⟩ := peekToken_eq_ok.1 peeked
  cases token with
  | none => exact absurd read (fails_failNext _ _ _ _)
  | some b => exact ⟨b, next, starts_of_valueAt read, read⟩

theorem value_of_peek (next : c.skipBlank.peek? = some b) :
    value depth c = valueAt depth b c.skipBlank := by
  rw [value_eq, peekToken_bind next]

/-- Wherever the second reader succeeds, the first one stops at the same place with whatever is
related to its value. -/
def Follows (R : α → β → Prop) (r : Reader α) (r' : Reader β) : Prop :=
  ∀ c a b c₁, R a b → r' c = .ok b c₁ → r c = .ok a c₁

theorem Follows.closedBy (close : Reader Unit) (follows : Follows R r r') :
    Follows R (Reader.closedBy close r) (Reader.closedBy close r') := by
  intro c a b c₂ related read
  obtain ⟨c₁, body, closed⟩ := closedBy_eq_ok.1 read
  exact closedBy_eq_ok.2 ⟨c₁, follows c a b c₁ related body, closed⟩

theorem elementsFrom_follows (follows : Follows R r r') (fuel : Nat) (first : Bool) :
    Follows (List.Forall₂ R) (elementsFrom r fuel first) (elementsFrom r' fuel first) := by
  induction fuel generalizing first with
  | zero => exact fun c _ b c₁ _ read => absurd read (fails_failHere _ _ _ _)
  | succ fuel ih =>
    intro c as bs c₁ related read
    obtain ⟨more, c', next, read⟩ := bind_eq_ok.1 read
    refine (bind_of_ok next).trans ?_
    cases more with
    | false =>
      obtain ⟨rfl, rfl⟩ := pure_eq_ok.1 read
      cases related
      rfl
    | true =>
      obtain ⟨b, c₂, item, read⟩ := bind_eq_ok.1 read
      obtain ⟨rest, c₃, tail, read⟩ := bind_eq_ok.1 read
      obtain ⟨rfl, rfl⟩ := pure_eq_ok.1 read
      cases related with
      | cons head others =>
        exact (bind_of_ok (follows _ _ _ _ head item)).trans
          (bind_of_ok (ih false _ _ _ _ others tail))

theorem elements_follows (follows : Follows R r r') :
    Follows (List.Forall₂ R) (elements r) (elements r') := by
  intro c as bs c₁ related read
  obtain ⟨fuel, c', counted, read⟩ := bind_eq_ok.1 read
  exact (bind_of_ok counted).trans (elementsFrom_follows follows fuel true _ _ _ _ related read)

theorem membersFrom_follows {item item' : Reader Json} (follows : Follows Eq item item')
    (fuel : Nat) (first : Bool) :
    Follows Eq (membersFrom item fuel first) (membersFrom item' fuel first) := by
  induction fuel generalizing first with
  | zero => exact fun c _ b c₁ _ read => absurd read (fails_failHere _ _ _ _)
  | succ fuel ih =>
    rintro c ms _ c₁ rfl read
    obtain ⟨more, c', next, read⟩ := bind_eq_ok.1 read
    refine (bind_of_ok next).trans ?_
    cases more with
    | false => exact read
    | true =>
      obtain ⟨k, c₂, named, read⟩ := bind_eq_ok.1 read
      obtain ⟨_, c₃, parted, read⟩ := bind_eq_ok.1 read
      obtain ⟨v, c₄, kept, read⟩ := bind_eq_ok.1 read
      obtain ⟨rest, c₅, tail, read⟩ := bind_eq_ok.1 read
      obtain ⟨rfl, rfl⟩ := pure_eq_ok.1 read
      exact (bind_of_ok named).trans ((bind_of_ok parted).trans
        ((bind_of_ok (follows _ _ _ _ rfl kept)).trans
          (bind_of_ok (ih false _ _ _ _ rfl tail))))

theorem members_follows {item item' : Reader Json} (follows : Follows Eq item item') :
    Follows Eq (do membersFrom item (← budget) true) (do membersFrom item' (← budget) true) := by
  rintro c ms _ c₁ rfl read
  obtain ⟨fuel, c', counted, read⟩ := bind_eq_ok.1 read
  exact (bind_of_ok counted).trans (membersFrom_follows follows fuel true _ _ _ _ rfl read)

/-- What is read is read by a reader that may go deeper. -/
theorem value_follows_succ (depth : Nat) : Follows Eq (value (depth + 1)) (value depth) := by
  induction depth with
  | zero =>
    rintro c v _ c₁ rfl read
    obtain ⟨b, next, -, read⟩ := exists_valueAt read
    rw [value_of_peek next]
    rw [valueAt] at read ⊢
    split at read
    · exact absurd read (fails_failNext _ _ _ _)
    · next scalar => exact (if_neg scalar).symm ▸ read
  | succ depth ih =>
    rintro c v _ c₁ rfl read
    obtain ⟨b, next, -, read⟩ := exists_valueAt read
    rw [value_of_peek next]
    rw [valueAt] at read ⊢
    split at read
    · next bracket =>
      rw [if_pos bracket]
      obtain ⟨_, c₂, moved, read⟩ := bind_eq_ok.1 read
      refine (bind_of_ok moved).trans ?_
      split at read
      · next array =>
        rw [if_pos array]
        obtain ⟨items, c₃, body, read⟩ := bind_eq_ok.1 read
        refine (bind_of_ok ?_).trans read
        exact (elements_follows ih).closedBy closeArray _ _ _ _
          (List.forall₂_eq_eq_eq ▸ rfl) body
      · next object =>
        rw [if_neg object]
        obtain ⟨members, c₃, body, read⟩ := bind_eq_ok.1 read
        refine (bind_of_ok ?_).trans read
        exact (members_follows ih).closedBy closeObject _ _ _ _ rfl body
    · next scalar => exact (if_neg scalar).symm ▸ read

theorem text_of_value {s : String} (read : value depth c = .ok (.string s) c₁) :
    text c = .ok s c₁ := by
  obtain ⟨b, next, starts, read⟩ := exists_valueAt read
  cases starts
  obtain ⟨_, c₂, moved, read⟩ := bind_eq_ok.1 read
  obtain ⟨s', c₃, told, read⟩ := bind_eq_ok.1 read
  obtain ⟨same, rfl⟩ := pure_eq_ok.1 read
  obtain rfl := Json.string.inj same
  exact (peekToken_bind next).trans ((bind_of_ok moved).trans told)

theorem optional_of_null (read : value depth c = .ok .null c₁) :
    optional r c = .ok none c₁ := by
  obtain ⟨b, next, starts, read⟩ := exists_valueAt read
  cases starts
  obtain ⟨_, c₂, moved, read⟩ := bind_eq_ok.1 read
  obtain ⟨_, c₃, spelled, read⟩ := bind_eq_ok.1 read
  obtain ⟨-, rfl⟩ := pure_eq_ok.1 read
  exact (peekToken_bind next).trans ((bind_of_ok moved).trans (bind_of_ok spelled))

theorem list_of_array {R : α → Json → Prop} {as : List α} {items : List Json}
    (follows : ∀ depth', depth = depth' + 1 → Follows R r (value depth'))
    (related : List.Forall₂ R as items) (read : value depth c = .ok (.array items) c₁) :
    list r c = .ok as c₁ := by
  obtain ⟨b, next, starts, read⟩ := exists_valueAt read
  cases starts
  cases depth with
  | zero => exact absurd read (fails_failNext _ _ _ _)
  | succ depth =>
    rw [valueAt_array] at read
    obtain ⟨_, c₂, moved, read⟩ := bind_eq_ok.1 read
    obtain ⟨items', c₃, body, read⟩ := bind_eq_ok.1 read
    obtain ⟨same, rfl⟩ := pure_eq_ok.1 read
    obtain rfl := Json.array.inj same
    exact (peekToken_bind next).trans ((bind_of_ok moved).trans
      ((elements_follows (follows depth rfl)).closedBy closeArray _ _ _ _ related body))

/-- What follows on the first value of a document follows on the whole of it. -/
theorem run_follows (follows : Follows R r r') {a : α} {b : β} {bytes : List UInt8}
    (related : R a b) (ok : run r' bytes = .ok b) : run r bytes = .ok a := by
  unfold run at ok
  split at ok
  · next x c whole =>
    obtain rfl := Except.ok.inj ok
    obtain ⟨y, c₁, read, rest⟩ := bind_eq_ok.1 whole
    obtain ⟨token, c₂, peeked, rest⟩ := bind_eq_ok.1 rest
    split at rest
    · obtain ⟨rfl, rfl⟩ := pure_eq_ok.1 rest
      have document : document r (Cursor.start bytes) = .ok a c₂ :=
        (bind_of_ok (follows _ _ _ _ related read)).trans (bind_of_ok peeked)
      unfold run
      rw [document]
    · exact absurd rest (fails_failNext _ _ _ _)
  · simp at ok

end Reader
end Json
end TextCompletion
