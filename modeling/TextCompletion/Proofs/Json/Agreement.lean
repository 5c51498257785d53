import TextCompletion.Json.Record

/-!
Two readers on one document. Readers agree when, wherever both succeed, they stop at the same place
with related values; nothing is said of documents that one of them refuses. Agreement goes through
binds and brackets, so two readers that take the same bytes in the same order agree piece by piece.
Main statements: the readers for one kind of value agree with the reader for values of any kind.
-/

namespace TextCompletion.Json

namespace Cursor

theorem skipWhile_go (test : UInt8 → Bool) (rest : List UInt8) (p : Position) :
    (skipWhile.go test rest p).skipWhile test = skipWhile.go test rest p := by
  induction rest generalizing p with
  | nil => rfl
  | cons b rest ih =>
    cases passes : test b with
    | true => simpa [skipWhile.go, passes] using ih (p.after b)
    | false => simp [skipWhile.go, skipWhile, passes]

@[simp] theorem skipBlank_skipBlank (c : Cursor) : c.skipBlank.skipBlank = c.skipBlank :=
  skipWhile_go isBlankByte c.rest c.position

end Cursor

namespace Reader

variable {α β γ δ : Type}

theorem bind_eq_ok {r : Reader α} {f : α → Reader β} {b : β} {c c₂ : Cursor} :
    (r >>= f) c = .ok b c₂ ↔ ∃ a c₁, r c = .ok a c₁ ∧ f a c₁ = .ok b c₂ := by
  change EStateM.bind r f c = .ok b c₂ ↔ _
  unfold EStateM.bind
  cases r c <;> simp [and_assoc]

theorem bind_of_ok {r : Reader α} {f : α → Reader β} {a : α} {c c₁ : Cursor}
    (ok : r c = .ok a c₁) : (r >>= f) c = f a c₁ := by
  change EStateM.bind r f c = _
  unfold EStateM.bind
  rw [ok]

theorem pure_eq_ok {a b : α} {c c₁ : Cursor} :
    (pure a : Reader α) c = .ok b c₁ ↔ a = b ∧ c = c₁ := by
  change EStateM.Result.ok a c = .ok b c₁ ↔ _
  simp

theorem closedBy_eq_ok {close : Reader Unit} {r : Reader α} {a : α} {c c₂ : Cursor} :
    closedBy close r c = .ok a c₂ ↔ ∃ c₁, r c = .ok a c₁ ∧ close c₁ = .ok () c₂ := by
  unfold closedBy
  cases r c with
  | ok x c₁ => cases closed : close c₁ <;> simp [and_assoc, closed]
  | error f c₁ => cases closed : close c₁ <;> simp [closed]

theorem peekToken_eq_ok {token : Option UInt8} {c c₁ : Cursor} :
    peekToken c = .ok token c₁ ↔ c.skipBlank.peek? = token ∧ c.skipBlank = c₁ := by
  simp [peekToken]

theorem advance_eq_ok {c c₁ : Cursor} : advance c = .ok () c₁ ↔ c.advance = c₁ := by
  simp [advance]

theorem budget_eq_ok {n : Nat} {c c₁ : Cursor} :
    budget c = .ok n c₁ ↔ c.rest.length + 1 = n ∧ c = c₁ := by
  simp [budget]

theorem peekToken_bind {f : Option UInt8 → Reader α} {token : Option UInt8} {c : Cursor}
    (next : c.skipBlank.peek? = token) : (peekToken >>= f) c = f token c.skipBlank := by
  rw [← next]
  rfl

/-- The reader succeeds nowhere. -/
def Fails (r : Reader α) : Prop := ∀ c a c₁, r c ≠ .ok a c₁

theorem fails_failHere (kind : FaultKind) : Fails (failHere kind : Reader α) := by
  simp [Fails, failHere]

theorem fails_failNext (kind : FaultKind) : Fails (failNext kind : Reader α) := by
  simp [Fails, failNext]

theorem fails_failUnplaced (kind : FaultKind) : Fails (failUnplaced kind : Reader α) := by
  simp [Fails, failUnplaced]

theorem fails_wrongType (expected : String) : Fails (wrongType expected : Reader α) := by
  intro c a c₁
  unfold wrongType
  split <;> simp

/-! What comes next in an array or an object, and where that leaves the reader. -/

theorem nextElement_eq_ok {first more : Bool} {c c₁ : Cursor}
    (ok : nextElement first c = .ok more c₁) :
    (more = false ∧ c.skipBlank.peek? = some 93 ∧ c₁ = c.skipBlank) ∨
      more = true ∧ ∃ b, b ≠ 93 ∧ c.skipBlank.peek? = some b ∧
        (first = true ∧ c₁ = c.skipBlank ∨
          first = false ∧ b = 44 ∧ c₁ = c.skipBlank.advance.skipBlank) := by
  obtain ⟨token, c', peeked, ok⟩ := bind_eq_ok.1 ok
  obtain ⟨token, rfl⟩ := peekToken_eq_ok.1 peeked
  split at ok
  · exact absurd ok (fails_failNext _ _ _ _)
  · obtain ⟨rfl, rfl⟩ := pure_eq_ok.1 ok
    exact .inl ⟨rfl, token, rfl⟩
  · next b close =>
    have element : b ≠ 93 := close
    split at ok
    · next opening =>
      obtain ⟨rfl, rfl⟩ := pure_eq_ok.1 ok
      exact .inr ⟨rfl, b, element, token, .inl ⟨opening, rfl⟩⟩
    · next later =>
      split at ok
      · next comma =>
        obtain ⟨_, c', moved, ok⟩ := bind_eq_ok.1 ok
        obtain rfl := advance_eq_ok.1 moved
        obtain ⟨token', c', peeked, ok⟩ := bind_eq_ok.1 ok
        obtain ⟨token', rfl⟩ := peekToken_eq_ok.1 peeked
        split at ok
        · exact absurd ok (fails_failNext _ _ _ _)
        · obtain ⟨rfl, rfl⟩ := pure_eq_ok.1 ok
          exact .inr ⟨rfl, b, element, token, .inr ⟨by simpa using later, comma, rfl⟩⟩
        · exact absurd ok (fails_failNext _ _ _ _)
      · exact absurd ok (fails_failNext _ _ _ _)

theorem nextMember_eq_ok {first more : Bool} {c c₁ : Cursor}
    (ok : nextMember first c = .ok more c₁) :
    (more = false ∧ c.skipBlank.peek? = some 125 ∧ c₁ = c.skipBlank) ∨
      more = true ∧ c₁.peek? = some 34 ∧
        (first = true ∧ c₁ = c.skipBlank ∨
          first = false ∧ c.skipBlank.peek? = some 44 ∧
            c₁ = c.skipBlank.advance.skipBlank) := by
  obtain ⟨token, c', peeked, ok⟩ := bind_eq_ok.1 ok
  obtain ⟨token, rfl⟩ := peekToken_eq_ok.1 peeked
  split at ok
  · exact absurd ok (fails_failNext _ _ _ _)
  · obtain ⟨rfl, rfl⟩ := pure_eq_ok.1 ok
    exact .inl ⟨rfl, token, rfl⟩
  · next b close =>
    split at ok
    · next opening =>
      split at ok
      · next quote =>
        obtain ⟨rfl, rfl⟩ := pure_eq_ok.1 ok
        exact .inr ⟨rfl, quote ▸ token, .inl ⟨opening, rfl⟩⟩
      · exact absurd ok (fails_failNext _ _ _ _)
    · next later =>
      split at ok
      · next comma =>
        obtain ⟨_, c', moved, ok⟩ := bind_eq_ok.1 ok
        obtain rfl := advance_eq_ok.1 moved
        obtain ⟨token', c', peeked, ok⟩ := bind_eq_ok.1 ok
        obtain ⟨quote, rfl⟩ := peekToken_eq_ok.1 peeked
        split at ok
        · obtain ⟨rfl, rfl⟩ := pure_eq_ok.1 ok
          exact .inr ⟨rfl, quote, .inr ⟨by simpa using later, comma ▸ token, rfl⟩⟩
        · exact absurd ok (fails_failNext _ _ _ _)
        · exact absurd ok (fails_failNext _ _ _ _)
        · exact absurd ok (fails_failNext _ _ _ _)
      · exact absurd ok (fails_failNext _ _ _ _)

theorem closeArray_eq_ok {c c₁ : Cursor} (ok : closeArray c = .ok () c₁) :
    c.skipBlank.peek? = some 93 ∧ c₁ = c.skipBlank.advance := by
  obtain ⟨token, c', peeked, ok⟩ := bind_eq_ok.1 ok
  obtain ⟨token, rfl⟩ := peekToken_eq_ok.1 peeked
  split at ok
  · exact ⟨token, (advance_eq_ok.1 ok).symm⟩
  · obtain ⟨_, c', moved, ok⟩ := bind_eq_ok.1 ok
    obtain ⟨token', c', peeked, ok⟩ := bind_eq_ok.1 ok
    split at ok <;> exact absurd ok (fails_failNext _ _ _ _)
  · exact absurd ok (fails_failNext _ _ _ _)
  · exact absurd ok (fails_failNext _ _ _ _)

theorem closeObject_eq_ok {c c₁ : Cursor} (ok : closeObject c = .ok () c₁) :
    c.skipBlank.peek? = some 125 ∧ c₁ = c.skipBlank.advance := by
  obtain ⟨token, c', peeked, ok⟩ := bind_eq_ok.1 ok
  obtain ⟨token, rfl⟩ := peekToken_eq_ok.1 peeked
  split at ok
  · exact ⟨token, (advance_eq_ok.1 ok).symm⟩
  · exact absurd ok (fails_failNext _ _ _ _)
  · exact absurd ok (fails_failNext _ _ _ _)
  · exact absurd ok (fails_failNext _ _ _ _)

/-- Where both readers succeed, they stop at the same place with related values. -/
def Agree (R : α → β → Prop) (r : Reader α) (r' : Reader β) : Prop :=
  ∀ c a c₁ b c₂, r c = .ok a c₁ → r' c = .ok b c₂ → c₁ = c₂ ∧ R a b

namespace Agree

variable {R : α → β → Prop} {S : γ → δ → Prop} {r : Reader α} {r' : Reader β}

theorem same (r : Reader α) : Agree Eq r r := by
  intro c a c₁ b c₂ left right
  rw [left] at right
  simp only [EStateM.Result.ok.injEq] at right
  exact ⟨right.2, right.1⟩

theorem of_fails (fails : Fails r) : Agree R r r' := fun c a c₁ _ _ left _ =>
  absurd left (fails c a c₁)

theorem of_fails_right (fails : Fails r') : Agree R r r' := fun c _ _ b c₂ _ right =>
  absurd right (fails c b c₂)

theorem pure {a : α} {b : β} (related : R a b) :
    Agree R (Pure.pure a : Reader α) (Pure.pure b : Reader β) := by
  intro c x c₁ y c₂ left right
  obtain ⟨rfl, rfl⟩ := pure_eq_ok.1 left
  obtain ⟨rfl, rfl⟩ := pure_eq_ok.1 right
  exact ⟨rfl, related⟩

theorem bind {f : α → Reader γ} {f' : β → Reader δ} (first : Agree R r r')
    (rest : ∀ a b, R a b → Agree S (f a) (f' b)) : Agree S (r >>= f) (r' >>= f') := by
  intro c x c₂ y c₃ left right
  obtain ⟨a, c₁, left, leftRest⟩ := bind_eq_ok.1 left
  obtain ⟨b, c₁', right, rightRest⟩ := bind_eq_ok.1 right
  obtain ⟨rfl, related⟩ := first c a c₁ b c₁' left right
  exact rest a b related _ _ _ _ _ leftRest rightRest

theorem mono {Q : α → β → Prop} (agree : Agree R r r') (weaker : ∀ a b, R a b → Q a b) :
    Agree Q r r' := by
  intro c a c₁ b c₂ left right
  obtain ⟨same, related⟩ := agree c a c₁ b c₂ left right
  exact ⟨same, weaker a b related⟩

theorem after {f : α → Reader γ} {f' : α → Reader δ} (r : Reader α)
    (rest : ∀ a, Agree S (f a) (f' a)) : Agree S (r >>= f) (r >>= f') :=
  bind (same r) fun a _ equal => equal ▸ rest a

theorem map_left {f : α → γ} {Q : γ → β → Prop} (agree : Agree R r r')
    (related : ∀ a b, R a b → Q (f a) b) : Agree Q (do Pure.pure (f (← r))) r' := by
  intro c x c₁ b c₂ left right
  obtain ⟨a, c', read, result⟩ := bind_eq_ok.1 left
  obtain ⟨rfl, rfl⟩ := pure_eq_ok.1 result
  obtain ⟨same, holds⟩ := agree c a c' b c₂ read right
  exact ⟨same, related a b holds⟩

theorem map_right {f : β → δ} {Q : α → δ → Prop} (agree : Agree R r r')
    (related : ∀ a b, R a b → Q a (f b)) : Agree Q r (do Pure.pure (f (← r'))) := by
  intro c a c₁ y c₂ left right
  obtain ⟨b, c', read, result⟩ := bind_eq_ok.1 right
  obtain ⟨rfl, rfl⟩ := pure_eq_ok.1 result
  obtain ⟨same, holds⟩ := agree c a c₁ b c' left read
  exact ⟨same, related a b holds⟩

theorem closedBy (close : Reader Unit) (agree : Agree R r r') :
    Agree R (Reader.closedBy close r) (Reader.closedBy close r') := by
  intro c a c₂ b c₃ left right
  obtain ⟨c₁, left, closed⟩ := closedBy_eq_ok.1 left
  obtain ⟨c₁', right, closed'⟩ := closedBy_eq_ok.1 right
  obtain ⟨rfl, related⟩ := agree c a c₁ b c₁' left right
  rw [closed] at closed'
  simp only [EStateM.Result.ok.injEq, true_and] at closed'
  exact ⟨closed', related⟩

end Agree

/-! A value of any kind is told by its first byte. -/

def bracketed : Nat → UInt8 → Reader Json
  | 0, _ => failNext .tooDeep
  | depth + 1, b => do
    advance
    if b = 91 then
      let items ← closedBy closeArray (elements (value depth))
      pure (.array items)
    else
      let ms ← closedBy closeObject (members (value depth))
      pure (.object ms)

def valueAt (depth : Nat) (b : UInt8) : Reader Json :=
  if b = 91 ∨ b = 123 then bracketed depth b else scalar b

theorem value_eq (depth : Nat) :
    value depth = (do
      match ← peekToken with
      | none => failNext .endOfValue
      | some b => valueAt depth b) := by
  cases depth with
  | zero => rfl
  | succ depth =>
    rw [value]
    congr 1
    funext token
    cases token with
    | none => rfl
    | some b =>
      by_cases array : b = 91
      · simp [valueAt, bracketed, array]
      · by_cases object : b = 123
        · simp [valueAt, bracketed, object]
        · simp [valueAt, array, object]

/-- A reader that looks at the first byte, against the reader for values of any kind. -/
theorem Agree.with_value {R : α → Json → Prop} {depth : Nat} {f : Option UInt8 → Reader α}
    (atEnd : Fails (f none)) (next : ∀ b, Agree R (f (some b)) (valueAt depth b)) :
    Agree R (peekToken >>= f) (value depth) := by
  rw [value_eq]
  refine .after peekToken fun token => ?_
  cases token with
  | none => exact .of_fails atEnd
  | some b => exact next b

theorem value_skipBlank (depth : Nat) (c : Cursor) : value depth c.skipBlank = value depth c := by
  have token : peekToken c.skipBlank = peekToken c := by simp [peekToken]
  rw [value_eq]
  change EStateM.bind peekToken _ c.skipBlank = EStateM.bind peekToken _ c
  unfold EStateM.bind
  rw [token]

theorem valueAt_minus (depth : Nat) :
    valueAt depth 45 = (do advance; let n ← unsigned true; pure (.number n)) := rfl

theorem valueAt_digit (depth : Nat) {b : UInt8} (digit : isDigit b = true) :
    valueAt depth b = (do let n ← unsigned false; pure (.number n)) := by
  have other (x : UInt8) (not : isDigit x = false) : b ≠ x := by
    rintro rfl
    simp [digit] at not
  simp [valueAt, scalar, digit, other 91 rfl, other 123 rfl, other 110 rfl, other 116 rfl,
    other 102 rfl, other 45 rfl]

theorem valueAt_array (depth : Nat) :
    valueAt (depth + 1) 91 = (do
      advance
      let items ← closedBy closeArray (elements (value depth))
      pure (.array items)) := rfl

theorem text_agree (depth : Nat) : Agree (fun s v => v = .string s) text (value depth) := by
  refine .with_value (fails_failNext _) fun b => ?_
  by_cases quote : b = 34
  · subst quote
    exact .after advance fun _ => .map_right (.same textTail) fun _ _ equal => by rw [equal]
  · refine .of_fails ?_
    split
    · exact fails_failNext _
    · simp_all
    · exact fails_wrongType _

def Bounded (bound : Nat) (type : String) (n : Nat) (v : Json) : Prop :=
  ∃ m, v = .number m ∧ boundedNatural bound type m = .ok n

theorem checked_agree (bound : Nat) (type : String) (sign : Bool) :
    Agree (Bounded bound type)
      (do
        let n ← unsigned sign
        match boundedNatural bound type n with
        | .ok n => pure n
        | .error kind => failHere kind)
      (do let n ← unsigned sign; pure (.number n)) := by
  refine .after (unsigned sign) fun m => ?_
  cases fits : boundedNatural bound type m with
  | ok n => exact .pure ⟨m, rfl, fits⟩
  | error kind => exact .of_fails (fails_failHere kind)

theorem natural_agree (bound : Nat) (type : String) (depth : Nat) :
    Agree (Bounded bound type) (natural bound type) (value depth) := by
  refine .with_value (fails_failNext _) fun b => ?_
  by_cases minus : b = 45
  · subst minus
    rw [valueAt_minus]
    exact .after advance fun _ => checked_agree bound type true
  · cases digit : isDigit b with
    | true =>
      simp only [minus, digit, or_true, if_true, if_false]
      rw [valueAt_digit depth digit]
      exact checked_agree bound type false
    | false =>
      simp only [minus, digit, Bool.false_eq_true, or_false, if_false]
      exact .of_fails (fails_wrongType type)

/-- What `null` or a value is read as. -/
def OrNull (R : α → Json → Prop) : Option α → Json → Prop
  | none, v => v = .null
  | some a, v => R a v

theorem optional_agree {R : α → Json → Prop} {r : Reader α} {depth : Nat}
    (agree : Agree R r (value depth)) : Agree (OrNull R) (optional r) (value depth) := by
  intro c a c₁ v c₂ left right
  obtain ⟨token, c', peeked, left⟩ := bind_eq_ok.1 left
  obtain ⟨next, rfl⟩ := peekToken_eq_ok.1 peeked
  -- the optional reader has passed the blanks already, and passes them again before a value
  rw [← value_skipBlank] at right
  by_cases null : token = some 110
  · subst null
    have read : Agree (OrNull R) (do advance; word nullTail; pure none) (valueAt depth 110) :=
      .after advance fun _ => .after (word nullTail) fun _ => .pure rfl
    rw [value_eq] at right
    obtain ⟨token, c'', peeked, right⟩ := bind_eq_ok.1 right
    obtain ⟨next', rfl⟩ := peekToken_eq_ok.1 peeked
    rw [Cursor.skipBlank_skipBlank] at next' right
    obtain rfl : token = some 110 := next'.symm.trans next
    exact read _ _ _ _ _ left right
  · have value : (some <$> r) c.skipBlank = .ok a c₁ := by
      simpa [null] using left
    have some : Agree (OrNull R) (do pure (some (← r))) (Reader.value depth) :=
      agree.map_left fun _ _ related => related
    rw [map_eq_pure_bind] at value
    exact some _ _ _ _ _ value right

abbrev Aligned (r : Reader α) (r' : Reader β) : Prop := Agree (fun _ _ => True) r r'

theorem Agree.aligned {R : α → β → Prop} {r : Reader α} {r' : Reader β} (agree : Agree R r r') :
    Aligned r r' :=
  agree.mono fun _ _ _ => trivial

theorem elementsFrom_aligned {item : Reader α} {item' : Reader β} (aligned : Aligned item item')
    (fuel : Nat) (first : Bool) :
    Aligned (elementsFrom item fuel first) (elementsFrom item' fuel first) := by
  induction fuel generalizing first with
  | zero => exact .of_fails (fails_failHere _)
  | succ fuel ih =>
    refine .after (nextElement first) fun more => ?_
    cases more with
    | false => exact .pure trivial
    | true =>
      refine .bind aligned fun _ _ _ => .bind (ih false) fun _ _ _ => .pure trivial

theorem list_aligned {item : Reader α} (aligned : ∀ depth, Aligned item (value depth))
    (depth : Nat) : Aligned (list item) (value depth) := by
  refine .with_value (fails_failNext _) fun b => ?_
  by_cases array : b = 91
  · subst array
    cases depth with
    | zero => exact .of_fails_right (fails_failNext _)
    | succ depth =>
      rw [valueAt_array]
      have items : Aligned (closedBy closeArray (elements item))
          (closedBy closeArray (elements (value depth))) :=
        .closedBy closeArray (.after budget fun fuel =>
          elementsFrom_aligned (aligned depth) fuel true)
      exact .after advance fun _ => items.map_right fun _ _ _ => trivial
  · refine .of_fails ?_
    split
    · exact fails_failNext _
    · simp_all
    · exact fails_wrongType _

end Reader
end TextCompletion.Json
