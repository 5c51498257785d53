import TextCompletion.Proofs.Json.Agreement

/-!
Skipping a value against reading it. The skipping readers check less and keep no brackets on the
call stack; where both get through, they stop at the same place. Strings and numbers come first,
then values in brackets, by induction on the reader that keeps them.
-/

namespace TextCompletion.Json

/-! ## Strings -/

section Strings

variable {b e h₁ h₂ h₃ h₄ : UInt8} {n : Nat}

theorem scanSkipped_plain (open' : b ≠ 34) (printable : ¬b < 32) (plain : b ≠ 92)
    (rest : List UInt8) (p : Position) :
    scanSkipped (b :: rest) p = scanSkipped rest (p.after b) := by
  rw [scanSkipped.eq_def (b :: rest)]
  simp only [if_neg open', if_neg printable, if_neg plain]

theorem scanSkipped_short (notUnicode : e ≠ 117) (short : (shortEscape? e).isSome = true)
    (rest : List UInt8) (p : Position) :
    scanSkipped (92 :: e :: rest) p = scanSkipped rest ((p.after 92).after e) := by
  rw [scanSkipped, if_neg (by decide), if_neg (by decide), if_pos rfl]
  simp only [if_neg notUnicode, if_pos short]

theorem scanSkipped_unicode (quad : hexQuad? h₁ h₂ h₃ h₄ = some n) (rest : List UInt8)
    (p : Position) :
    scanSkipped (92 :: 117 :: h₁ :: h₂ :: h₃ :: h₄ :: rest) p =
      scanSkipped rest (((p.after 92).after 117).afterAll [h₁, h₂, h₃, h₄]) := by
  rw [scanSkipped, if_neg (by decide), if_neg (by decide), if_pos rfl]
  simp [quad]

theorem scanSkipped_of_scanText {pending : Option Nat} {bytes : List UInt8} {p : Position}
    {acc decoded : List UInt8} {after : Cursor}
    (ok : scanText pending bytes p acc = .ok decoded after) :
    scanSkipped bytes p = .ok () after := by
  -- the other cases are those where reading fails
  fun_induction scanText pending bytes p acc with
  | case3 p acc rest p₁ =>
    obtain ⟨-, rfl⟩ : acc = decoded ∧ _ = after := by simpa using ok
    rw [scanSkipped.eq_def]
    rfl
  | case5 p acc b rest p₁ plain open' printable ih =>
    rw [scanSkipped_plain open' printable (by simpa using plain)]
    exact ih ok
  | case8 p acc fail b p₁ escape h₁ h₂ h₃ h₄ rest n leading quad trailing c p₂ p₃ ih =>
    obtain rfl : b = 92 := by simpa using escape
    simp only [quad, trailing, if_true] at ok
    rw [scanSkipped_unicode quad]
    exact ih ok
  | case11 p acc fail b p₁ escape h₁ h₂ h₃ h₄ rest n quad trailing leading p₂ p₃ ih =>
    obtain rfl : b = 92 := by simpa using escape
    simp only [quad, trailing, leading, if_true] at ok
    rw [scanSkipped_unicode quad]
    exact ih ok
  | case12 p acc fail b p₁ escape h₁ h₂ h₃ h₄ rest n quad trailing leading p₂ p₃ ih =>
    obtain rfl : b = 92 := by simpa using escape
    simp only [quad, trailing, leading] at ok
    rw [scanSkipped_unicode quad]
    exact ih ok
  | case15 p acc fail b p₁ escape e rest p₂ notUnicode x short ih =>
    obtain rfl : b = 92 := by simpa using escape
    simp only [short] at ok
    rw [scanSkipped_short notUnicode (by simp [short])]
    exact ih ok
  | _ => simp_all

end Strings

namespace Reader

theorem textTail_aligned : Aligned textTail skipTextTail := by
  intro c s c₁ _ c₂ left right
  unfold textTail at left
  cases scanned : scanText none c.rest c.position [] with
  | error f c' => simp [scanned] at left
  | ok decoded after =>
    have skipped : skipTextTail c = .ok () after := scanSkipped_of_scanText scanned
    obtain rfl : after = c₂ := by simpa [skipped] using right
    cases text : Text.Utf8.decode? decoded.reverse with
    | none => simp [scanned, text] at left
    | some s' =>
      obtain ⟨-, rfl⟩ : s' = s ∧ after = c₁ := by simpa [scanned, text] using left
      exact ⟨rfl, trivial⟩

/-! ## Numbers -/

theorem digits_go {n count : Nat} {rest : List UInt8} {p : Position} {x : Nat × Nat} {c : Cursor}
    (ok : digits.go n count rest p = .ok x c) :
    c.skipWhile isDigit = Cursor.skipWhile isDigit ⟨rest, p⟩ ∧
      rest.length + count = c.rest.length + x.2 := by
  induction rest generalizing n count p with
  | nil =>
    simp only [digits.go, EStateM.Result.ok.injEq] at ok
    obtain ⟨rfl, rfl⟩ := ok
    exact ⟨rfl, rfl⟩
  | cons b rest ih =>
    rw [digits.go] at ok
    split at ok
    · next fits =>
      obtain ⟨same, length⟩ := ih ok
      have digit : isDigit b = true := by simp_all
      refine ⟨?_, by simp only [List.length_cons]; omega⟩
      rw [same]
      simp [Cursor.skipWhile, Cursor.skipWhile.go, digit]
    · simp only [EStateM.Result.ok.injEq] at ok
      obtain ⟨rfl, rfl⟩ := ok
      exact ⟨rfl, rfl⟩

theorem digits_eq_ok {n : Nat} {x : Nat × Nat} {c c₁ : Cursor} (ok : digits n c = .ok x c₁) :
    c₁.skipWhile isDigit = c.skipWhile isDigit ∧ c.rest.length = c₁.rest.length + x.2 :=
  digits_go ok

theorem skipDigits_eq_ok {m : Nat} {c c₁ : Cursor} :
    skipDigits c = .ok m c₁ ↔
      c.rest.length - (c.skipWhile isDigit).rest.length = m ∧ c.skipWhile isDigit = c₁ := by
  simp [skipDigits]

theorem skipWhile_length (test : UInt8 → Bool) (c : Cursor) :
    (c.skipWhile test).rest.length ≤ c.rest.length := by
  obtain ⟨rest, p⟩ := c
  change (Cursor.skipWhile.go test rest p).rest.length ≤ rest.length
  induction rest generalizing p with
  | nil => exact Nat.le_refl _
  | cons b rest ih =>
    rw [Cursor.skipWhile.go]
    split
    · exact Nat.le_succ_of_le (ih _)
    · exact Nat.le_refl _

variable {γ δ : Type}

/-- Digits of which some are used and the others passed, against digits that are all passed. -/
theorem Agree.digits {S : γ → δ → Prop} {n : Nat} {f : Nat × Nat → Nat → Reader γ}
    {f' : Nat → Reader δ} (rest : ∀ x dropped, Agree S (f x dropped) (f' (x.2 + dropped))) :
    Agree S (do let x ← Reader.digits n; let dropped ← skipDigits; f x dropped)
      (do let m ← skipDigits; f' m) := by
  intro c a c₃ b c₄ left right
  obtain ⟨x, c₁, used, left⟩ := bind_eq_ok.1 left
  obtain ⟨dropped, c₂, passed, left⟩ := bind_eq_ok.1 left
  obtain ⟨m, c₂', all, right⟩ := bind_eq_ok.1 right
  obtain ⟨same, length⟩ := digits_eq_ok used
  obtain ⟨count, rfl⟩ := skipDigits_eq_ok.1 passed
  obtain ⟨total, rfl⟩ := skipDigits_eq_ok.1 all
  rw [same] at count left
  have shorter := skipWhile_length isDigit c₁
  rw [same] at shorter
  obtain rfl : m = x.2 + dropped := by omega
  exact rest x dropped _ _ _ _ _ left right

theorem exponentDigits_go {n : Nat} {rest : List UInt8} {p : Position} {o : Option Nat}
    {c : Cursor} (ok : exponentDigits.go n rest p = .ok o c) :
    c.skipWhile isDigit = Cursor.skipWhile isDigit ⟨rest, p⟩ ∧
      (o.isSome = true → c = Cursor.skipWhile isDigit ⟨rest, p⟩) := by
  induction rest generalizing n p with
  | nil =>
    simp only [exponentDigits.go, EStateM.Result.ok.injEq] at ok
    obtain ⟨-, rfl⟩ := ok
    exact ⟨rfl, fun _ => rfl⟩
  | cons b rest ih =>
    rw [exponentDigits.go] at ok
    cases digit : isDigit b with
    | false =>
      simp only [digit, Bool.false_eq_true, if_false, EStateM.Result.ok.injEq] at ok
      obtain ⟨-, rfl⟩ := ok
      exact ⟨rfl, fun _ => by simp [Cursor.skipWhile, Cursor.skipWhile.go, digit]⟩
    | true =>
      have more : Cursor.skipWhile isDigit ⟨b :: rest, p⟩ =
          Cursor.skipWhile isDigit ⟨rest, p.after b⟩ := by
        simp [Cursor.skipWhile, Cursor.skipWhile.go, digit]
      rw [more]
      simp only [digit, if_true] at ok
      split at ok
      · exact ih ok
      · simp only [EStateM.Result.ok.injEq] at ok
        obtain ⟨rfl, rfl⟩ := ok
        exact ⟨rfl, fun some => by simp at some⟩

def Still {α : Type} (r : Reader α) : Prop := ∀ c a c₁, r c = .ok a c₁ → c = c₁

theorem still_finish (negative : Bool) (significand : Nat) (e : Int) :
    Still (finish negative significand e) := by
  intro c a c₁ ok
  unfold finish at ok
  cases fraction : fraction? negative significand e with
  | none =>
    rw [fraction] at ok
    exact absurd ok (fails_failHere _ c a c₁)
  | some x =>
    rw [fraction] at ok
    exact (pure_eq_ok.1 ok).2

theorem Still.aligned {α : Type} {r : Reader α} (still : Still r) : Aligned r (pure ()) := by
  intro c a c₁ _ c₂ left right
  exact ⟨(still c a c₁ left).symm.trans (pure_eq_ok.1 right).2, trivial⟩

theorem exponentPart_aligned (negative : Bool) (significand : Nat) (start : Int) :
    Aligned (exponentPart negative significand start) skipUnsigned.exponent := by
  refine .after advance fun _ => .after exponentSign fun down => .after next fun token => ?_
  cases token with
  | none => exact .of_fails (fails_failHere _)
  | some b =>
    cases digit : isDigit b with
    | false =>
      simp only [digit, Bool.false_eq_true, if_false]
      exact .of_fails (fails_failHere _)
    | true =>
      intro c a c₁ _ c₂ left right
      simp only [digit, if_true] at left right
      obtain ⟨m, c', passed, done⟩ := bind_eq_ok.1 right
      obtain ⟨-, rfl⟩ := skipDigits_eq_ok.1 passed
      obtain ⟨-, rfl⟩ := pure_eq_ok.1 done
      obtain ⟨o, c'', read, left⟩ := bind_eq_ok.1 left
      obtain ⟨same, whole⟩ := exponentDigits_go read
      cases o with
      | some n => exact ⟨(still_finish _ _ _ _ _ _ left).symm.trans (whole rfl), trivial⟩
      | none =>
        dsimp only at left
        split at left
        · exact absurd left (fails_failHere _ _ _ _)
        · obtain ⟨m, c', passed, done⟩ := bind_eq_ok.1 left
          obtain ⟨-, rfl⟩ := skipDigits_eq_ok.1 passed
          obtain ⟨-, rfl⟩ := pure_eq_ok.1 done
          exact ⟨same, trivial⟩

theorem fractionPart_aligned (negative : Bool) (significand : Nat) (start : Int) :
    Aligned (fractionPart negative significand start) (do
      advance
      if (← skipDigits) = 0 then failNext .invalidNumber
      else if ← peekExponentMark then skipUnsigned.exponent) := by
  refine .after advance fun _ => Agree.digits fun x dropped => ?_
  by_cases empty : x.2 = 0 ∧ dropped = 0
  · have total : x.2 + dropped = 0 := by omega
    rw [if_pos total]
    exact .of_fails_right (fails_failNext _)
  · -- digits that do not fit are passed as well, so only their sum can be compared
    have total : ¬x.2 + dropped = 0 := by omega
    rw [if_neg total]
    simp only [if_neg empty]
    refine .after peekExponentMark fun exponent => ?_
    cases exponent with
    | false => exact (still_finish _ _ _).aligned
    | true => exact exponentPart_aligned _ _ _

theorem still_whole (negative : Bool) (n dropped : Nat) :
    Still (unsigned.whole negative n dropped) := by
  intro c a c₁ ok
  unfold unsigned.whole at ok
  split at ok
  · exact still_finish _ _ _ _ _ _ ok
  · split at ok
    · split at ok <;> exact (pure_eq_ok.1 ok).2
    · exact (pure_eq_ok.1 ok).2

theorem afterDigits_aligned (negative : Bool) (n dropped : Nat) :
    Aligned (unsigned.afterDigits negative n dropped) skipUnsigned.rest := by
  refine .after peek fun token => ?_
  cases token with
  | none => exact (still_whole _ _ _).aligned
  | some b =>
    by_cases point : b = 46
    · subst point
      exact fractionPart_aligned negative n dropped
    · by_cases mark : b = 101 ∨ b = 69
      · simpa [point, mark] using exponentPart_aligned negative n dropped
      · simpa [point, mark] using (still_whole negative n dropped).aligned

theorem unsigned_aligned (negative : Bool) : Aligned (unsigned negative) skipUnsigned := by
  refine .after next fun token => ?_
  cases token with
  | none => exact .of_fails (fails_failHere _)
  | some b =>
    by_cases zero : b = 48
    · subst zero
      refine .after peekDigit fun digit => ?_
      cases digit with
      | true => exact .of_fails (fails_failNext _)
      | false => exact afterDigits_aligned negative 0 0
    · cases digit : isDigit b with
      | false =>
        simp only [zero, digit, Bool.false_eq_true, if_false]
        exact .of_fails (fails_failHere _)
      | true =>
        simp only [zero, digit, if_true, if_false]
        exact Agree.digits fun x dropped => afterDigits_aligned negative x.1 dropped

/-! ## Scalars -/

theorem scalar_aligned (b : UInt8) : Aligned (scalar b) (skipScalar b) := by
  have word_aligned (rest : List UInt8) (v : Json) : Aligned
      (do advance; word rest; pure v) (do advance; word rest) :=
    .after advance fun _ => (Agree.same (word rest)).map_left (f := fun _ => v) fun _ _ _ => trivial
  unfold scalar skipScalar
  split
  · exact word_aligned _ _
  split
  · exact word_aligned _ _
  split
  · exact word_aligned _ _
  split
  · exact .after advance fun _ => (unsigned_aligned true).map_left fun _ _ _ => trivial
  split
  · exact (unsigned_aligned false).map_left fun _ _ _ => trivial
  split
  · exact .after advance fun _ => textTail_aligned.map_left fun _ _ _ => trivial
  · exact .of_fails (fails_failNext _)

/-! ## Brackets -/

/-- From a step inside some brackets, a skipping run gets through and stops at `stop`. -/
def Skips (step : SkipStep) (frames : List Frame) (c stop : Cursor) : Prop :=
  ∃ fuel, skipFrom fuel step frames c = .ok () stop

def stepBefore (first : Bool) : SkipStep := if first then .afterOpening else .afterValue

variable {frames : List Frame} {c c₁ stop : Cursor} {first : Bool}

theorem skips_done (h : Skips .afterValue [] c stop) : c = stop := by
  obtain ⟨fuel, ok⟩ := h
  cases fuel with
  | zero => exact absurd ok (fails_failHere _ _ _ _)
  | succ fuel => exact (pure_eq_ok.1 ok).2

theorem skips_value {b : UInt8} (h : Skips .value frames c stop)
    (token : c.skipBlank.peek? = some b) :
    (b = 91 → Skips .afterOpening (.array :: frames) c.skipBlank.advance stop) ∧
      (b = 123 → Skips .afterOpening (.object :: frames) c.skipBlank.advance stop) ∧
      (¬(b = 91 ∨ b = 123) →
        ∃ c₁, skipScalar b c.skipBlank = .ok () c₁ ∧ Skips .afterValue frames c₁ stop) := by
  obtain ⟨fuel, ok⟩ := h
  cases fuel with
  | zero => exact absurd ok (fails_failHere _ _ _ _)
  | succ fuel =>
    rw [skipFrom, peekToken_bind token] at ok
    refine ⟨?_, ?_, ?_⟩
    · rintro rfl
      exact ⟨fuel, ok⟩
    · rintro rfl
      exact ⟨fuel, ok⟩
    · intro scalar
      simp only [not_or] at scalar
      simp only [if_neg scalar.1, if_neg scalar.2] at ok
      obtain ⟨_, c₁, skipped, ok⟩ := bind_eq_ok.1 ok
      exact ⟨c₁, skipped, fuel, ok⟩

theorem skips_value_skipBlank (h : Skips .value frames c stop) :
    Skips .value frames c.skipBlank stop := by
  obtain ⟨fuel, ok⟩ := h
  refine ⟨fuel, ?_⟩
  cases fuel with
  | zero => exact absurd ok (fails_failHere _ _ _ _)
  | succ fuel =>
    rw [skipFrom, peekToken_bind rfl] at ok ⊢
    rwa [Cursor.skipBlank_skipBlank]

theorem skips_array {b : UInt8} (h : Skips (stepBefore first) (.array :: frames) c stop)
    (token : c.skipBlank.peek? = some b) :
    (b = 93 → Skips .afterValue frames c.skipBlank.advance stop) ∧
      (b ≠ 93 → first = true → Skips .value (.array :: frames) c.skipBlank stop) ∧
      (b = 44 → first = false → Skips .value (.array :: frames) c.skipBlank.advance stop) := by
  obtain ⟨fuel, ok⟩ := h
  cases fuel with
  | zero => cases first <;> exact absurd ok (fails_failHere _ _ _ _)
  | succ fuel =>
    cases first with
    | true =>
      replace ok := (peekToken_bind token).symm.trans ok
      refine ⟨?_, ?_, fun _ later => (nomatch later)⟩
      · rintro rfl
        exact ⟨fuel, ok⟩
      · intro element _
        simp only [if_neg element] at ok
        exact ⟨fuel, ok⟩
    | false =>
      replace ok := (peekToken_bind token).symm.trans ok
      refine ⟨?_, fun _ opening => (nomatch opening), ?_⟩
      · rintro rfl
        exact ⟨fuel, ok⟩
      · rintro rfl _
        exact ⟨fuel, ok⟩

theorem skips_object {b : UInt8} (h : Skips (stepBefore first) (.object :: frames) c stop)
    (token : c.skipBlank.peek? = some b) :
    (b = 125 → Skips .afterValue frames c.skipBlank.advance stop) ∧
      (b ≠ 125 → first = true →
        ∃ c₁, skipKey c.skipBlank = .ok () c₁ ∧ Skips .value (.object :: frames) c₁ stop) ∧
      (b = 44 → first = false →
        ∃ c₁, skipKey c.skipBlank.advance = .ok () c₁ ∧
          Skips .value (.object :: frames) c₁ stop) := by
  obtain ⟨fuel, ok⟩ := h
  cases fuel with
  | zero => cases first <;> exact absurd ok (fails_failHere _ _ _ _)
  | succ fuel =>
    cases first with
    | true =>
      replace ok := (peekToken_bind token).symm.trans ok
      refine ⟨?_, ?_, fun _ later => (nomatch later)⟩
      · rintro rfl
        exact ⟨fuel, ok⟩
      · intro member _
        simp only [if_neg member] at ok
        obtain ⟨_, c₁, key, ok⟩ := bind_eq_ok.1 ok
        exact ⟨c₁, key, fuel, ok⟩
    | false =>
      replace ok := (peekToken_bind token).symm.trans ok
      refine ⟨?_, fun _ opening => (nomatch opening), ?_⟩
      · rintro rfl
        exact ⟨fuel, ok⟩
      · rintro rfl _
        obtain ⟨_, c₁, moved, ok⟩ := bind_eq_ok.1 ok
        obtain rfl := advance_eq_ok.1 moved
        obtain ⟨_, c₁, key, ok⟩ := bind_eq_ok.1 ok
        exact ⟨c₁, key, fuel, ok⟩

/-- A reader whose values are passed by skipping runs, whatever brackets are open around them. -/
def Skippable {α : Type} (item : Reader α) : Prop :=
  ∀ frames c a c₁ stop, item c = .ok a c₁ → Skips .value frames c stop →
    Skips .afterValue frames c₁ stop

theorem skips_elements {α : Type} {item : Reader α} (skippable : Skippable item) {fuel : Nat}
    {items : List α} {c₂ : Cursor} (read : elementsFrom item fuel first c = .ok items c₁)
    (closed : closeArray c₁ = .ok () c₂) (h : Skips (stepBefore first) (.array :: frames) c stop) :
    Skips .afterValue frames c₂ stop := by
  induction fuel generalizing first c items with
  | zero => exact absurd read (fails_failHere _ _ _ _)
  | succ fuel ih =>
    obtain ⟨more, c', next, read⟩ := bind_eq_ok.1 read
    rcases nextElement_eq_ok next with ⟨rfl, token, rfl⟩ | ⟨rfl, b, element, token, place⟩
    · obtain ⟨-, rfl⟩ := pure_eq_ok.1 read
      obtain ⟨-, rfl⟩ := closeArray_eq_ok closed
      rw [Cursor.skipBlank_skipBlank]
      exact (skips_array h token).1 rfl
    · obtain ⟨v, c'', item, read⟩ := bind_eq_ok.1 read
      obtain ⟨rest, c''', tail, read⟩ := bind_eq_ok.1 read
      obtain ⟨-, rfl⟩ := pure_eq_ok.1 read
      -- after a comma the skipping run stands before the blanks that reading has passed
      have start : Skips .value (.array :: frames) c' stop := by
        rcases place with ⟨rfl, rfl⟩ | ⟨rfl, comma, rfl⟩
        · exact (skips_array h token).2.1 element rfl
        · exact skips_value_skipBlank ((skips_array h token).2.2 comma rfl)
      exact ih tail (skippable _ _ _ _ _ item start)

theorem key_aligned :
    Aligned (do let _ ← key; colon) (do advance; skipTextTail; colon) := by
  have name : Aligned key (do advance; skipTextTail) := .after advance fun _ => textTail_aligned
  intro c _ c₂ _ c₃ left right
  obtain ⟨k, c₁, read, left⟩ := bind_eq_ok.1 left
  obtain ⟨_, c', moved, right⟩ := bind_eq_ok.1 right
  obtain ⟨_, c₁', skipped, right⟩ := bind_eq_ok.1 right
  obtain ⟨rfl, -⟩ := name _ _ _ _ _ read (bind_eq_ok.2 ⟨_, c', moved, skipped⟩)
  exact ⟨(Agree.same colon _ _ _ _ _ left right).1, trivial⟩

theorem skipKey_eq_ok {k : String} {c₂ c₃ : Cursor} (quote : c.skipBlank.peek? = some 34)
    (name : key c.skipBlank = .ok k c₁) (colon : colon c₁ = .ok () c₂)
    (skipped : skipKey c = .ok () c₃) : c₂ = c₃ := by
  replace skipped := (peekToken_bind quote).symm.trans skipped
  exact (key_aligned _ _ _ _ _ (bind_eq_ok.2 ⟨k, c₁, name, colon⟩) skipped).1

theorem skips_members {item : Reader Json} (skippable : Skippable item) {fuel : Nat}
    {ms : List (String × Json)} {c₂ : Cursor} (read : membersFrom item fuel first c = .ok ms c₁)
    (closed : closeObject c₁ = .ok () c₂)
    (h : Skips (stepBefore first) (.object :: frames) c stop) :
    Skips .afterValue frames c₂ stop := by
  induction fuel generalizing first c ms with
  | zero => exact absurd read (fails_failHere _ _ _ _)
  | succ fuel ih =>
    obtain ⟨more, c', next, read⟩ := bind_eq_ok.1 read
    rcases nextMember_eq_ok next with ⟨rfl, token, rfl⟩ | ⟨rfl, quote, place⟩
    · obtain ⟨-, rfl⟩ := pure_eq_ok.1 read
      obtain ⟨-, rfl⟩ := closeObject_eq_ok closed
      rw [Cursor.skipBlank_skipBlank]
      exact (skips_object h token).1 rfl
    · obtain ⟨k, c₃, name, read⟩ := bind_eq_ok.1 read
      obtain ⟨_, c₄, colon, read⟩ := bind_eq_ok.1 read
      obtain ⟨v, c₅, item, read⟩ := bind_eq_ok.1 read
      obtain ⟨rest, c₆, tail, read⟩ := bind_eq_ok.1 read
      obtain ⟨-, rfl⟩ := pure_eq_ok.1 read
      have start : Skips .value (.object :: frames) c₄ stop := by
        rcases place with ⟨rfl, rfl⟩ | ⟨rfl, comma, rfl⟩
        · obtain ⟨c₇, skipped, start⟩ := (skips_object h quote).2.1 (by decide) rfl
          rw [← Cursor.skipBlank_skipBlank] at quote name
          rwa [skipKey_eq_ok quote name colon skipped]
        · obtain ⟨c₇, skipped, start⟩ := (skips_object h comma).2.2 rfl rfl
          rwa [skipKey_eq_ok quote name colon skipped]
      exact ih tail (skippable _ _ _ _ _ item start)

theorem skippable_of_bracketed {depth : Nat}
    (inside : ∀ b frames c v c₁ stop, (b = 91 ∨ b = 123) → c.skipBlank.peek? = some b →
      bracketed depth b c.skipBlank = .ok v c₁ → Skips .value frames c stop →
        Skips .afterValue frames c₁ stop) : Skippable (value depth) := by
  intro frames c v c₁ stop read h
  rw [value_eq] at read
  obtain ⟨token, c', peeked, read⟩ := bind_eq_ok.1 read
  obtain ⟨token, rfl⟩ := peekToken_eq_ok.1 peeked
  split at read
  · exact absurd read (fails_failNext _ _ _ _)
  · next b =>
    unfold valueAt at read
    split at read
    · next bracket => exact inside b frames c v c₁ stop bracket token read h
    · next scalar =>
      obtain ⟨c₂, skipped, done⟩ := (skips_value h token).2.2 scalar
      obtain ⟨rfl, -⟩ := scalar_aligned b _ _ _ _ _ read skipped
      exact done

theorem value_skippable (depth : Nat) : Skippable (value depth) := by
  induction depth with
  | zero =>
    refine skippable_of_bracketed fun b frames c v c₁ stop _ _ read _ => ?_
    exact absurd read (fails_failNext _ _ _ _)
  | succ depth ih =>
    refine skippable_of_bracketed fun b frames c v c₁ stop bracket token read h => ?_
    obtain ⟨_, c', moved, read⟩ := bind_eq_ok.1 read
    obtain rfl := advance_eq_ok.1 moved
    rcases bracket with rfl | rfl
    · obtain ⟨items, c₂, body, read⟩ := bind_eq_ok.1 read
      obtain ⟨-, rfl⟩ := pure_eq_ok.1 read
      obtain ⟨c₃, read, closed⟩ := closedBy_eq_ok.1 body
      obtain ⟨fuel, c₄, counted, read⟩ := bind_eq_ok.1 read
      obtain ⟨-, rfl⟩ := budget_eq_ok.1 counted
      exact skips_elements ih read closed ((skips_value h token).1 rfl)
    · obtain ⟨ms, c₂, body, read⟩ := bind_eq_ok.1 read
      obtain ⟨-, rfl⟩ := pure_eq_ok.1 read
      obtain ⟨c₃, read, closed⟩ := closedBy_eq_ok.1 body
      obtain ⟨fuel, c₄, counted, read⟩ := bind_eq_ok.1 read
      obtain ⟨-, rfl⟩ := budget_eq_ok.1 counted
      exact skips_members ih read closed ((skips_value h token).2.1 rfl)

theorem Skippable.aligned {α : Type} {item : Reader α} (skippable : Skippable item) :
    Aligned skipValue item := by
  intro c _ stop a c₁ skipped read
  obtain ⟨fuel, c', counted, skipped⟩ := bind_eq_ok.1 skipped
  obtain ⟨-, rfl⟩ := budget_eq_ok.1 counted
  exact ⟨(skips_done (skippable [] c a c₁ stop read ⟨_, skipped⟩)).symm, trivial⟩

theorem skipValue_aligned (depth : Nat) : Aligned skipValue (value depth) :=
  (value_skippable depth).aligned

end Reader
end TextCompletion.Json
