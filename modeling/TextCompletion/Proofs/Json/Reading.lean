import TextCompletion.Proofs.Json.Strings

/-!
Values as they may be written against the readers for one kind of value. Blanks before a value are
passed, and what comes behind it does not matter as long as it does not go on with a number; a
number is read exactly up to the bound that is asked for.
-/

namespace TextCompletion.Json

/-- What follows a value does not go on with a number. -/
def Closes (rest : List UInt8) : Prop :=
  ∀ b ∈ rest.head?, isDigit b = false ∧ b ≠ 46 ∧ b ≠ 101 ∧ b ≠ 69

/-- What follows digits does not go on with them. -/
def NoDigit (rest : List UInt8) : Prop := ∀ b ∈ rest.head?, isDigit b = false

/-- The first byte is neither blank nor a comma nor a closing bracket. -/
def Opens (t : List UInt8) : Prop :=
  ∃ b more, t = b :: more ∧ Cursor.isBlankByte b = false ∧ b ≠ 44 ∧ b ≠ 93 ∧ b ≠ 125

section

variable {w rest : List UInt8} {b : UInt8} {p : Position} {first : Bool} {ts : List (List UInt8)}

theorem isBlankByte_iff : Cursor.isBlankByte b = true ↔ b = 32 ∨ b = 9 ∨ b = 10 ∨ b = 13 := by
  simp [Cursor.isBlankByte, or_assoc]

theorem exists_of_forall₂ {α β : Type} {R : α → β → Prop} {as : List α} {bs : List β}
    (related : List.Forall₂ R as bs) : ∀ b ∈ bs, ∃ a ∈ as, R a b := by
  induction related with
  | nil => exact fun _ member => nomatch member
  | @cons a b as bs first _ ih =>
    intro b' member
    rcases List.mem_cons.1 member with rfl | member
    · exact ⟨a, List.mem_cons_self, first⟩
    · obtain ⟨a', listed, holds⟩ := ih b' member
      exact ⟨a', List.mem_cons_of_mem a listed, holds⟩

theorem isBlank_nil : IsBlank [] := fun _ member => nomatch member

theorem Closes.noDigit (closes : Closes rest) : NoDigit rest := fun b head => (closes b head).1

theorem closes_nil : Closes [] := fun _ member => nomatch member

theorem Closes.of_blank (blank : IsBlank w) (closes : Closes rest) : Closes (w ++ rest) := by
  cases w with
  | nil => exact closes
  | cons b w =>
    intro b' head
    obtain rfl : b = b' := by simpa using head
    rcases blank b List.mem_cons_self with rfl | rfl | rfl | rfl <;> decide

theorem closes_of_mark (mark : b = 44 ∨ b = 93 ∨ b = 125) : Closes (b :: rest) := by
  intro b' head
  obtain rfl : b = b' := by simpa using head
  rcases mark with rfl | rfl | rfl <;> decide

theorem Leads.closes {lead : List UInt8} (leads : Leads false lead) : Closes (lead ++ rest) := by
  cases leads with
  | later blank _ =>
    rw [List.append_assoc]
    exact .of_blank blank (closes_of_mark (.inl rfl))

theorem Elements.closes {more : List UInt8} (elements : Elements false ts more)
    (mark : b = 93 ∨ b = 125) : Closes (more ++ b :: rest) := by
  cases elements with
  | done blank => exact .of_blank blank (closes_of_mark (.inr mark))
  | next leads _ =>
    rw [List.append_assoc]
    exact leads.closes

namespace Cursor

theorem skipBlank_cons (plain : isBlankByte b = false) :
    skipBlank ⟨b :: rest, p⟩ = ⟨b :: rest, p⟩ := by
  simp [skipBlank, skipWhile, skipWhile.go, plain]

theorem skipBlank_append (blank : IsBlank w) :
    skipBlank ⟨w ++ rest, p⟩ = skipBlank ⟨rest, p.afterAll w⟩ := by
  induction w generalizing p with
  | nil => rfl
  | cons b w ih =>
    have passes : isBlankByte b = true := isBlankByte_iff.2 (blank b List.mem_cons_self)
    rw [List.cons_append, Position.afterAll_cons, ← ih fun b' member => blank b' (.tail b member)]
    simp [skipBlank, skipWhile, skipWhile.go, passes]

end Cursor

/-! The first bytes of values. -/

theorem IsWhole.starts {t : List UInt8} (whole : IsWhole t) :
    ∃ b more, t = b :: more ∧ isDigit b = true := by
  cases whole with
  | zero => exact ⟨48, [], rfl, rfl⟩
  | digits digit _ _ => exact ⟨_, _, rfl, digit⟩

theorem ne_of_isDigit (digit : isDigit b = true) {x : UInt8} (other : isDigit x = false) :
    b ≠ x := by
  rintro rfl
  simp [digit] at other

theorem isBlankByte_of_isDigit (digit : isDigit b = true) : Cursor.isBlankByte b = false := by
  have other (x : UInt8) (not : isDigit x = false) : b ≠ x := ne_of_isDigit digit not
  simp [Cursor.isBlankByte, other 32 rfl, other 9 rfl, other 10 rfl, other 13 rfl]

theorem opens_of_isDigit (digit : isDigit b = true) : Opens (b :: rest) :=
  ⟨b, rest, rfl, isBlankByte_of_isDigit digit, ne_of_isDigit digit rfl, ne_of_isDigit digit rfl,
    ne_of_isDigit digit rfl⟩

theorem IsNumeral.starts {t : List UInt8} (numeral : IsNumeral t) :
    ∃ b more, t = b :: more ∧ (b = 45 ∨ isDigit b = true) := by
  obtain ⟨sign, whole, decimals, power, signed, isWhole, -, -, rfl⟩ := numeral
  obtain ⟨b, more, rfl, digit⟩ := isWhole.starts
  rcases (by simpa using signed : sign = [] ∨ sign = [45]) with rfl | rfl
  · exact ⟨b, _, rfl, .inr digit⟩
  · exact ⟨45, _, rfl, .inl rfl⟩

theorem IsNumeral.opens {t : List UInt8} (numeral : IsNumeral t) : Opens t := by
  obtain ⟨b, more, rfl, rfl | digit⟩ := numeral.starts
  · exact ⟨45, more, rfl, by decide⟩
  · exact opens_of_isDigit digit

theorem IsValue.opens {t : List UInt8} (value : IsValue t) : Opens t := by
  cases value with
  | null => exact ⟨110, _, rfl, by decide⟩
  | true => exact ⟨116, _, rfl, by decide⟩
  | false => exact ⟨102, _, rfl, by decide⟩
  | number numeral => exact numeral.opens
  | string string =>
    obtain ⟨pieces, -, rfl⟩ := string
    exact ⟨34, _, rfl, by decide⟩
  | array _ encloses =>
    obtain ⟨body, -, rfl⟩ := encloses
    exact ⟨91, _, rfl, by decide⟩
  | object _ _ object =>
    obtain ⟨ts, -, body, -, rfl⟩ := object
    exact ⟨123, _, rfl, by decide⟩

theorem IsValue.head?_eq_null {t : List UInt8} (value : IsValue t) :
    t.head? = some 110 ↔ t = nullText := by
  refine ⟨fun head => ?_, fun same => same ▸ rfl⟩
  cases value with
  | null => rfl
  | true => exact absurd head (by decide)
  | false => exact absurd head (by decide)
  | number numeral =>
    obtain ⟨b, more, rfl, rfl | digit⟩ := numeral.starts
    · exact absurd head (by simp)
    · exact absurd (Option.some.inj head) (ne_of_isDigit digit rfl)
  | string string =>
    obtain ⟨pieces, -, rfl⟩ := string
    exact absurd head (by simp)
  | array _ encloses =>
    obtain ⟨body, -, rfl⟩ := encloses
    exact absurd head (by simp)
  | object _ _ object =>
    obtain ⟨ts, -, body, -, rfl⟩ := object
    exact absurd head (by simp)

theorem Member.Writes.opens {m : Member} {t : List UInt8} (writes : m.Writes t)
    (key : IsString m.key) : Opens t := by
  obtain ⟨w, w', -, -, rfl⟩ := writes
  obtain ⟨pieces, -, whole⟩ := key
  exact ⟨34, _, by rw [whole]; rfl, by decide⟩

theorem Counts.isValue {n : Nat} {t : List UInt8} (counts : Counts n t) : IsValue t :=
  .number ⟨[], t, [], [], by simp, counts.1, .none, .none, by simp⟩

theorem Quotes.isValue {s : String} {t : List UInt8} (quoted : Quotes s t) : IsValue t :=
  .string quoted.isString

theorem Counts.notNull {n : Nat} {t : List UInt8} (counts : Counts n t) :
    t.head? ≠ some 110 := by
  obtain ⟨b, more, rfl, digit⟩ := counts.1.starts
  simpa using ne_of_isDigit digit (x := 110) rfl

theorem Quotes.notNull {s : String} {t : List UInt8} (quoted : Quotes s t) :
    t.head? ≠ some 110 := by
  obtain ⟨body, -, rfl⟩ := quoted
  simp

theorem Lists.notNull {α : Type} {writes : α → List UInt8 → Prop} {items : List α}
    {t : List UInt8} (lists : Lists writes items t) : t.head? ≠ some 110 := by
  obtain ⟨ts, -, body, -, rfl⟩ := lists
  simp

theorem Lists.isValue {α : Type} {writes : α → List UInt8 → Prop} {items : List α}
    {t : List UInt8} (lists : Lists writes items t) (each : ∀ a t, writes a t → IsValue t) :
    IsValue t := by
  obtain ⟨ts, written, encloses⟩ := lists
  refine .array (fun t member => ?_) encloses
  obtain ⟨a, -, written⟩ := exists_of_forall₂ written t member
  exact each a t written

theorem Elements.length_le {text : List UInt8} (elements : Elements first ts text)
    (opens : ∀ t ∈ ts, Opens t) : ts.length ≤ text.length := by
  induction elements with
  | done => exact Nat.zero_le _
  | @next first lead t more ts leads elements ih =>
    obtain ⟨b, tail, rfl, -⟩ := opens t List.mem_cons_self
    have shorter := ih fun other member => opens other (List.mem_cons_of_mem _ member)
    simp only [List.length_cons, List.length_append]
    omega

end

/-! Digits as far as they fit. -/

/-- The value of the digits as far as it fits 64 bits when they follow a number, and the digits that
are left. -/
def leading : Nat → List UInt8 → Nat × List UInt8
  | n, [] => (n, [])
  | n, d :: ds =>
    if n * 10 + (d.toNat - 48) ≤ Decimal.wordBound then leading (n * 10 + (d.toNat - 48)) ds
    else (n, d :: ds)

theorem exists_leading (n : Nat) (ds : List UInt8) :
    ∃ used, ds = used ++ (leading n ds).2 ∧ (leading n ds).1 = wholeFrom n used := by
  induction ds generalizing n with
  | nil => exact ⟨[], rfl, rfl⟩
  | cons d ds ih =>
    rw [leading]
    split
    · obtain ⟨used, split, value⟩ := ih (n * 10 + (d.toNat - 48))
      exact ⟨d :: used, by rw [List.cons_append, ← split], value⟩
    · exact ⟨[], rfl, rfl⟩

theorem leading_zero_cons (d : UInt8) (ds : List UInt8) :
    leading 0 (d :: ds) = leading (d.toNat - 48) ds := by
  have small : d.toNat - 48 ≤ Decimal.wordBound :=
    Nat.le_trans (Nat.sub_le _ _) (Nat.le_trans (Nat.le_of_lt d.toNat_lt) (by decide))
  rw [leading, Nat.zero_mul, Nat.zero_add, if_pos small]

namespace Reader

variable {α β : Type}

/-- Wherever the text stands, after blanks, the reader takes it for the value and stops at its
end. -/
def Reads (r : Reader α) (t : List UInt8) (a : α) : Prop :=
  ∀ w rest p, IsBlank w → Closes rest →
    r ⟨w ++ (t ++ rest), p⟩ = .ok a ⟨rest, (p.afterAll w).afterAll t⟩

section

variable {r : Reader α} {t w rest lead more : List UInt8} {a : α} {b : UInt8} {p : Position}
  {first : Bool}

theorem peekToken_blank (blank : IsBlank w) (plain : Cursor.isBlankByte b = false) :
    peekToken ⟨w ++ b :: rest, p⟩ = .ok (some b) ⟨b :: rest, p.afterAll w⟩ := by
  refine peekToken_eq_ok.2 ?_
  rw [Cursor.skipBlank_append blank, Cursor.skipBlank_cons plain]
  exact ⟨rfl, rfl⟩

theorem Reads.here (reads : Reads r t a) (closes : Closes rest) :
    r ⟨t ++ rest, p⟩ = .ok a ⟨rest, p.afterAll t⟩ :=
  reads [] rest p isBlank_nil closes

theorem Reads.bind {f : α → Reader β} {b : β} (reads : Reads r t a)
    (done : ∀ c, f a c = .ok b c) : Reads (r >>= f) t b := by
  intro w rest p blank closes
  rw [bind_of_ok (reads w rest p blank closes), done]

theorem Reads.map (reads : Reads r t a) (f : α → β) {b : β} (same : f a = b) :
    Reads (do pure (f (← r))) t b :=
  reads.bind fun _ => same ▸ rfl

theorem Reads.of_token {f : Option UInt8 → Reader α} (plain : Cursor.isBlankByte b = false)
    (reads : ∀ rest p, Closes rest →
      f (some b) ⟨b :: (more ++ rest), p⟩ = .ok a ⟨rest, p.afterAll (b :: more)⟩) :
    Reads (peekToken >>= f) (b :: more) a := by
  intro w rest p blank closes
  rw [List.cons_append, bind_of_ok (peekToken_blank blank plain), reads _ _ closes]

/-! ## Texts and words -/

theorem reads_text {s : String} (quoted : Quotes s t) : Reads text t s := by
  obtain ⟨body, spelled, rfl⟩ := quoted
  refine .of_token rfl fun rest p _ => ?_
  rw [List.append_assoc, Position.afterAll_cons, Position.afterAll_append]
  exact (bind_of_ok (advance_cons 34 _ p)).trans (textTail_spells spelled)

theorem word_append (letters : List UInt8) :
    word letters ⟨letters ++ rest, p⟩ = .ok () ⟨rest, p.afterAll letters⟩ := by
  induction letters generalizing p with
  | nil => rfl
  | cons b letters ih =>
    have next : next ⟨b :: letters ++ rest, p⟩ = .ok (some b) ⟨letters ++ rest, p.after b⟩ := rfl
    rw [word, bind_of_ok next]
    simp only [if_true]
    rw [ih]
    rfl

theorem advance_word (letters : List UInt8) (a : α) :
    (do advance; word letters; pure a : Reader α) ⟨b :: (letters ++ rest), p⟩ =
      .ok a ⟨rest, p.afterAll (b :: letters)⟩ := by
  rw [bind_of_ok (advance_cons b _ p), bind_of_ok (word_append letters)]
  rfl

theorem reads_null : Reads (optional r) nullText none :=
  .of_token rfl fun _ _ _ => advance_word nullTail none

theorem reads_some (reads : Reads r t a) (value : IsValue t) (notNull : t.head? ≠ some 110) :
    Reads (optional r) t (some a) := by
  obtain ⟨b, more, rfl, plain, -⟩ := value.opens
  refine .of_token plain fun rest p closes => ?_
  have other : b ≠ 110 := by simpa using notNull
  simp only [Option.some.injEq, other, imp_self]
  exact bind_of_ok (reads.here closes)

theorem reads_nullable {writes : α → List UInt8 → Prop} {o : Option α}
    (nullable : Nullable writes o t)
    (each : ∀ a ∈ o, writes a t → Reads r t a ∧ IsValue t ∧ t.head? ≠ some 110) :
    Reads (optional r) t o := by
  cases o with
  | none =>
    obtain rfl : t = nullText := nullable
    exact reads_null
  | some a =>
    obtain ⟨reads, value, notNull⟩ := each a rfl nullable
    exact reads_some reads value notNull

theorem reads_optional_text {o : Option String} (written : Nullable Quotes o t) :
    Reads (optional text) t o :=
  reads_nullable written fun _ _ quoted => ⟨reads_text quoted, quoted.isValue, quoted.notNull⟩

/-! ## Numbers -/

theorem le_wholeFrom (n : Nat) (ds : List UInt8) : n ≤ wholeFrom n ds := by
  induction ds generalizing n with
  | nil => exact Nat.le_refl n
  | cons d ds ih => exact Nat.le_trans (by omega) (ih (n * 10 + (d.toNat - 48)))

theorem isDigits_nil : IsDigits [] := fun _ member => nomatch member

theorem skipWhile_digits {ds : List UInt8} (all : IsDigits ds) (stops : NoDigit rest) :
    Cursor.skipWhile isDigit ⟨ds ++ rest, p⟩ = ⟨rest, p.afterAll ds⟩ := by
  induction ds generalizing p with
  | nil =>
    cases rest with
    | nil => rfl
    | cons b rest =>
      simp [Cursor.skipWhile, Cursor.skipWhile.go, stops b rfl, Position.afterAll]
  | cons d ds ih =>
    have digit := all d List.mem_cons_self
    rw [Position.afterAll_cons, ← ih fun d' member => all d' (List.mem_cons_of_mem d member)]
    simp [Cursor.skipWhile, Cursor.skipWhile.go, digit]

theorem skipDigits_append {ds : List UInt8} (all : IsDigits ds) (stops : NoDigit rest) :
    skipDigits ⟨ds ++ rest, p⟩ = .ok ds.length ⟨rest, p.afterAll ds⟩ := by
  refine skipDigits_eq_ok.2 ⟨?_, skipWhile_digits all stops⟩
  rw [skipWhile_digits all stops, List.length_append, Nat.add_sub_cancel]

theorem exists_digits_go {ds : List UInt8} (n count : Nat) (p : Position) (all : IsDigits ds)
    (stops : NoDigit rest) : ∃ used, ds = used ++ (leading n ds).2 ∧
      digits.go n count (ds ++ rest) p = .ok ((leading n ds).1, count + used.length)
        ⟨(leading n ds).2 ++ rest, p.afterAll used⟩ := by
  induction ds generalizing n count p with
  | nil =>
    refine ⟨[], rfl, ?_⟩
    cases rest with
    | nil => rfl
    | cons b rest => simp [digits.go, stops b rfl, leading, Position.afterAll]
  | cons d ds ih =>
    have digit := all d List.mem_cons_self
    rw [List.cons_append, digits.go]
    by_cases small : n * 10 + (d.toNat - 48) ≤ Decimal.wordBound
    · obtain ⟨used, split, read⟩ := ih (n * 10 + (d.toNat - 48)) (count + 1) (p.after d)
        fun d' member => all d' (List.mem_cons_of_mem d member)
      simp only [digit, small, decide_true, Bool.and_self, if_true, leading]
      refine ⟨d :: used, by rw [List.cons_append, ← split], ?_⟩
      rw [read, List.length_cons, Nat.add_assoc, Nat.add_comm 1]
      rfl
    · refine ⟨[], by rw [leading, if_neg small, List.nil_append], ?_⟩
      simp only [leading, small, decide_false, Bool.and_false, Bool.false_eq_true, if_false]
      rfl

theorem digits_bind {n : Nat} {ds : List UInt8} {f : Nat × Nat → Nat → Reader α}
    (all : IsDigits ds) (stops : NoDigit rest) :
    (do let x ← digits n; let dropped ← skipDigits; f x dropped) ⟨ds ++ rest, p⟩ =
      f ((leading n ds).1, ds.length - (leading n ds).2.length) (leading n ds).2.length
        ⟨rest, p.afterAll ds⟩ := by
  have reads : ∃ used, ds = used ++ (leading n ds).2 ∧ digits n ⟨ds ++ rest, p⟩ =
      .ok ((leading n ds).1, 0 + used.length) ⟨(leading n ds).2 ++ rest, p.afterAll used⟩ :=
    exists_digits_go n 0 p all stops
  obtain ⟨used, split, read⟩ := reads
  have left : IsDigits (leading n ds).2 := fun d member =>
    all d (by rw [split]; exact List.mem_append_right _ member)
  have count : ds.length - (leading n ds).2.length = 0 + used.length := by
    have total := congrArg List.length split
    rw [List.length_append] at total
    omega
  have places : p.afterAll ds = (p.afterAll used).afterAll (leading n ds).2 := by
    rw [← Position.afterAll_append, ← split]
  rw [bind_of_ok read, bind_of_ok (skipDigits_append left stops), count, places]

theorem peek_bind {f : Option UInt8 → Reader α} :
    (peek >>= f) ⟨rest, p⟩ = f rest.head? ⟨rest, p⟩ := rfl

theorem peekDigit_noDigit (stops : NoDigit rest) :
    peekDigit ⟨rest, p⟩ = .ok false ⟨rest, p⟩ := by
  cases rest with
  | nil => rfl
  | cons b rest =>
    change EStateM.Result.ok (isDigit b) _ = _
    rw [stops b rfl]

theorem afterDigits_closes {n dropped : Nat} (negative : Bool) (closes : Closes rest) :
    unsigned.afterDigits negative n dropped ⟨rest, p⟩ =
      unsigned.whole negative n dropped ⟨rest, p⟩ := by
  unfold unsigned.afterDigits
  rw [peek_bind]
  cases rest with
  | nil => rfl
  | cons b rest =>
    obtain ⟨-, point, small, capital⟩ := closes b rfl
    simp only [List.head?_cons, small, capital, or_self, if_false]

theorem unsigned_whole {whole : List UInt8} (negative : Bool) (isWhole : IsWhole whole)
    (stops : NoDigit rest) :
    unsigned negative ⟨whole ++ rest, p⟩ =
      unsigned.afterDigits negative (leading 0 whole).1 (leading 0 whole).2.length
        ⟨rest, p.afterAll whole⟩ := by
  unfold unsigned
  cases isWhole with
  | zero =>
    have next : next ⟨[48] ++ rest, p⟩ = .ok (some 48) ⟨rest, p.after 48⟩ := rfl
    rw [bind_of_ok next]
    simp only [if_true]
    exact bind_of_ok (peekDigit_noDigit stops)
  | @digits d ds digit positive digits =>
    have next : next ⟨d :: ds ++ rest, p⟩ = .ok (some d) ⟨ds ++ rest, p.after d⟩ := rfl
    rw [bind_of_ok next, leading_zero_cons]
    simp only [if_neg positive, if_pos digit]
    exact digits_bind digits stops

theorem leading_of_fits {n : Nat} {ds : List UInt8} (fits : wholeFrom n ds ≤ Decimal.wordBound) :
    leading n ds = (wholeFrom n ds, []) := by
  induction ds generalizing n with
  | nil => rfl
  | cons d ds ih =>
    rw [leading, if_pos (Nat.le_trans (le_wholeFrom _ ds) fits)]
    exact ih fits

theorem unsigned_counts {n : Nat} (counts : Counts n t) (fits : n ≤ Decimal.wordBound)
    (closes : Closes rest) :
    unsigned false ⟨t ++ rest, p⟩ = .ok (.natural n) ⟨rest, p.afterAll t⟩ := by
  obtain ⟨whole, rfl⟩ := counts
  rw [unsigned_whole false whole closes.noDigit, leading_of_fits fits,
    afterDigits_closes false closes]
  rfl

theorem reads_natural {n bound : Nat} (type : String) (counts : Counts n t) (le : n ≤ bound)
    (fits : n ≤ Decimal.wordBound) : Reads (natural bound type) t n := by
  obtain ⟨b, more, rfl, digit⟩ := counts.1.starts
  have plain := isBlankByte_of_isDigit digit
  refine .of_token plain fun rest p closes => ?_
  have minus : b ≠ 45 := ne_of_isDigit digit rfl
  simp only [digit, minus, or_true, if_true, if_false]
  rw [← List.cons_append, bind_of_ok (unsigned_counts counts fits closes)]
  simp only [boundedNatural, if_pos le]
  rfl

/-! ## Values of any kind -/

theorem reads_value {depth : Nat} {v : Json} (plain : Cursor.isBlankByte b = false)
    (reads : ∀ rest p, Closes rest →
      valueAt depth b ⟨b :: (more ++ rest), p⟩ = .ok v ⟨rest, p.afterAll (b :: more)⟩) :
    Reads (value depth) (b :: more) v := by
  rw [value_eq]
  exact .of_token plain reads

theorem reads_value_null (depth : Nat) : Reads (value depth) nullText .null :=
  reads_value rfl fun _ _ _ => advance_word nullTail Json.null

theorem reads_value_true (depth : Nat) : Reads (value depth) trueText (.boolean true) :=
  reads_value rfl fun _ _ _ => advance_word trueTail (Json.boolean true)

theorem reads_value_false (depth : Nat) : Reads (value depth) falseText (.boolean false) :=
  reads_value rfl fun _ _ _ => advance_word falseTail (Json.boolean false)

theorem reads_value_natural (depth : Nat) {n : Nat} (counts : Counts n t)
    (fits : n ≤ Decimal.wordBound) : Reads (value depth) t (.number (.natural n)) := by
  obtain ⟨b, more, rfl, digit⟩ := counts.1.starts
  have plain := isBlankByte_of_isDigit digit
  refine reads_value plain fun rest p closes => ?_
  rw [valueAt_digit depth digit, ← List.cons_append,
    bind_of_ok (unsigned_counts counts fits closes)]
  rfl

/-! ## Lists -/

theorem nextElement_done (first : Bool) (blank : IsBlank w) :
    nextElement first ⟨w ++ 93 :: rest, p⟩ = .ok false ⟨93 :: rest, p.afterAll w⟩ := by
  unfold nextElement
  rw [bind_of_ok (peekToken_blank blank rfl)]
  rfl

theorem nextElement_leads (leads : Leads first lead) (opens : Opens t) :
    nextElement first ⟨lead ++ (t ++ rest), p⟩ = .ok true ⟨t ++ rest, p.afterAll lead⟩ := by
  obtain ⟨b, more, rfl, plain, -, close, -⟩ := opens
  rw [List.cons_append]
  unfold nextElement
  cases leads with
  | first blank =>
    rw [bind_of_ok (peekToken_blank blank plain)]
    simp only [if_true]
    rfl
  | later blank blank' =>
    rw [List.append_assoc, List.cons_append, bind_of_ok (peekToken_blank blank rfl),
      Position.afterAll_append, Position.afterAll_cons]
    refine (bind_of_ok (advance_cons 44 _ _)).trans ?_
    rw [bind_of_ok (peekToken_blank blank' plain)]
    simp only
    rfl

theorem elementsFrom_reads {item : Reader α} {items : List α} {ts : List (List UInt8)}
    (reads : List.Forall₂ (fun a t => Reads item t a) items ts) (values : ∀ t ∈ ts, IsValue t)
    {text : List UInt8} (elements : Elements first ts text) {fuel : Nat}
    (enough : ts.length < fuel) :
    elementsFrom item fuel first ⟨text ++ 93 :: rest, p⟩ =
      .ok items ⟨93 :: rest, p.afterAll text⟩ := by
  -- on the elements as they are written; each takes one unit of the fuel
  induction elements generalizing items fuel p with
  | @done first w blank =>
    obtain ⟨fuel, rfl⟩ := Nat.exists_eq_succ_of_ne_zero (Nat.ne_zero_of_lt enough)
    cases reads
    rw [elementsFrom, bind_of_ok (nextElement_done first blank)]
    rfl
  | @next first lead t more ts leads elements ih =>
    obtain ⟨fuel, rfl⟩ := Nat.exists_eq_succ_of_ne_zero (Nat.ne_zero_of_lt enough)
    cases reads with
    | @cons a _ items _ read reads =>
      have others := ih reads (fun t' member => values t' (List.mem_cons_of_mem t member))
        (Nat.lt_of_succ_lt_succ enough) (p := (p.afterAll lead).afterAll t)
      rw [elementsFrom, List.append_assoc, List.append_assoc,
        bind_of_ok (nextElement_leads leads (values t List.mem_cons_self).opens)]
      simp only [if_true]
      rw [bind_of_ok (read.here (elements.closes (.inl rfl))), bind_of_ok others,
        Position.afterAll_append, Position.afterAll_append]
      rfl

theorem closeArray_cons : closeArray ⟨93 :: rest, p⟩ = .ok () ⟨rest, p.after 93⟩ := rfl

theorem closedBy_elements {item : Reader α} {items : List α} {ts : List (List UInt8)}
    (reads : List.Forall₂ (fun a t => Reads item t a) items ts) (values : ∀ t ∈ ts, IsValue t)
    {body : List UInt8} (body' : Elements true ts body) :
    closedBy closeArray (elements item) ⟨body ++ 93 :: rest, p⟩ =
      .ok items ⟨rest, (p.afterAll body).after 93⟩ := by
  refine closedBy_eq_ok.2 ⟨⟨93 :: rest, p.afterAll body⟩, ?_, closeArray_cons⟩
  have shorter := body'.length_le fun t member => (values t member).opens
  refine (bind_of_ok (budget_eq_ok.2 ⟨rfl, rfl⟩)).trans (elementsFrom_reads reads values body' ?_)
  rw [List.length_append]
  omega

theorem reads_list {item : Reader α} {items : List α} {ts : List (List UInt8)}
    (reads : List.Forall₂ (fun a t => Reads item t a) items ts) (values : ∀ t ∈ ts, IsValue t)
    (encloses : Encloses 91 93 ts t) : Reads (list item) t items := by
  obtain ⟨body, elements, rfl⟩ := encloses
  refine .of_token rfl fun rest p _ => ?_
  rw [List.append_assoc, Position.afterAll_cons, Position.afterAll_append]
  exact (bind_of_ok (advance_cons 91 _ p)).trans (closedBy_elements reads values elements)

theorem reads_value_array (depth : Nat) {items : List Json} {ts : List (List UInt8)}
    (reads : List.Forall₂ (fun v t => Reads (value depth) t v) items ts)
    (values : ∀ t ∈ ts, IsValue t) (encloses : Encloses 91 93 ts t) :
    Reads (value (depth + 1)) t (.array items) := by
  obtain ⟨body, elements, rfl⟩ := encloses
  refine reads_value rfl fun rest p _ => ?_
  rw [valueAt_array, List.append_assoc, Position.afterAll_cons, Position.afterAll_append,
    bind_of_ok (advance_cons 91 _ p)]
  exact bind_of_ok (closedBy_elements reads values elements)

end

end Reader
end TextCompletion.Json
