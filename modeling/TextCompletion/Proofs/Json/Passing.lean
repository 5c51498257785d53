import TextCompletion.Proofs.Json.Reading

/-!
A value that is not wanted is passed, however it is written and however deep it is. The skipping
run is followed round by round, with the fuel that it uses counted against the bytes that it
passes. Every reader of one kind of value stops where the skipping run stops, so none of them goes
on into what follows.
-/

namespace TextCompletion.Json

/-! ## Numbers -/

section

variable {rest : List UInt8}

theorem IsPower.noDigit {power : List UInt8} (isPower : IsPower power) (closes : Closes rest) :
    NoDigit (power ++ rest) := by
  cases isPower with
  | none => exact closes.noDigit
  | mark mark _ _ _ =>
    intro b head
    obtain rfl := Option.some.inj head
    rcases mark with rfl | rfl <;> rfl

theorem IsDecimals.noDigit {decimals : List UInt8} (isDecimals : IsDecimals decimals)
    (stops : NoDigit rest) : NoDigit (decimals ++ rest) := by
  cases isDecimals with
  | none => exact stops
  | point _ _ =>
    intro b head
    obtain rfl := Option.some.inj head
    rfl

end

namespace Reader

variable {t w rest more : List UInt8} {p : Position} {b : UInt8} {frames : List Frame}

theorem exponentSign_append (rest : List UInt8) (p : Position) {sign : List UInt8}
    (signed : sign ∈ [[], [43], [45]]) (digit : isDigit b = true) :
    exponentSign ⟨sign ++ b :: rest, p⟩ =
      .ok (decide (sign = [45])) ⟨b :: rest, p.afterAll sign⟩ := by
  rcases (by simpa using signed : sign = [] ∨ sign = [43] ∨ sign = [45]) with rfl | rfl | rfl
  · have plus : b ≠ 43 := ne_of_isDigit digit rfl
    have minus : b ≠ 45 := ne_of_isDigit digit rfl
    unfold exponentSign
    rw [peek_bind]
    simp only [List.nil_append, List.head?_cons, Option.some.injEq, plus, minus, imp_self]
    rfl
  · rfl
  · rfl

theorem skipUnsigned_exponent {power : List UInt8} (isPower : IsPower power) (some : power ≠ [])
    (closes : Closes rest) :
    skipUnsigned.exponent ⟨power ++ rest, p⟩ = .ok () ⟨rest, p.afterAll power⟩ := by
  cases isPower with
  | none => exact absurd rfl some
  | @mark e d sign ds mark signed digit digits =>
    have passed := exponentSign_append (ds ++ rest) (p.after e) signed digit
    have next (p : Position) : next ⟨d :: (ds ++ rest), p⟩ =
      .ok (Option.some d) ⟨ds ++ rest, p.after d⟩ := rfl
    have skipped (p : Position) : skipDigits ⟨ds ++ rest, p⟩ = _ :=
      skipDigits_append digits closes.noDigit
    unfold skipUnsigned.exponent
    simp only [List.cons_append, List.append_assoc, Position.afterAll_cons,
      Position.afterAll_append]
    rw [bind_of_ok (advance_cons e _ p), bind_of_ok passed, bind_of_ok (next _)]
    simp only [digit, if_true]
    rw [bind_of_ok (skipped _)]
    rfl

theorem peekExponentMark_power {power : List UInt8} (isPower : IsPower power)
    (closes : Closes rest) :
    peekExponentMark ⟨power ++ rest, p⟩ = .ok (power ≠ []) ⟨power ++ rest, p⟩ := by
  cases isPower with
  | none =>
    cases rest with
    | nil => rfl
    | cons b rest =>
      obtain ⟨-, -, small, capital⟩ := closes b rfl
      change EStateM.Result.ok (b == 101 || b == 69) _ = _
      simp [small, capital]
  | mark mark _ _ _ => rcases mark with rfl | rfl <;> rfl

theorem skipUnsigned_rest {decimals power : List UInt8} (isDecimals : IsDecimals decimals)
    (isPower : IsPower power) (closes : Closes rest) :
    skipUnsigned.rest ⟨decimals ++ (power ++ rest), p⟩ =
      .ok () ⟨rest, (p.afterAll decimals).afterAll power⟩ := by
  have exponent (p : Position) :
      (do if ← peekExponentMark then skipUnsigned.exponent : Reader Unit) ⟨power ++ rest, p⟩ =
        .ok () ⟨rest, p.afterAll power⟩ := by
    rw [bind_of_ok (peekExponentMark_power isPower closes)]
    by_cases none : power = []
    · subst none
      rfl
    · simpa only [none, ne_eq, not_false_eq_true, decide_true, if_true] using
        skipUnsigned_exponent isPower none closes
  unfold skipUnsigned.rest
  rw [peek_bind]
  cases isDecimals with
  | none =>
    cases isPower with
    | none =>
      cases rest with
      | nil => rfl
      | cons b rest =>
        obtain ⟨-, point, small, capital⟩ := closes b rfl
        simp only [List.nil_append, List.head?_cons, small, capital, or_self, if_false]
        rfl
    | mark mark _ _ _ =>
      rcases mark with rfl | rfl <;> exact exponent p
  | @point d ds digit digits =>
    have all : IsDigits (d :: ds) := List.forall_mem_cons.2 ⟨digit, digits⟩
    have passed := skipDigits_append (p := p.after 46) all (isPower.noDigit closes)
    exact (bind_of_ok (advance_cons 46 _ p)).trans ((bind_of_ok passed).trans (exponent _))

theorem skipUnsigned_append {whole decimals power : List UInt8} (isWhole : IsWhole whole)
    (isDecimals : IsDecimals decimals) (isPower : IsPower power) (closes : Closes rest) :
    skipUnsigned ⟨whole ++ (decimals ++ (power ++ rest)), p⟩ =
      .ok () ⟨rest, ((p.afterAll whole).afterAll decimals).afterAll power⟩ := by
  have stops := isDecimals.noDigit (isPower.noDigit closes)
  have tail (p : Position) := skipUnsigned_rest (p := p) isDecimals isPower closes
  unfold skipUnsigned
  cases isWhole with
  | zero =>
    have next : next ⟨[48] ++ (decimals ++ (power ++ rest)), p⟩ =
      .ok (some 48) ⟨decimals ++ (power ++ rest), p.after 48⟩ := rfl
    have last := peekDigit_noDigit (p := p.after 48) stops
    rw [bind_of_ok next]
    simp only [if_true]
    rw [bind_of_ok last]
    exact tail _
  | @digits d ds digit positive digits =>
    have next : next ⟨d :: ds ++ (decimals ++ (power ++ rest)), p⟩ =
      .ok (some d) ⟨ds ++ (decimals ++ (power ++ rest)), p.after d⟩ := rfl
    rw [bind_of_ok next]
    simp only [if_neg positive, if_pos digit]
    rw [bind_of_ok (skipDigits_append digits stops)]
    exact tail _

/-! ## Rounds -/

def SkipsScalar (t : List UInt8) : Prop :=
  ∃ b more, t = b :: more ∧ b ≠ 91 ∧ b ≠ 123 ∧ ∀ rest p, Closes rest →
    skipScalar b ⟨b :: (more ++ rest), p⟩ = .ok () ⟨rest, p.afterAll (b :: more)⟩

theorem skipsScalar_numeral (numeral : IsNumeral t) : SkipsScalar t := by
  obtain ⟨sign, whole, decimals, power, signed, isWhole, isDecimals, isPower, rfl⟩ := numeral
  rcases (by simpa using signed : sign = [] ∨ sign = [45]) with rfl | rfl
  · obtain ⟨b, more, rfl, digit⟩ := isWhole.starts
    have other (x : UInt8) (not : isDigit x = false) : b ≠ x := ne_of_isDigit digit not
    refine ⟨b, _, rfl, other 91 rfl, other 123 rfl, fun rest p closes => ?_⟩
    have passed := skipUnsigned_append (p := p) isWhole isDecimals isPower closes
    simp only [skipScalar, if_neg (other 110 rfl), if_neg (other 116 rfl), if_neg (other 102 rfl),
      if_neg (other 45 rfl), if_pos digit]
    simpa [Position.afterAll_append, Position.afterAll_cons] using passed
  · refine ⟨45, _, rfl, by decide, by decide, fun rest p closes => ?_⟩
    have passed := skipUnsigned_append (p := p.after 45) isWhole isDecimals isPower closes
    have step : skipScalar 45 = (do advance; skipUnsigned) := rfl
    rw [step, bind_of_ok (advance_cons 45 _ p)]
    simpa [Position.afterAll_append, Position.afterAll_cons] using passed

theorem skipsScalar_string (string : IsString t) : SkipsScalar t := by
  obtain ⟨pieces, all, rfl⟩ := string
  refine ⟨34, _, rfl, by decide, by decide, fun rest p closes => ?_⟩
  have step : skipScalar 34 = (do advance; skipTextTail) := rfl
  rw [step, bind_of_ok (advance_cons 34 _ p), List.append_assoc, Position.afterAll_cons,
    Position.afterAll_append]
  exact scanSkipped_pieces all

/-- In so many rounds the skipping run comes from one place to another, whatever fuel is left. -/
def Rounds (n : Nat) (step : SkipStep) (frames : List Frame) (c : Cursor) (step' : SkipStep)
    (frames' : List Frame) (c' : Cursor) : Prop :=
  ∀ fuel, skipFrom (fuel + n) step frames c = skipFrom fuel step' frames' c'

theorem Rounds.trans {n m : Nat} {step₁ step₂ step₃ : SkipStep}
    {frames₁ frames₂ frames₃ : List Frame} {c₁ c₂ c₃ : Cursor}
    (first : Rounds n step₁ frames₁ c₁ step₂ frames₂ c₂)
    (second : Rounds m step₂ frames₂ c₂ step₃ frames₃ c₃) :
    Rounds (n + m) step₁ frames₁ c₁ step₃ frames₃ c₃ := by
  intro fuel
  rw [Nat.add_comm n m, ← Nat.add_assoc, first, second]

/-- Skipping passes the text as a value in at most two rounds for each byte. -/
def SkipsValue (t : List UInt8) : Prop :=
  ∃ n ≤ 2 * t.length, ∀ frames w rest p, IsBlank w → Closes rest →
    Rounds n .value frames ⟨w ++ (t ++ rest), p⟩ .afterValue frames
      ⟨rest, (p.afterAll w).afterAll t⟩

theorem SkipsScalar.skipsValue (scalar : SkipsScalar t) (opens : Opens t) : SkipsValue t := by
  obtain ⟨b, more, rfl, array, object, skips⟩ := scalar
  obtain ⟨_, _, ⟨⟩, plain, -⟩ := opens
  refine ⟨1, by simp only [List.length_cons]; omega, fun frames w rest p blank closes fuel => ?_⟩
  rw [skipFrom, List.cons_append, bind_of_ok (peekToken_blank blank plain)]
  simp only [if_neg array, if_neg object]
  rw [bind_of_ok (skips _ _ closes)]

def opening : Frame → UInt8
  | .array => 91
  | .object => 123

def closing : Frame → UInt8
  | .array => 93
  | .object => 125

def SkipsElement (frame : Frame) (t : List UInt8) : Prop :=
  ∃ n ≤ 2 * t.length + 1, ∀ first lead frames rest p, Leads first lead → Closes rest →
    Rounds n (stepBefore first) (frame :: frames) ⟨lead ++ (t ++ rest), p⟩ .afterValue
      (frame :: frames) ⟨rest, (p.afterAll lead).afterAll t⟩

theorem rounds_opening (frame : Frame) (blank : IsBlank w) :
    Rounds 1 .value frames ⟨w ++ opening frame :: rest, p⟩ (stepBefore true) (frame :: frames)
      ⟨rest, (p.afterAll w).after (opening frame)⟩ := by
  intro fuel
  cases frame <;>
    exact (bind_of_ok (peekToken_blank blank rfl)).trans (bind_of_ok (advance_cons _ _ _))

theorem rounds_closing (frame : Frame) (first : Bool) (blank : IsBlank w) :
    Rounds 1 (stepBefore first) (frame :: frames) ⟨w ++ closing frame :: rest, p⟩ .afterValue frames
      ⟨rest, (p.afterAll w).after (closing frame)⟩ := by
  intro fuel
  cases first <;> cases frame <;>
    exact (bind_of_ok (peekToken_blank blank rfl)).trans (bind_of_ok (advance_cons _ _ _))

/-- All elements or members up to the closing bracket, and this bracket. -/
theorem rounds_elements {frame : Frame} {first : Bool} {ts : List (List UInt8)} {body : List UInt8}
    (elements : Elements first ts body) (skips : ∀ t ∈ ts, SkipsElement frame t) :
    ∃ n ≤ 2 * body.length + (if first then 2 else 1), ∀ frames rest p,
      Rounds n (stepBefore first) (frame :: frames) ⟨body ++ closing frame :: rest, p⟩ .afterValue
        frames ⟨rest, (p.afterAll body).after (closing frame)⟩ := by
  induction elements with
  | @done first w blank =>
    exact ⟨1, by cases first <;> simp, fun frames rest p => rounds_closing frame first blank⟩
  | @next first lead t more ts leads elements ih =>
    obtain ⟨n, few, passed⟩ := skips t List.mem_cons_self
    obtain ⟨m, few', others⟩ := ih fun t' member => skips t' (List.mem_cons_of_mem t member)
    refine ⟨n + m, ?_, fun frames rest p => ?_⟩
    -- the first element has no comma whose byte would count for the round before its value
    · cases leads with
      | first _ =>
        simp only [List.length_append, Bool.false_eq_true, if_false, if_true] at few' ⊢
        omega
      | later _ _ =>
        simp only [List.length_append, List.length_cons, Bool.false_eq_true, if_false] at few' ⊢
        omega
    · have mark : closing frame = 93 ∨ closing frame = 125 := by cases frame <;> simp [closing]
      have closes : Closes (more ++ closing frame :: rest) := elements.closes mark
      rw [List.append_assoc, List.append_assoc, Position.afterAll_append, Position.afterAll_append]
      exact (passed first lead frames _ p leads closes).trans (others frames rest _)

def entry : Frame → Reader Unit
  | .array => pure ()
  | .object => skipKey

theorem skipFrom_leads (frame : Frame) (frames : List Frame) {first : Bool} {lead : List UInt8}
    (leads : Leads first lead) (opens : Opens t) :
    ∃ w p', IsBlank w ∧ p'.afterAll w = p.afterAll lead ∧ ∀ fuel,
      skipFrom (fuel + 1) (stepBefore first) (frame :: frames) ⟨lead ++ (t ++ rest), p⟩ =
        (do entry frame; skipFrom fuel .value (frame :: frames)) ⟨w ++ (t ++ rest), p'⟩ := by
  obtain ⟨b, more, rfl, plain, -, array, object⟩ := opens
  cases leads with
  | first blank =>
    refine ⟨[], p.afterAll lead, isBlank_nil, rfl, fun fuel => ?_⟩
    cases frame with
    | array =>
      refine (bind_of_ok (peekToken_blank blank plain)).trans ?_
      simp only [if_neg array]
      rfl
    | object =>
      refine (bind_of_ok (peekToken_blank blank plain)).trans ?_
      simp only [if_neg object]
      rfl
  | @later w w' blank blank' =>
    refine ⟨w', (p.afterAll w).after 44, blank', ?_, fun fuel => ?_⟩
    · rw [Position.afterAll_append, Position.afterAll_cons]
    · rw [List.append_assoc, List.cons_append]
      cases frame with
      | array =>
        exact (bind_of_ok (peekToken_blank blank rfl)).trans (bind_of_ok (advance_cons 44 _ _))
      | object =>
        exact (bind_of_ok (peekToken_blank blank rfl)).trans (bind_of_ok (advance_cons 44 _ _))

theorem skipsElement_array (value : IsValue t) (skips : SkipsValue t) : SkipsElement .array t := by
  obtain ⟨n, few, passed⟩ := skips
  refine ⟨n + 1, by omega, fun first lead frames rest p leads closes fuel => ?_⟩
  obtain ⟨w, p', blank, same, entered⟩ := skipFrom_leads .array frames leads value.opens
  rw [← Nat.add_assoc, entered, ← same]
  exact passed _ w rest p' blank closes fuel

theorem skipKey_isString {key w' : List UInt8} (string : IsString key) (blank : IsBlank w)
    (blank' : IsBlank w') :
    skipKey ⟨w ++ (key ++ (w' ++ 58 :: rest)), p⟩ =
      .ok () ⟨rest, (((p.afterAll w).afterAll key).afterAll w').after 58⟩ := by
  obtain ⟨pieces, all, rfl⟩ := string
  rw [List.cons_append, List.append_assoc, Position.afterAll_cons, Position.afterAll_append]
  refine (bind_of_ok (peekToken_blank blank rfl)).trans ?_
  refine (bind_of_ok (advance_cons 34 _ _)).trans ?_
  refine (bind_of_ok (scanSkipped_pieces all)).trans ?_
  exact (bind_of_ok (peekToken_blank blank' rfl)).trans (advance_cons 58 _ _)

theorem skipsElement_object {m : Member} (writes : m.Writes t) (key : IsString m.key)
    (skips : SkipsValue m.value) : SkipsElement .object t := by
  obtain ⟨n, few, passed⟩ := skips
  have opens := writes.opens key
  obtain ⟨w₁, w₂, blank₁, blank₂, rfl⟩ := writes
  refine ⟨n + 1, by simp only [List.length_append, List.length_cons]; omega,
    fun first lead frames rest p leads closes fuel => ?_⟩
  obtain ⟨w, p', blank, same, entered⟩ := skipFrom_leads .object frames leads opens
  rw [← Nat.add_assoc, entered, ← same]
  simp only [List.append_assoc, List.cons_append, Position.afterAll_append, Position.afterAll_cons]
  exact (bind_of_ok (skipKey_isString key blank blank₁)).trans
    (passed _ w₂ rest _ blank₂ closes fuel)

theorem skipsValue_encloses (frame : Frame) {ts : List (List UInt8)}
    (encloses : Encloses (opening frame) (closing frame) ts t)
    (skips : ∀ t ∈ ts, SkipsElement frame t) : SkipsValue t := by
  obtain ⟨body, elements, rfl⟩ := encloses
  obtain ⟨n, few, passed⟩ := rounds_elements elements skips
  refine ⟨1 + n, ?_, fun frames w rest p blank _ => ?_⟩
  · simp only [if_true, List.length_cons, List.length_append, List.length_nil] at few ⊢
    omega
  · rw [List.cons_append, List.append_assoc, Position.afterAll_cons, Position.afterAll_append]
    exact (rounds_opening frame blank).trans (passed frames rest _)

theorem skipsScalar_word {letters : List UInt8} (array : b ≠ 91) (object : b ≠ 123)
    (first : skipScalar b = (do advance; word letters)) : SkipsScalar (b :: letters) := by
  refine ⟨b, letters, rfl, array, object, fun rest p _ => ?_⟩
  rw [first, bind_of_ok (advance_cons b _ p), word_append]
  rfl

theorem skipsValue (value : IsValue t) : SkipsValue t := by
  -- on the nesting; what stands between brackets is passed with the bracket on top of the stack
  induction value with
  | null => exact (skipsScalar_word (by decide) (by decide) rfl).skipsValue IsValue.null.opens
  | true => exact (skipsScalar_word (by decide) (by decide) rfl).skipsValue IsValue.true.opens
  | false => exact (skipsScalar_word (by decide) (by decide) rfl).skipsValue IsValue.false.opens
  | number numeral => exact (skipsScalar_numeral numeral).skipsValue numeral.opens
  | string string => exact (skipsScalar_string string).skipsValue (IsValue.string string).opens
  | array values encloses skips =>
    exact skipsValue_encloses .array encloses fun t member =>
      skipsElement_array (values t member) (skips t member)
  | @object members t keys values object skips =>
    obtain ⟨ts, writes, encloses⟩ := object
    refine skipsValue_encloses .object encloses fun t member => ?_
    obtain ⟨m, member, writes⟩ := exists_of_forall₂ writes t member
    exact skipsElement_object writes (keys m member) (skips m member)

theorem reads_skipValue (value : IsValue t) : Reads skipValue t () := by
  intro w rest p blank closes
  obtain ⟨n, few, passed⟩ := skipsValue value
  -- one round more than the value needs, in which the run sees that no bracket is open
  have enough : ∃ fuel, 2 * ((w ++ (t ++ rest)).length + 1) = fuel + 1 + n := by
    refine ⟨2 * ((w ++ (t ++ rest)).length + 1) - 1 - n, ?_⟩
    simp only [List.length_append]
    omega
  obtain ⟨fuel, enough⟩ := enough
  have counted : budget ⟨w ++ (t ++ rest), p⟩ = .ok _ _ := budget_eq_ok.2 ⟨rfl, rfl⟩
  unfold skipValue
  rw [bind_of_ok counted, enough, passed [] w rest p blank closes]
  rfl

/-! ## Readers that stop where skipping stops -/

variable {α β : Type} {r : Reader α}

theorem Skippable.stops (skippable : Skippable r) (value : IsValue t) (blank : IsBlank w)
    (closes : Closes rest) {a : α} {c : Cursor} (ok : r ⟨w ++ (t ++ rest), p⟩ = .ok a c) :
    c = ⟨rest, (p.afterAll w).afterAll t⟩ :=
  (skippable.aligned _ _ _ _ _ (reads_skipValue value w rest p blank closes) ok).1.symm

theorem Skippable.bind (skippable : Skippable r) {f : α → Reader β} (still : ∀ a, Still (f a)) :
    Skippable (r >>= f) := by
  intro frames c b c₁ stop ok h
  obtain ⟨a, c', read, rest⟩ := bind_eq_ok.1 ok
  obtain rfl := still a c' b c₁ rest
  exact skippable frames c a c' stop read h

theorem still_pure (a : α) : Still (pure a : Reader α) := fun _ _ _ ok => (pure_eq_ok.1 ok).2

theorem Skippable.map (skippable : Skippable r) (f : α → β) :
    Skippable (do pure (f (← r))) :=
  skippable.bind fun a => still_pure (f a)

theorem skippable_of_scalar {f : Option UInt8 → Reader α} (atEnd : Fails (f none))
    (next : ∀ b, Fails (f (some b)) ∨ b ≠ 91 ∧ b ≠ 123 ∧ Aligned (f (some b)) (skipScalar b)) :
    Skippable (peekToken >>= f) := by
  intro frames c a c₁ stop ok h
  obtain ⟨token, c', peeked, ok⟩ := bind_eq_ok.1 ok
  obtain ⟨token', rfl⟩ := peekToken_eq_ok.1 peeked
  cases token with
  | none => exact absurd ok (atEnd _ _ _)
  | some b =>
    rcases next b with fails | ⟨array, object, aligned⟩
    · exact absurd ok (fails _ _ _)
    · obtain ⟨c₂, skipped, done⟩ := (skips_value h token').2.2 (by simp [array, object])
      obtain ⟨rfl, -⟩ := aligned _ _ _ _ _ ok skipped
      exact done

theorem skippable_text : Skippable text := by
  refine skippable_of_scalar (fails_failNext _) fun b => ?_
  by_cases quote : b = 34
  · subst quote
    exact .inr ⟨by decide, by decide, .after advance fun _ => textTail_aligned⟩
  · refine .inl ?_
    split
    · exact fails_failNext _
    · simp_all
    · exact fails_wrongType _

theorem checked_aligned (bound : Nat) (type : String) (sign : Bool) :
    Aligned (do
        let n ← unsigned sign
        match boundedNatural bound type n with
        | .ok n => pure n
        | .error kind => failHere kind) skipUnsigned := by
  intro c a c₁ _ c₂ left right
  obtain ⟨n, c', read, rest⟩ := bind_eq_ok.1 left
  obtain ⟨rfl, -⟩ := unsigned_aligned sign _ _ _ _ _ read right
  cases fits : boundedNatural bound type n with
  | ok m => exact ⟨(pure_eq_ok.1 (fits ▸ rest)).2.symm, trivial⟩
  | error kind => exact absurd (fits ▸ rest) (fails_failHere kind _ _ _)

theorem skippable_natural (bound : Nat) (type : String) : Skippable (natural bound type) := by
  refine skippable_of_scalar (fails_failNext _) fun b => ?_
  by_cases minus : b = 45
  · subst minus
    exact .inr ⟨by decide, by decide, .after advance fun _ => checked_aligned bound type true⟩
  · cases digit : isDigit b with
    | true =>
      have other (x : UInt8) (not : isDigit x = false) : b ≠ x := ne_of_isDigit digit not
      refine .inr ⟨other 91 rfl, other 123 rfl, ?_⟩
      simp only [skipScalar, minus, digit, or_true, if_true, if_false, if_neg (other 110 rfl),
        if_neg (other 116 rfl), if_neg (other 102 rfl)]
      exact checked_aligned bound type false
    | false =>
      simp only [minus, digit, Bool.false_eq_true, or_false, if_false]
      exact .inl (fails_wrongType type)

theorem skippable_optional (skippable : Skippable r) : Skippable (optional r) := by
  intro frames c a c₁ stop ok h
  obtain ⟨token, c', peeked, ok⟩ := bind_eq_ok.1 ok
  obtain ⟨token', rfl⟩ := peekToken_eq_ok.1 peeked
  by_cases null : token = some 110
  · subst null
    have aligned : Aligned (do advance; word nullTail; pure (none : Option α)) (skipScalar 110) :=
      .after advance fun _ => (Agree.same (word nullTail)).map_left fun _ _ _ => trivial
    obtain ⟨c₂, skipped, done⟩ := (skips_value h token').2.2 (by decide)
    obtain ⟨rfl, -⟩ := aligned _ _ _ _ _ ok skipped
    exact done
  · have value : (some <$> r) c.skipBlank = .ok a c₁ := by simpa [null] using ok
    rw [map_eq_pure_bind] at value
    exact skippable.map some _ _ _ _ _ value (skips_value_skipBlank h)

theorem skippable_list (skippable : Skippable r) : Skippable (list r) := by
  intro frames c a c₁ stop ok h
  obtain ⟨token, c', peeked, ok⟩ := bind_eq_ok.1 ok
  obtain ⟨token', rfl⟩ := peekToken_eq_ok.1 peeked
  split at ok
  · exact absurd ok (fails_failNext _ _ _ _)
  · obtain ⟨_, c₂, moved, ok⟩ := bind_eq_ok.1 ok
    obtain rfl := advance_eq_ok.1 moved
    obtain ⟨c₃, read, closed⟩ := closedBy_eq_ok.1 ok
    obtain ⟨fuel, c₄, counted, read⟩ := bind_eq_ok.1 read
    obtain ⟨-, rfl⟩ := budget_eq_ok.1 counted
    exact skips_elements skippable read closed ((skips_value h token').1 rfl)
  · exact absurd ok (fails_wrongType _ _ _ _)

end Reader
end TextCompletion.Json
