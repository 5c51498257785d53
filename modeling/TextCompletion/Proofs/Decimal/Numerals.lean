import TextCompletion.Decimal.Reading
import Mathlib.Data.List.TakeWhile

/-!
Texts that are read as numbers. Main statements: a natural number that is read lies within its
bound; a whole number is its digits after an optional sign; and a decimal numeral that begins with a
digit has a whole part, a fraction and an exponent, of which only the last may have a sign.
-/

namespace TextCompletion.Decimal

def AreDigits (cs : List Char) : Prop := ∀ c ∈ cs, c.isDigit = true

variable {bound n m count : Nat} {tooGreat : WholeError} {cs ds : List Char} {c : Char}

theorem isSome_digitValue? : (digitValue? c).isSome = c.isDigit := by
  have same : ('0' ≤ c ∧ c ≤ '9') ↔ c.isDigit = true := by
    rw [Char.isDigit, Bool.and_eq_true, decide_eq_true_iff, decide_eq_true_iff]
    rfl
  rw [digitValue?]
  by_cases digit : c.isDigit = true
  · rw [if_pos (same.2 digit), digit]
    rfl
  · rw [if_neg (mt same.1 digit), Bool.eq_false_iff.2 digit]
    rfl

theorem digitValue?_eq_none (other : c.isDigit = false) : digitValue? c = none := by
  rw [← Option.not_isSome_iff_eq_none, isSome_digitValue?, other]
  exact Bool.false_ne_true

theorem exists_digitValue? (digit : c.isDigit = true) : ∃ d, digitValue? c = some d :=
  Option.isSome_iff_exists.1 (isSome_digitValue?.trans digit)

/-! Whole numbers. -/

theorem readMagnitude_le (small : n ≤ bound) (read : readMagnitude bound tooGreat n cs = .ok m) :
    m ≤ bound := by
  induction cs generalizing n with
  | nil => exact Except.ok.inj read ▸ small
  | cons c cs ih =>
    rw [readMagnitude] at read
    split at read
    · cases read
    · split at read
      · cases read
      · rename_i within
        exact ih (Nat.not_lt.1 within) read

theorem areDigits_of_readMagnitude (read : readMagnitude bound tooGreat n cs = .ok m) :
    AreDigits cs := by
  induction cs generalizing n with
  | nil => exact fun _ member => nomatch member
  | cons c cs ih =>
    rw [readMagnitude] at read
    split at read
    · cases read
    · rename_i d value
      split at read
      · cases read
      · refine List.forall_mem_cons.2 ⟨?_, ih read⟩
        rw [← isSome_digitValue?, value]
        rfl

theorem readNatural_le {text : String} (read : readNatural bound text = .ok n) : n ≤ bound := by
  rw [readNatural] at read
  split at read
  · cases read
  · cases read
  · exact readMagnitude_le (Nat.zero_le _) read
  · exact readMagnitude_le (Nat.zero_le _) read

theorem areDigits_of_readInteger {text : String} {k : Int64} (read : readInteger text = .ok k)
    (negative : text.toList = '-' :: cs) : cs ≠ [] ∧ AreDigits cs := by
  cases cs with
  | nil =>
    simp only [readInteger, negative] at read
    cases read
  | cons c cs =>
    simp only [readInteger, negative] at read
    cases magnitude : readMagnitude (signedBound + 1) .tooSmall 0 (c :: cs) with
    | error e =>
      rw [magnitude] at read
      cases read
    | ok m => exact ⟨List.cons_ne_nil _ _, areDigits_of_readMagnitude magnitude⟩

/-! Decimal numerals. -/

theorem takeDigits_eq (n count : Nat) (cs : List Char) : (takeDigits n count cs).2 =
    (count + (cs.takeWhile Char.isDigit).length, cs.dropWhile Char.isDigit) := by
  induction cs generalizing n count with
  | nil => rfl
  | cons c cs ih =>
    rw [takeDigits]
    cases digit : c.isDigit with
    | true =>
      obtain ⟨d, value⟩ := exists_digitValue? digit
      simp only [value, ih, List.takeWhile_cons, List.dropWhile_cons, digit, if_true,
        List.length_cons]
      congr 1
      omega
    | false => simp [digitValue?_eq_none digit, digit]

theorem areDigits_takeWhile (cs : List Char) : AreDigits (cs.takeWhile Char.isDigit) :=
  fun _ member => List.mem_takeWhile_imp member

theorem areDigits_of_takeDigits (taken : takeDigits n 0 cs = (m, count, [])) :
    AreDigits cs ∧ count = cs.length := by
  have eq := takeDigits_eq n 0 cs
  rw [taken, Nat.zero_add, Prod.mk.injEq] at eq
  have all : cs.takeWhile Char.isDigit = cs := by
    have whole : cs.takeWhile Char.isDigit ++ cs.dropWhile Char.isDigit = cs :=
      List.takeWhile_append_dropWhile
    rwa [← eq.2, List.append_nil] at whole
  rw [all] at eq
  exact ⟨all ▸ areDigits_takeWhile cs, eq.1⟩

/-- What may follow the whole part of a numeral. -/
inductive IsFraction : List Char → Prop
  | none : IsFraction []
  | point {ds : List Char} (digits : AreDigits ds) : IsFraction ('.' :: ds)

inductive IsExponent : List Char → Prop
  | none : IsExponent []
  | plain {c : Char} {ds : List Char} (mark : c = 'e' ∨ c = 'E') (digits : AreDigits ds)
      (some : ds ≠ []) : IsExponent (c :: ds)
  | signed {c sign : Char} {ds : List Char} (mark : c = 'e' ∨ c = 'E')
      (signed : sign = '+' ∨ sign = '-') (digits : AreDigits ds) (some : ds ≠ []) :
      IsExponent (c :: sign :: ds)

/-- The parts of a numeral that is no word. -/
structure IsDecimal (whole fraction exponent : List Char) : Prop where
  digits : AreDigits whole
  some : whole ≠ [] ∨ fraction ≠ []
  fraction : IsFraction fraction
  exponent : IsExponent exponent

theorem IsDecimal.head {whole fraction exponent : List Char}
    (decimal : IsDecimal whole fraction exponent)
    (parts : c :: cs = whole ++ fraction ++ exponent) :
    (c.isDigit = true ∧ whole ≠ []) ∨ c = '.' := by
  cases whole with
  | nil =>
    have some := decimal.some.resolve_left (not_not.2 rfl)
    cases decimal.fraction with
    | none => exact absurd rfl some
    | point _ => exact .inr (List.cons.inj parts).1
  | cons d ds =>
    obtain rfl : c = d := (List.cons.inj parts).1
    exact .inl ⟨decimal.digits c List.mem_cons_self, List.cons_ne_nil _ _⟩

theorem takeSign_cases (cs : List Char) :
    (∃ sign, (sign = '+' ∨ sign = '-') ∧ cs = sign :: (takeSign cs).2) ∨ cs = (takeSign cs).2 := by
  rw [takeSign.eq_def]
  split
  · exact .inl ⟨'+', .inl rfl, rfl⟩
  · exact .inl ⟨'-', .inr rfl, rfl⟩
  · exact .inr rfl

theorem isExponent_of_readExponent? {e : Int} (read : readExponent? cs = some e) :
    IsExponent cs := by
  cases cs with
  | nil => exact .none
  | cons c cs =>
    rw [readExponent?] at read
    split at read
    · rename_i mark
      dsimp only at read
      split at read
      · rename_i n count taken
        split at read
        · cases read
        · rename_i some
          obtain ⟨digits, rfl⟩ := areDigits_of_takeDigits taken
          have some : (takeSign cs).2 ≠ [] := fun none => some (by rw [none]; rfl)
          rcases takeSign_cases cs with ⟨sign, signed, whole⟩ | whole
          · rw [whole]
            exact .signed mark signed digits some
          · rw [whole]
            exact .plain mark digits some
      · cases read
    · cases read

theorem toLower_of_isDigit (digit : c.isDigit = true) : c.toLower = c := by
  have small : c.val ≤ 57 := by
    simp only [Char.isDigit, Bool.and_eq_true, decide_eq_true_eq] at digit
    exact digit.2
  have below : ¬ (65 ≤ c.val ∧ c.val ≤ 90) := fun capital => by
    have order := UInt32.le_iff_toNat_le.1 (UInt32.le_trans capital.1 small)
    exact absurd order (by decide)
  exact dif_neg below

theorem word_ne {first : Char} {others : List Char} (other : c.toLower ≠ first) :
    String.ofList ((c :: cs).map Char.toLower) ≠ String.ofList (first :: others) := by
  intro same
  rw [String.ofList_inj] at same
  exact other (List.cons.inj same).1

/-- A numeral that is no word is written with digits. -/
theorem exists_parts {negative : Bool} {x : Numeral} (infinite : c.toLower ≠ 'i')
    (nan : c.toLower ≠ 'n') (read : readUnsigned? negative (c :: cs) = some x) :
    ∃ whole fraction exponent, c :: cs = whole ++ fraction ++ exponent ∧
      IsDecimal whole fraction exponent := by
  have others : ¬ (String.ofList ((c :: cs).map Char.toLower) = "inf" ∨
      String.ofList ((c :: cs).map Char.toLower) = "infinity") :=
    not_or.2 ⟨word_ne infinite, word_ne infinite⟩
  rw [readUnsigned?, if_neg others, if_neg (word_ne nan)] at read
  have parts : (c :: cs).takeWhile Char.isDigit ++ (c :: cs).dropWhile Char.isDigit = c :: cs :=
    List.takeWhile_append_dropWhile
  have digits := areDigits_takeWhile (c :: cs)
  have first := takeDigits_eq 0 0 (c :: cs)
  generalize takeDigits 0 0 (c :: cs) = taken at read first
  obtain ⟨n, count, rest⟩ := taken
  obtain ⟨rfl, rfl⟩ := Prod.mk.inj first
  generalize (c :: cs).takeWhile Char.isDigit = whole at read parts digits
  generalize (c :: cs).dropWhile Char.isDigit = rest at read parts
  dsimp only at read
  split at read
  · rename_i rest
    split at read
    · cases read
    · obtain ⟨e, exponent, -⟩ := Option.map_eq_some_iff.1 read
      have exponent : readExponent? (rest.dropWhile Char.isDigit) = some e :=
        (congrArg (fun p => readExponent? p.2) (takeDigits_eq n 0 rest)).symm.trans exponent
      refine ⟨whole, '.' :: rest.takeWhile Char.isDigit, rest.dropWhile Char.isDigit, ?_, digits,
        .inr (List.cons_ne_nil _ _), .point (areDigits_takeWhile rest),
        isExponent_of_readExponent? exponent⟩
      rw [List.append_assoc, List.cons_append, List.takeWhile_append_dropWhile, parts]
  · split at read
    · cases read
    · rename_i some
      obtain ⟨e, exponent, -⟩ := Option.map_eq_some_iff.1 read
      refine ⟨whole, [], rest, by rw [List.append_nil, parts], digits, .inl ?_, .none,
        isExponent_of_readExponent? exponent⟩
      rintro rfl
      exact some rfl

theorem head_of_readUnsigned? {negative : Bool} {x : Numeral}
    (read : readUnsigned? negative cs = some x) :
    ∃ c ds, cs = c :: ds ∧
      (c.toLower = 'i' ∨ c.toLower = 'n' ∨ c.isDigit = true ∨ c = '.') := by
  cases cs with
  | nil => exact absurd read (by simp [readUnsigned?, takeDigits])
  | cons c ds =>
    refine ⟨c, ds, rfl, or_iff_not_imp_left.2 fun infinite => or_iff_not_imp_left.2 fun nan => ?_⟩
    obtain ⟨whole, fraction, exponent, parts, decimal⟩ := exists_parts infinite nan read
    exact (decimal.head parts).imp_left And.left

theorem readUnsigned?_of_readNumeral {text : String} {x : Numeral}
    (read : readNumeral text = .ok x) (negative : text.toList = '-' :: cs) :
    readUnsigned? true cs = some x := by
  simp only [readNumeral, negative, takeSign] at read
  split at read
  · rename_i found
    cases read
    exact found
  · cases read

end TextCompletion.Decimal
