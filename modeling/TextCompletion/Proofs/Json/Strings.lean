import TextCompletion.Proofs.Json.Grammar
import TextCompletion.Proofs.Json.Skipping
import TextCompletion.Proofs.Text.Bytes

/-!
Strings as they may be written against the readers of strings. A text is read from every way of
spelling it, and what is read between quotes is spelled there; so a string that stands for no text,
for want of the other half of a surrogate, is refused where a text is wanted. Where none is wanted,
every string is passed.
-/

namespace TextCompletion.Json

namespace Position

theorem afterAll_append (p : Position) (t more : List UInt8) :
    p.afterAll (t ++ more) = (p.afterAll t).afterAll more :=
  List.foldl_append

theorem afterAll_cons (p : Position) (b : UInt8) (t : List UInt8) :
    p.afterAll (b :: t) = (p.after b).afterAll t := rfl

end Position

theorem IsPlain.of_mem {c : Char} (plain : IsPlain c) {b : UInt8}
    (member : b ∈ String.utf8EncodeChar c) : b ≠ 34 ∧ ¬b < 32 ∧ b ≠ 92 := by
  obtain ⟨printable, quote, backslash⟩ := plain
  have other {n : Nat} (ascii : n < 128) (differs : b.toNat ≠ n) : b ≠ UInt8.ofNat n := by
    rintro rfl
    rw [UInt8.toNat_ofNat', Nat.mod_eq_of_lt (by omega)] at differs
    exact differs rfl
  by_cases beyond : 127 < c.val.toNat
  · have high := Text.Utf8.high_of_mem_utf8EncodeChar beyond member
    refine ⟨other (n := 34) (by omega) (by omega), ?_, other (n := 92) (by omega) (by omega)⟩
    rw [UInt8.lt_iff_toNat_lt]
    exact Nat.not_lt.2 (Nat.le_trans (by decide) high)
  · have ascii : c.toNat ≤ 127 := Nat.le_of_not_lt beyond
    have value : b.toNat = c.toNat := by
      rw [Text.Utf8.utf8EncodeChar_ascii ascii, List.mem_singleton] at member
      rw [member, UInt8.toNat_ofNat', Nat.mod_eq_of_lt (by omega)]
    have differs {d : Char} (not : c ≠ d) : b.toNat ≠ d.toNat := fun same =>
      not (Char.ext (UInt32.toNat_inj.1 (value.symm.trans same)))
    refine ⟨other (n := 34) (by omega) (differs quote), ?_,
      other (n := 92) (by omega) (differs backslash)⟩
    rw [UInt8.lt_iff_toNat_lt, value]
    exact Nat.not_lt.2 printable

section Text

variable {c : Char} {t rest acc quad : List UInt8} {p : Position} {n : Nat}

theorem scanText_quote : scanText none (34 :: rest) p acc = .ok acc ⟨rest, p.after 34⟩ := by
  rw [scanText.eq_def]
  rfl

theorem scanText_bytes (plain : ∀ b ∈ t, b ≠ 34 ∧ ¬b < 32 ∧ b ≠ 92) :
    scanText none (t ++ rest) p acc = scanText none rest (p.afterAll t) (t.reverse ++ acc) := by
  induction t generalizing p acc with
  | nil => rfl
  | cons b t ih =>
    obtain ⟨quote, printable, backslash⟩ := plain b List.mem_cons_self
    have escape : (b == 92) = false := beq_eq_false_iff_ne.2 backslash
    have step : scanText none (b :: (t ++ rest)) p acc =
        scanText none (t ++ rest) (p.after b) (b :: acc) := by
      rw [scanText.eq_def]
      simp only [escape, if_neg quote, if_neg printable]
    rw [List.cons_append, step, ih fun b' member => plain b' (List.mem_cons_of_mem b member),
      List.reverse_cons, List.append_assoc]
    rfl

theorem shortEscape?_of_mem {e : UInt8} (letter : (e, c) ∈ shortEscapes) :
    e ≠ 117 ∧ ∃ b, shortEscape? e = some b ∧ String.utf8EncodeChar c = [b] := by
  simp only [shortEscapes, List.mem_cons, Prod.mk.injEq, List.not_mem_nil, or_false] at letter
  rcases letter with ⟨rfl, rfl⟩ | ⟨rfl, rfl⟩ | ⟨rfl, rfl⟩ | ⟨rfl, rfl⟩ | ⟨rfl, rfl⟩ | ⟨rfl, rfl⟩ |
    ⟨rfl, rfl⟩ | ⟨rfl, rfl⟩ <;> exact ⟨by decide, _, rfl, rfl⟩

theorem scanText_short {e : UInt8} (letter : (e, c) ∈ shortEscapes) :
    scanText none (92 :: e :: rest) p acc =
      scanText none rest (p.afterAll [92, e]) ((String.utf8EncodeChar c).reverse ++ acc) := by
  obtain ⟨number, b, short, bytes⟩ := shortEscape?_of_mem letter
  rw [scanText.eq_def]
  simp [number, short, bytes, Position.afterAll]

theorem toNat_cases (c : Char) : c.toNat < 0xD800 ∨ 0xDFFF < c.toNat ∧ c.toNat < 0x110000 :=
  c.valid

theorem unpaired_of_char (c : Char) : isTrailing c.toNat = false ∧ isLeading c.toNat = false := by
  have bounds := toNat_cases c
  simp only [isTrailing, isLeading, Bool.and_eq_false_iff, decide_eq_false_iff_not]
  omega

/-- An escape by a number gives a character, or the first half of one. -/
theorem scanText_number (digits : IsQuad n quad) (whole : isTrailing n = false) :
    scanText none (92 :: 117 :: (quad ++ rest)) p acc =
      if isLeading n then scanText (some n) rest (p.afterAll (92 :: 117 :: quad)) acc
      else scanText none rest (p.afterAll (92 :: 117 :: quad))
        ((String.utf8EncodeChar (Char.ofNat n)).reverse ++ acc) := by
  obtain ⟨h₁, h₂, h₃, h₄, spelled, rfl⟩ := digits
  rw [scanText.eq_def]
  simp [spelled, whole, Position.afterAll]

theorem scanText_paired {leading : Nat} (digits : IsQuad n quad) (half : isTrailing n = true) :
    scanText (some leading) (92 :: 117 :: (quad ++ rest)) p acc =
      scanText none rest (p.afterAll (92 :: 117 :: quad))
        ((String.utf8EncodeChar (Char.ofNat (pairValue leading n))).reverse ++ acc) := by
  obtain ⟨h₁, h₂, h₃, h₄, spelled, rfl⟩ := digits
  rw [scanText.eq_def]
  simp [spelled, half, Position.afterAll]

theorem scanText_writesChar (written : WritesChar c t) :
    scanText none (t ++ rest) p acc =
      scanText none rest (p.afterAll t) ((String.utf8EncodeChar c).reverse ++ acc) := by
  cases written with
  | plain plain => exact scanText_bytes fun b member => plain.of_mem member
  | short letter => exact scanText_short letter
  | number digits =>
    obtain ⟨trailing, leading⟩ := unpaired_of_char c
    rw [List.cons_append, List.cons_append, scanText_number digits trailing, leading,
      Char.ofNat_toNat]
    rfl
  | surrogates beyond first second =>
    have bounds := toNat_cases c
    have leading : isLeading (0xD800 + (c.toNat - 0x10000) / 0x400) = true := by
      simp only [isLeading, Bool.and_eq_true, decide_eq_true_eq]
      omega
    have unpaired : isTrailing (0xD800 + (c.toNat - 0x10000) / 0x400) = false := by
      simp only [isTrailing, Bool.and_eq_false_iff, decide_eq_false_iff_not]
      omega
    have trailing : isTrailing (0xDC00 + (c.toNat - 0x10000) % 0x400) = true := by
      simp only [isTrailing, Bool.and_eq_true, decide_eq_true_eq]
      omega
    have pair : pairValue (0xD800 + (c.toNat - 0x10000) / 0x400)
        (0xDC00 + (c.toNat - 0x10000) % 0x400) = c.toNat := by
      unfold pairValue
      omega
    simp only [List.cons_append, List.append_assoc]
    rw [scanText_number first unpaired, if_pos leading, scanText_paired second trailing, pair,
      Char.ofNat_toNat]
    simp only [Position.afterAll_cons, Position.afterAll_append]

theorem scanText_spells {cs : List Char} (spelled : Spells cs t) :
    scanText none (t ++ rest) p acc =
      scanText none rest (p.afterAll t) ((cs.flatMap String.utf8EncodeChar).reverse ++ acc) := by
  induction spelled generalizing p acc with
  | nil => rfl
  | cons written spelled ih =>
    rw [List.append_assoc, scanText_writesChar written, ih, Position.afterAll_append,
      List.flatMap_cons, List.reverse_append, List.append_assoc]

/-! The other way round: pieces that are read as text are the characters of one. -/

theorem hexValue?_lt {b : UInt8} (value : hexValue? b = some n) : n < 16 := by
  unfold hexValue? at value
  have above {x y : UInt8} (le : x ≤ y) : x.toNat ≤ y.toNat := UInt8.le_iff_toNat_le.1 le
  split at value
  · next digit =>
    have bound := above digit.2
    obtain rfl := Option.some.inj value
    simp only [UInt8.reduceToNat] at bound
    omega
  · split at value
    · next letter =>
      have bound := above letter.2
      obtain rfl := Option.some.inj value
      simp only [UInt8.reduceToNat] at bound
      omega
    · split at value
      · next letter =>
        have bound := above letter.2
        obtain rfl := Option.some.inj value
        simp only [UInt8.reduceToNat] at bound
        omega
      · cases value

theorem IsQuad.lt (digits : IsQuad n quad) : n < 0x10000 := by
  obtain ⟨h₁, h₂, h₃, h₄, spelled, -⟩ := digits
  simp only [hexQuad?, Option.bind_eq_bind, Option.bind_eq_some_iff, Option.pure_def,
    Option.some.injEq] at spelled
  obtain ⟨a, first, b, second, c, third, d, fourth, rfl⟩ := spelled
  have := hexValue?_lt first
  have := hexValue?_lt second
  have := hexValue?_lt third
  have := hexValue?_lt fourth
  omega

theorem toNat_ofNat (valid : n < 0xD800 ∨ 0xDFFF < n ∧ n < 0x110000) :
    (Char.ofNat n).toNat = n := by
  rw [Char.ofNat, dif_pos valid]
  rfl

theorem writesChar_of_number (digits : IsQuad n quad) (whole : isTrailing n = false)
    (last : isLeading n = false) : WritesChar (Char.ofNat n) (92 :: 117 :: quad) := by
  have bound := digits.lt
  simp only [isTrailing, isLeading, Bool.and_eq_false_iff, decide_eq_false_iff_not] at whole last
  refine .number ?_
  rwa [toNat_ofNat (by omega)]

theorem writesChar_of_surrogates {m : Nat} {quad' : List UInt8} (first : IsQuad n quad)
    (leading : isLeading n = true) (second : IsQuad m quad') (trailing : isTrailing m = true) :
    WritesChar (Char.ofNat (pairValue n m)) (92 :: 117 :: (quad ++ 92 :: 117 :: quad')) := by
  simp only [isTrailing, isLeading, Bool.and_eq_true, decide_eq_true_eq] at leading trailing
  have beyond : 0x10000 ≤ pairValue n m := Nat.le_add_left _ _
  have high : 0xD800 + (pairValue n m - 0x10000) / 0x400 = n := by
    unfold pairValue
    omega
  have low : 0xDC00 + (pairValue n m - 0x10000) % 0x400 = m := by
    unfold pairValue
    omega
  have value : (Char.ofNat (pairValue n m)).toNat = pairValue n m := by
    refine toNat_ofNat ?_
    unfold pairValue
    omega
  refine .surrogates ?_ ?_ ?_
  · rwa [value]
  · rwa [value, high]
  · rwa [value, low]

theorem scanText_trailing (digits : IsQuad n quad) (half : isTrailing n = true) {out : List UInt8}
    {after : Cursor} : scanText none (92 :: 117 :: (quad ++ rest)) p acc ≠ .ok out after := by
  obtain ⟨h₁, h₂, h₃, h₄, spelled, rfl⟩ := digits
  rw [scanText.eq_def]
  simp [spelled, half]

/-- After a leading half only the other one goes on. -/
theorem exists_trailing {pieces : List (List UInt8)} (all : ∀ piece ∈ pieces, IsPiece piece)
    {leading : Nat} {out : List UInt8} {after : Cursor}
    (ok : scanText (some leading) (pieces.flatten ++ 34 :: rest) p acc = .ok out after) :
    ∃ m quad more, IsQuad m quad ∧ isTrailing m = true ∧ pieces = (92 :: 117 :: quad) :: more := by
  have other {b : UInt8} {t : List UInt8} (not : b ≠ 92) :
      scanText (some leading) (b :: t) p acc ≠ .ok out after := by
    have plain : (b == 92) = false := beq_eq_false_iff_ne.2 not
    rw [scanText.eq_def]
    simp [plain]
  cases pieces with
  | nil => exact absurd ok (other (by decide))
  | cons piece more =>
    rw [List.flatten_cons, List.append_assoc] at ok
    cases all piece List.mem_cons_self with
    | @plain c plain =>
      obtain ⟨b, t, bytes⟩ := List.exists_cons_of_ne_nil (String.utf8EncodeChar_ne_nil (c := c))
      have member : b ∈ String.utf8EncodeChar c := bytes ▸ List.mem_cons_self
      rw [bytes, List.cons_append] at ok
      exact absurd ok (other (plain.of_mem member).2.2)
    | @short e c letter =>
      have number := (shortEscape?_of_mem letter).1
      rw [scanText.eq_def] at ok
      simp [number] at ok
    | @number m quad digits =>
      refine ⟨m, quad, more, digits, ?_, rfl⟩
      obtain ⟨h₁, h₂, h₃, h₄, spelled, rfl⟩ := digits
      rw [scanText.eq_def] at ok
      by_contra whole
      simp [spelled, whole] at ok

/-- Pieces that are read are the characters of a text. -/
theorem exists_spells : ∀ {pieces : List (List UInt8)}, (∀ piece ∈ pieces, IsPiece piece) →
    ∀ {rest acc out : List UInt8} {p : Position} {after : Cursor},
      scanText none (pieces.flatten ++ 34 :: rest) p acc = .ok out after →
        ∃ cs, Spells cs pieces.flatten
  | [], _, _, _, _, _, _, _ => ⟨[], .nil⟩
  | piece :: pieces, all, rest, acc, out, p, after, ok => by
    have others : ∀ piece ∈ pieces, IsPiece piece := fun piece member =>
      all piece (List.mem_cons_of_mem _ member)
    rw [List.flatten_cons, List.append_assoc] at ok
    rw [List.flatten_cons]
    cases all piece List.mem_cons_self with
    | plain plain =>
      rw [scanText_writesChar (.plain plain)] at ok
      obtain ⟨cs, spelled⟩ := exists_spells others ok
      exact ⟨_ :: cs, .cons (.plain plain) spelled⟩
    | short letter =>
      rw [scanText_writesChar (.short letter)] at ok
      obtain ⟨cs, spelled⟩ := exists_spells others ok
      exact ⟨_ :: cs, .cons (.short letter) spelled⟩
    | @number n quad digits =>
      cases half : isTrailing n with
      | true => exact absurd ok (scanText_trailing digits half)
      | false =>
        rw [List.cons_append, List.cons_append, scanText_number digits half] at ok
        cases leading : isLeading n with
        | false =>
          rw [leading] at ok
          obtain ⟨cs, spelled⟩ := exists_spells others ok
          exact ⟨_ :: cs, .cons (writesChar_of_number digits half leading) spelled⟩
        | true =>
          -- the other half is in the piece that follows, so two of them make the character
          rw [leading] at ok
          obtain ⟨m, quad', more, second, trailing, rfl⟩ := exists_trailing others ok
          rw [List.flatten_cons, List.append_assoc, List.cons_append, List.cons_append] at ok
          rw [if_pos rfl, scanText_paired second trailing] at ok
          obtain ⟨cs, spelled⟩ := exists_spells (fun piece member =>
            others piece (List.mem_cons_of_mem _ member)) ok
          have pair := writesChar_of_surrogates digits leading second trailing
          have whole := Spells.cons pair spelled
          exact ⟨Char.ofNat (pairValue n m) :: cs, by simpa using whole⟩

theorem scanSkipped_plains (plain : ∀ b ∈ t, b ≠ 34 ∧ ¬b < 32 ∧ b ≠ 92) :
    scanSkipped (t ++ rest) p = scanSkipped rest (p.afterAll t) := by
  induction t generalizing p with
  | nil => rfl
  | cons b t ih =>
    obtain ⟨quote, printable, backslash⟩ := plain b List.mem_cons_self
    rw [List.cons_append, scanSkipped_plain quote printable backslash,
      ih fun b' member => plain b' (List.mem_cons_of_mem b member)]
    rfl

theorem scanSkipped_piece (piece : IsPiece t) :
    scanSkipped (t ++ rest) p = scanSkipped rest (p.afterAll t) := by
  cases piece with
  | plain plain => exact scanSkipped_plains fun b member => plain.of_mem member
  | short letter =>
    obtain ⟨number, b, short, -⟩ := shortEscape?_of_mem letter
    exact scanSkipped_short number (Option.isSome_of_eq_some short) rest p
  | number digits =>
    obtain ⟨h₁, h₂, h₃, h₄, spelled, rfl⟩ := digits
    exact scanSkipped_unicode spelled rest p

theorem scanSkipped_pieces {pieces : List (List UInt8)} (all : ∀ piece ∈ pieces, IsPiece piece) :
    scanSkipped (pieces.flatten ++ 34 :: rest) p =
      .ok () ⟨rest, (p.afterAll pieces.flatten).after 34⟩ := by
  induction pieces generalizing p with
  | nil =>
    rw [List.flatten_nil, List.nil_append, scanSkipped.eq_def]
    rfl
  | cons piece pieces ih =>
    rw [List.flatten_cons, List.append_assoc, scanSkipped_piece (all piece List.mem_cons_self),
      ih fun other member => all other (List.mem_cons_of_mem piece member),
      Position.afterAll_append]

theorem WritesChar.pieces (written : WritesChar c t) :
    ∃ pieces : List (List UInt8), (∀ piece ∈ pieces, IsPiece piece) ∧ t = pieces.flatten := by
  have one {piece : List UInt8} (piece' : IsPiece piece) : ∃ pieces : List (List UInt8),
      (∀ piece ∈ pieces, IsPiece piece) ∧ piece = pieces.flatten :=
    ⟨[piece], by simpa using piece', by simp⟩
  cases written with
  | plain plain => exact one (.plain plain)
  | short letter => exact one (.short letter)
  | number digits => exact one (.number digits)
  | @surrogates c leading trailing beyond first second =>
    refine ⟨[92 :: 117 :: leading, 92 :: 117 :: trailing], ?_, by simp⟩
    simpa using ⟨IsPiece.number first, IsPiece.number second⟩

theorem Spells.pieces {cs : List Char} (spelled : Spells cs t) :
    ∃ pieces : List (List UInt8), (∀ piece ∈ pieces, IsPiece piece) ∧ t = pieces.flatten := by
  induction spelled with
  | nil => exact ⟨[], by simp, rfl⟩
  | cons written spelled ih =>
    obtain ⟨first, firstAll, rfl⟩ := written.pieces
    obtain ⟨others, othersAll, rfl⟩ := ih
    refine ⟨first ++ others, fun piece member => ?_, List.flatten_append.symm⟩
    exact (List.mem_append.1 member).elim (firstAll piece) (othersAll piece)

theorem Quotes.isString {s : String} (quoted : Quotes s t) : IsString t := by
  obtain ⟨body, spelled, rfl⟩ := quoted
  obtain ⟨pieces, all, rfl⟩ := spelled.pieces
  exact ⟨pieces, all, rfl⟩

end Text

namespace Reader

variable {s : String} {rest : List UInt8} {p : Position}

theorem textTail_spells {body : List UInt8} (spelled : Spells s.toList body) :
    textTail ⟨body ++ 34 :: rest, p⟩ = .ok s ⟨rest, (p.afterAll body).after 34⟩ := by
  have decoded : Text.Utf8.decode? (s.toList.flatMap String.utf8EncodeChar) = some s := by
    rw [← Text.Utf8.encode_eq_flatMap, Text.Utf8.decode?_encode]
  unfold textTail
  simp only [scanText_spells spelled, scanText_quote]
  simp [decoded]

theorem spells_of_textTail {pieces : List (List UInt8)} (all : ∀ piece ∈ pieces, IsPiece piece)
    {c : Cursor} (ok : textTail ⟨pieces.flatten ++ 34 :: rest, p⟩ = .ok s c) :
    Spells s.toList pieces.flatten := by
  cases scanned : scanText none (pieces.flatten ++ 34 :: rest) p [] with
  | error f c' =>
    unfold textTail at ok
    simp [scanned] at ok
  | ok decoded after =>
    obtain ⟨cs, spelled⟩ := exists_spells all scanned
    rw [← String.toList_ofList (l := cs)] at spelled
    rw [textTail_spells spelled] at ok
    obtain ⟨rfl, -⟩ := EStateM.Result.ok.inj ok
    exact spelled

theorem advance_cons (b : UInt8) (rest : List UInt8) (p : Position) :
    advance ⟨b :: rest, p⟩ = .ok () ⟨rest, p.after b⟩ := rfl

theorem key_quotes {t : List UInt8} (quoted : Quotes s t) :
    key ⟨t ++ rest, p⟩ = .ok s ⟨rest, p.afterAll t⟩ := by
  obtain ⟨body, spelled, rfl⟩ := quoted
  rw [List.cons_append, List.append_assoc, Position.afterAll_cons, Position.afterAll_append]
  exact (bind_of_ok (advance_cons 34 _ p)).trans (textTail_spells spelled)

theorem quotes_unique {s' : String} {t : List UInt8} (quoted : Quotes s t) (quoted' : Quotes s' t) :
    s = s' := by
  have read : key ⟨t ++ [], ⟨1, 0⟩⟩ = _ := key_quotes quoted
  rw [key_quotes quoted'] at read
  exact (EStateM.Result.ok.inj read).1.symm

theorem quotes_of_key {t : List UInt8} {c : Cursor} (string : IsString t)
    (ok : key ⟨t ++ rest, p⟩ = .ok s c) : Quotes s t := by
  obtain ⟨pieces, all, rfl⟩ := string
  obtain ⟨_, c', moved, read⟩ := bind_eq_ok.1 ok
  obtain rfl := advance_eq_ok.1 moved
  rw [List.cons_append, List.append_assoc] at read
  exact ⟨pieces.flatten, spells_of_textTail all read, rfl⟩

end Reader
end TextCompletion.Json
