import Mathlib.Data.Rat.Defs
import TextCompletion.Proofs.Json.Passing

/-!
Numbers against the way they are written. Of the digits only as many are used as fit 64 bits: what
is left of those before the point counts as zeros, what is left of those behind it does not count.
Main statement: a numeral is read as the number that its digits and its power of ten make, wherever
that is within the range of a binary fraction.
-/

namespace TextCompletion.Json

structure Power where
  isDown : Bool
  digits : List UInt8

/-- The digits of a number, without the bytes that mark its point and its power. -/
structure Numeral where
  isNegative : Bool
  whole : List UInt8
  decimals : List UInt8
  power : Option Power

inductive WritesDecimals : List UInt8 → List UInt8 → Prop
  | none : WritesDecimals [] []
  | point {d : UInt8} {ds : List UInt8} : isDigit d = true → IsDigits ds →
      WritesDecimals (d :: ds) (46 :: d :: ds)

inductive WritesPower : Option Power → List UInt8 → Prop
  | none : WritesPower none []
  | mark {e d : UInt8} {sign ds : List UInt8} : e = 101 ∨ e = 69 → sign ∈ [[], [43], [45]] →
      isDigit d = true → IsDigits ds →
      WritesPower (some ⟨decide (sign = [45]), d :: ds⟩) (e :: (sign ++ d :: ds))

namespace Numeral

def sign (n : Numeral) : List UInt8 := if n.isNegative then [45] else []

def Writes (n : Numeral) (t : List UInt8) : Prop :=
  ∃ decimals power, IsWhole n.whole ∧ WritesDecimals n.decimals decimals ∧
    WritesPower n.power power ∧ t = n.sign ++ (n.whole ++ (decimals ++ power))

end Numeral

/-! ## The number that is written -/

/-- A whole number that fits 64 bits, with its sign; zero keeps a sign as a binary fraction only. -/
def integer (negative : Bool) (n : Nat) : Number :=
  if negative then
    if n = 0 ∨ Nat.pow 2 63 < n then .decimal (-(wordToFloat n)) else .negative (-(n : Int))
  else .natural n

/-- The significand times a power of ten, to which the one that is written adds. An exponent beyond
its bound leaves nothing but zero, or passes the range. -/
def scaled? (negative : Bool) (significand : Nat) (start : Int) : Option Power → Option Number
  | none => (fraction? negative significand start).map .decimal
  | some power =>
    let k := wholeFrom 0 power.digits
    if k ≤ Reader.exponentBound then
      (fraction? negative significand (if power.isDown then start - k else start + k)).map .decimal
    else if significand ≠ 0 ∧ power.isDown = false then none
    else some (.decimal (if negative then -0.0 else 0.0))

namespace Numeral

/-- The digits before the point that do not fit. -/
def dropped (n : Numeral) : List UInt8 := (leading 0 n.whole).2

/-- The digits behind the point that do not fit. -/
def unused (n : Numeral) : List UInt8 := (leading (leading 0 n.whole).1 n.decimals).2

def significand (n : Numeral) : Nat := (leading (leading 0 n.whole).1 n.decimals).1

/-- The power of ten that goes with the significand before the one that is written is added. -/
def start (n : Numeral) : Int := n.dropped.length - (n.decimals.length - n.unused.length : Nat)

def number? (n : Numeral) : Option Number :=
  if n.dropped = [] ∧ n.decimals = [] ∧ n.power = none then some (integer n.isNegative n.significand)
  else scaled? n.isNegative n.significand n.start n.power

end Numeral

section

variable {t rest ds : List UInt8} {power : Option Power}

theorem WritesPower.isPower (written : WritesPower power t) : IsPower t := by
  cases written with
  | none => exact .none
  | mark mark signed digit digits => exact .mark mark signed digit digits

theorem WritesDecimals.isDecimals (written : WritesDecimals ds t) : IsDecimals t := by
  cases written with
  | none => exact .none
  | point digit digits => exact .point digit digits

theorem isNumeral_iff_writes : IsNumeral t ↔ ∃ n : Numeral, n.Writes t := by
  constructor
  · rintro ⟨sign, whole, decimals, power, signed, isWhole, isDecimals, isPower, rfl⟩
    obtain ⟨ds, written⟩ : ∃ ds, WritesDecimals ds decimals := by
      cases isDecimals with
      | none => exact ⟨_, .none⟩
      | point digit digits => exact ⟨_, .point digit digits⟩
    obtain ⟨e, written'⟩ : ∃ e, WritesPower e power := by
      cases isPower with
      | none => exact ⟨_, .none⟩
      | mark mark signed digit digits => exact ⟨_, .mark mark signed digit digits⟩
    refine ⟨⟨decide (sign = [45]), whole, ds, e⟩, decimals, power, isWhole, written, written', ?_⟩
    rcases (by simpa using signed : sign = [] ∨ sign = [45]) with rfl | rfl <;> rfl
  · rintro ⟨n, decimals, power, isWhole, written, written', rfl⟩
    refine ⟨n.sign, n.whole, decimals, power, ?_, isWhole, written.isDecimals, written'.isPower,
      rfl⟩
    unfold Numeral.sign
    split <;> decide

end

namespace Reader

variable {t rest ds : List UInt8} {p : Position} {n : Nat} {negative : Bool}
  {significand : Nat} {start : Int} {x : Number} {power : Option Power}

theorem finish_eq {y : Float} (fraction : fraction? negative significand start = some y)
    (c : Cursor) : finish negative significand start c = .ok (.decimal y) c := by
  unfold finish
  rw [fraction]
  rfl

theorem whole_eq (negative : Bool) (n : Nat) (c : Cursor) :
    unsigned.whole negative n 0 c = .ok (integer negative n) c := by
  unfold unsigned.whole integer
  cases negative with
  | false => rfl
  | true =>
    simp only [ne_eq, not_true_eq_false, if_false, if_true]
    split <;> rfl

theorem whole_dropped {dropped : Nat} (some : dropped ≠ 0) (c : Cursor) :
    unsigned.whole negative n dropped c = finish negative n dropped c := by
  unfold unsigned.whole
  rw [if_pos some]

/-! ## Exponents -/

theorem exponentDigits_go_append (all : IsDigits ds) (stops : NoDigit rest)
    (small : wholeFrom n ds ≤ exponentBound) :
    exponentDigits.go n (ds ++ rest) p = .ok (some (wholeFrom n ds)) ⟨rest, p.afterAll ds⟩ := by
  induction ds generalizing n p with
  | nil =>
    cases rest with
    | nil => rfl
    | cons b rest => simp [exponentDigits.go, stops b rfl, wholeFrom, Position.afterAll]
  | cons d ds ih =>
    have digit := all d List.mem_cons_self
    have first : n * 10 + (d.toNat - 48) ≤ exponentBound := Nat.le_trans (le_wholeFrom _ ds) small
    rw [List.cons_append, exponentDigits.go]
    simp only [digit, first, if_true]
    exact ih (fun d' member => all d' (List.mem_cons_of_mem d member)) small

theorem exponentDigits_go_beyond (all : IsDigits ds) (first : n ≤ exponentBound)
    (large : exponentBound < wholeFrom n ds) : ∃ used left, ds = used ++ left ∧
      exponentDigits.go n (ds ++ rest) p = .ok none ⟨left ++ rest, p.afterAll used⟩ := by
  induction ds generalizing n p with
  | nil => exact absurd large (Nat.not_lt.2 first)
  | cons d ds ih =>
    have digit := all d List.mem_cons_self
    rw [List.cons_append, exponentDigits.go]
    by_cases small : n * 10 + (d.toNat - 48) ≤ exponentBound
    · obtain ⟨used, left, split, read⟩ :=
        ih (p := p.after d) (fun d' member => all d' (List.mem_cons_of_mem d member)) small large
      refine ⟨d :: used, left, by rw [split, List.cons_append], ?_⟩
      simp only [digit, small, if_true]
      exact read
    · refine ⟨[d], ds, rfl, ?_⟩
      simp only [digit, small, if_true, if_false]
      rfl

theorem exponentPart_writes {e : Power} (written : WritesPower (some e) t)
    (closes : Closes rest) (number : scaled? negative significand start (some e) = some x) :
    exponentPart negative significand start ⟨t ++ rest, p⟩ = .ok x ⟨rest, p.afterAll t⟩ := by
  cases written with
  | @mark mark d sign ds marked signed digit digits =>
    have next (p : Position) : next ⟨d :: (ds ++ rest), p⟩ = .ok (some d) ⟨ds ++ rest, p.after d⟩ :=
      rfl
    have first : wholeFrom 0 (d :: ds) = wholeFrom (d.toNat - 48) ds := by simp [wholeFrom]
    have least : d.toNat - 48 ≤ exponentBound :=
      Nat.le_trans (Nat.sub_le _ _) (Nat.le_trans (Nat.le_of_lt d.toNat_lt) (by decide))
    unfold exponentPart
    simp only [List.cons_append, List.append_assoc, Position.afterAll_cons,
      Position.afterAll_append]
    rw [bind_of_ok (advance_cons mark _ p),
      bind_of_ok (exponentSign_append (ds ++ rest) _ signed digit), bind_of_ok (next _)]
    simp only [digit, if_true]
    simp only [scaled?, first] at number
    by_cases small : wholeFrom (d.toNat - 48) ds ≤ exponentBound
    · have read (p : Position) : exponentDigits (d.toNat - 48) ⟨ds ++ rest, p⟩ = _ :=
        exponentDigits_go_append digits closes.noDigit small
      rw [if_pos small] at number
      obtain ⟨y, fraction, rfl⟩ := Option.map_eq_some_iff.1 number
      rw [bind_of_ok (read _)]
      exact finish_eq fraction _
    · rw [if_neg small] at number
      have read : ∃ used left, ds = used ++ left ∧ exponentDigits (d.toNat - 48)
          ⟨ds ++ rest, ((p.after mark).afterAll sign).after d⟩ =
            .ok none ⟨left ++ rest, (((p.after mark).afterAll sign).after d).afterAll used⟩ :=
        exponentDigits_go_beyond digits least (Nat.lt_of_not_le small)
      obtain ⟨used, left, rfl, read⟩ := read
      have others : IsDigits left := fun b member => digits b (List.mem_append_right used member)
      rw [bind_of_ok read]
      split at number
      · cases number
      · obtain rfl := Option.some.inj number
        simp only [if_neg ‹_›]
        rw [bind_of_ok (skipDigits_append others closes.noDigit), Position.afterAll_append]
        rfl

/-! ## Numerals -/

theorem fractionPart_writes {d : UInt8} (digit : isDigit d = true) (digits : IsDigits ds)
    (written : WritesPower power t) (closes : Closes rest)
    (number : scaled? negative (leading n (d :: ds)).1
      (start - ((d :: ds).length - (leading n (d :: ds)).2.length : Nat)) power = some x) :
    fractionPart negative n start ⟨46 :: (d :: ds ++ (t ++ rest)), p⟩ =
      .ok x ⟨rest, ((p.after 46).afterAll (d :: ds)).afterAll t⟩ := by
  have all : IsDigits (d :: ds) := List.forall_mem_cons.2 ⟨digit, digits⟩
  have isPower := written.isPower
  refine (bind_of_ok (advance_cons 46 _ p)).trans
    ((digits_bind all (isPower.noDigit closes)).trans ?_)
  have some : ¬((d :: ds).length - (leading n (d :: ds)).2.length = 0 ∧
      (leading n (d :: ds)).2.length = 0) := by
    simp only [List.length_cons]
    omega
  simp only [if_neg some]
  rw [bind_of_ok (peekExponentMark_power isPower closes)]
  cases written with
  | none =>
    obtain ⟨y, fraction, rfl⟩ := Option.map_eq_some_iff.1 number
    exact finish_eq fraction _
  | mark mark signed digit' digits' =>
    exact exponentPart_writes (.mark mark signed digit' digits') closes number

theorem afterDigits_writes {dropped : Nat} {t' : List UInt8} (written : WritesDecimals ds t)
    (written' : WritesPower power t') (closes : Closes rest)
    (number : (if dropped = 0 ∧ ds = [] ∧ power = none then some (integer negative (leading n ds).1)
      else scaled? negative (leading n ds).1
        (dropped - (ds.length - (leading n ds).2.length : Nat)) power) = some x) :
    unsigned.afterDigits negative n dropped ⟨t ++ (t' ++ rest), p⟩ =
      .ok x ⟨rest, (p.afterAll t).afterAll t'⟩ := by
  cases written with
  | point digit digits =>
    rw [if_neg (by simp)] at number
    exact fractionPart_writes digit digits written' closes number
  | none =>
    have whole : (dropped : Int) - (([] : List UInt8).length - (leading n []).2.length : Nat) =
      dropped := Int.sub_zero _
    cases written' with
    | none =>
      refine (afterDigits_closes negative closes).trans ?_
      by_cases none : dropped = 0
      · subst none
        rw [if_pos ⟨rfl, rfl, rfl⟩] at number
        obtain rfl := Option.some.inj number
        exact whole_eq negative n _
      · rw [if_neg fun all => none all.1, whole] at number
        obtain ⟨y, fraction, rfl⟩ := Option.map_eq_some_iff.1 number
        exact (whole_dropped none _).trans (finish_eq fraction _)
    | mark mark signed digit digits =>
      rw [if_neg (by simp), whole] at number
      have read := exponentPart_writes (p := p) (.mark mark signed digit digits) closes number
      rcases mark with rfl | rfl <;> exact read

theorem unsigned_writes {n : Numeral} {decimals t : List UInt8} (isWhole : IsWhole n.whole)
    (written : WritesDecimals n.decimals decimals) (written' : WritesPower n.power t)
    (closes : Closes rest) (number : n.number? = some x) :
    unsigned n.isNegative ⟨n.whole ++ (decimals ++ (t ++ rest)), p⟩ =
      .ok x ⟨rest, ((p.afterAll n.whole).afterAll decimals).afterAll t⟩ := by
  rw [unsigned_whole n.isNegative isWhole
    (written.isDecimals.noDigit (written'.isPower.noDigit closes))]
  refine afterDigits_writes written written' closes ?_
  simp only [List.length_eq_zero_iff]
  exact number

theorem reads_value_numeral (depth : Nat) {n : Numeral} (written : n.Writes t)
    (number : n.number? = some x) : Reads (value depth) t (.number x) := by
  obtain ⟨decimals, power, isWhole, written, written', rfl⟩ := written
  have read (p : Position) {rest : List UInt8} (closes : Closes rest) :
      unsigned n.isNegative ⟨n.whole ++ (decimals ++ power) ++ rest, p⟩ =
        .ok x ⟨rest, p.afterAll (n.whole ++ (decimals ++ power))⟩ := by
    rw [List.append_assoc, List.append_assoc, Position.afterAll_append, Position.afterAll_append]
    exact unsigned_writes isWhole written written' closes number
  obtain ⟨_ | _, whole, ds, power'⟩ := n
  · obtain ⟨b, more, rfl, digit⟩ := isWhole.starts
    refine reads_value (isBlankByte_of_isDigit digit) fun rest p closes => ?_
    rw [valueAt_digit depth digit]
    exact bind_of_ok (read p closes)
  · refine reads_value rfl fun rest p closes => ?_
    rw [valueAt_minus, bind_of_ok (advance_cons 45 _ p)]
    exact bind_of_ok (read (p.after 45) closes)

end Reader
end TextCompletion.Json
