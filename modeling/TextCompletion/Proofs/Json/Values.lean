import TextCompletion.Proofs.Json.Members
import TextCompletion.Proofs.Json.Numerals

/-!
Values of any kind against the way they are written, as deep as the reader goes. Whatever stands for
a value is read as this value, so it stands for no other one.
-/

namespace TextCompletion.Json

/-- The text stands for a value without brackets, and a number is within the range. -/
def DenotesScalar : Json → List UInt8 → Prop
  | .null, t => t = nullText
  | .boolean b, t => t = if b then trueText else falseText
  | .number x, t => ∃ n : Numeral, n.Writes t ∧ n.number? = some x
  | .string s, t => Quotes s t
  | .array _, _ => False
  | .object _, _ => False

/-- The text stands for the value, which opens no more than so many brackets inside one another. -/
def Denotes : Nat → Json → List UInt8 → Prop
  | depth + 1, .array items, t => Lists (Denotes depth) items t
  | depth + 1, .object pairs, t => ∃ members,
      List.Forall₂ (fun pair m => m.Named pair.1 ∧ Denotes depth pair.2 m.value) pairs members ∧
        IsObject members t
  | _, v, t => DenotesScalar v t

theorem DenotesScalar.isValue {v : Json} {t : List UInt8} (scalar : DenotesScalar v t) :
    IsValue t := by
  cases v with
  | null => exact scalar ▸ .null
  | boolean b =>
    obtain rfl : t = _ := scalar
    cases b with
    | false => exact .false
    | true => exact .true
  | number x => exact .number (isNumeral_iff_writes.2 (scalar.imp fun _ both => both.1))
  | string s => exact Quotes.isValue scalar
  | array items => exact scalar.elim
  | object pairs => exact scalar.elim

theorem Denotes.isValue {depth : Nat} {v : Json} {t : List UInt8} (denotes : Denotes depth v t) :
    IsValue t := by
  induction depth generalizing v t with
  | zero => exact DenotesScalar.isValue denotes
  | succ depth ih =>
    cases v with
    | array items => exact Lists.isValue denotes fun _ _ => ih
    | object pairs =>
      obtain ⟨members, related, object⟩ := denotes
      refine .object (fun m listed => ?_) (fun m listed => ?_) object
      · obtain ⟨pair, -, named, -⟩ := exists_of_forall₂ related m listed
        exact Quotes.isString named
      · obtain ⟨pair, -, -, denotes⟩ := exists_of_forall₂ related m listed
        exact ih denotes
    | _ => exact DenotesScalar.isValue denotes

namespace Reader

variable {t body rest : List UInt8} {ts : List (List UInt8)} {p : Position} {first : Bool}
  {fuel depth : Nat} {item : Reader Json} {pairs : List (String × Json)} {members : List Member}

theorem reads_value_string (depth : Nat) {s : String} (quoted : Quotes s t) :
    Reads (value depth) t (.string s) := by
  obtain ⟨body, spelled, rfl⟩ := quoted
  refine reads_value rfl fun rest p _ => ?_
  rw [List.append_assoc, Position.afterAll_cons, Position.afterAll_append]
  exact (bind_of_ok (advance_cons 34 _ p)).trans (bind_of_ok (textTail_spells spelled))

theorem valueAt_object (depth : Nat) :
    valueAt (depth + 1) 123 = (do
      advance
      let ms ← closedBy closeObject (Reader.members (value depth))
      pure (.object ms)) := rfl

theorem membersFrom_reads
    (reads : List.Forall₂ (fun pair m => m.Named pair.1 ∧ Reads item m.value pair.2) pairs members)
    (writes : List.Forall₂ Member.Writes members ts) (elements : Elements first ts body)
    (enough : ts.length < fuel) :
    membersFrom item fuel first ⟨body ++ 125 :: rest, p⟩ =
      .ok pairs ⟨125 :: rest, p.afterAll body⟩ := by
  -- on the members as they are written; each takes one unit of the fuel
  induction elements generalizing pairs members fuel p with
  | @done first w blank =>
    obtain ⟨fuel, rfl⟩ := Nat.exists_eq_succ_of_ne_zero (Nat.ne_zero_of_lt enough)
    cases writes
    cases reads
    rw [membersFrom, bind_of_ok (nextMember_done first blank)]
    rfl
  | @next first lead t more ts leads elements ih =>
    obtain ⟨fuel, rfl⟩ := Nat.exists_eq_succ_of_ne_zero (Nat.ne_zero_of_lt enough)
    cases writes with
    | @cons m _ members _ written writes =>
      cases reads with
      | @cons pair _ pairs _ head reads =>
        obtain ⟨named, read⟩ := head
        obtain ⟨w, w', blank, blank', rfl⟩ := written
        have value (p : Position) :=
          read w' (more ++ 125 :: rest) p blank' (elements.closes (.inr rfl))
        have others (p : Position) := ih (p := p) reads writes (Nat.lt_of_succ_lt_succ enough)
        simp only [List.append_assoc, List.cons_append, Position.afterAll_append,
          Position.afterAll_cons]
        rw [membersFrom, bind_of_ok (nextMember_string (Quotes.isString named) leads)]
        simp only [if_true]
        rw [bind_of_ok (key_quotes named), bind_of_ok (colon_blank blank), bind_of_ok (value _),
          bind_of_ok (others _)]
        rfl

theorem reads_value_object (depth : Nat)
    (reads : List.Forall₂ (fun pair m => m.Named pair.1 ∧ Reads (value depth) m.value pair.2) pairs
      members) (object : IsObject members t) : Reads (value (depth + 1)) t (.object pairs) := by
  obtain ⟨ts, writes, body, elements, rfl⟩ := object
  have opens : ∀ t ∈ ts, Opens t := fun t member => by
    obtain ⟨m, listed, written⟩ := exists_of_forall₂ writes t member
    obtain ⟨pair, -, named, -⟩ := exists_of_forall₂ reads m listed
    exact written.opens (Quotes.isString named)
  have shorter := elements.length_le opens
  refine reads_value rfl fun rest p _ => ?_
  rw [valueAt_object, List.append_assoc, Position.afterAll_cons, Position.afterAll_append,
    bind_of_ok (advance_cons 123 _ p)]
  refine bind_of_ok (closedBy_eq_ok.2 ⟨⟨125 :: rest, (p.after 123).afterAll body⟩, ?_, rfl⟩)
  refine (bind_of_ok (budget_eq_ok.2 ⟨rfl, rfl⟩)).trans (membersFrom_reads reads writes elements ?_)
  rw [List.length_append]
  omega

theorem reads_value_scalar (depth : Nat) {v : Json} (scalar : DenotesScalar v t) :
    Reads (value depth) t v := by
  cases v with
  | null => exact scalar ▸ reads_value_null depth
  | boolean b =>
    obtain rfl : t = _ := scalar
    cases b with
    | false => exact reads_value_false depth
    | true => exact reads_value_true depth
  | number x =>
    obtain ⟨n, written, number⟩ := scalar
    exact reads_value_numeral depth written number
  | string s => exact reads_value_string depth scalar
  | array items => exact scalar.elim
  | object pairs => exact scalar.elim

/-- What stands for a value is read as this value. -/
theorem reads_value_denotes {v : Json} (denotes : Denotes depth v t) :
    Reads (value depth) t v := by
  induction depth generalizing v t with
  | zero => exact reads_value_scalar 0 denotes
  | succ depth ih =>
    cases v with
    | array items =>
      obtain ⟨ts, written, encloses⟩ := denotes
      refine reads_value_array depth (written.imp fun _ _ => ih) (fun t member => ?_) encloses
      obtain ⟨item, -, denotes⟩ := exists_of_forall₂ written t member
      exact Denotes.isValue denotes
    | object pairs =>
      obtain ⟨members, related, object⟩ := denotes
      exact reads_value_object depth (related.imp fun _ _ both => ⟨both.1, ih both.2⟩) object
    | _ => exact reads_value_scalar (depth + 1) denotes

end Reader

/-- A text stands for one value. -/
theorem denotes_unique {depth : Nat} {v v' : Json} {t : List UInt8} (denotes : Denotes depth v t)
    (denotes' : Denotes depth v' t) : v = v' := by
  have read := (Reader.reads_value_denotes denotes).here (p := ⟨1, 0⟩) closes_nil
  rw [(Reader.reads_value_denotes denotes').here closes_nil] at read
  exact (EStateM.Result.ok.inj read).1.symm

end TextCompletion.Json
