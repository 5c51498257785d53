import TextCompletion.Proofs.Files.ConfigDocuments
import TextCompletion.Proofs.Json.Magnitudes
import TextCompletion.Proofs.Json.Values

/-!
The flag that decides between the two kinds of models. It may be a value of any kind, and it counts
as false when it is `null`, `false`, a number that is zero as a double, or empty; a flag that is left
out counts as false as well. Whatever else a configuration says, the architecture follows the flag.
-/

namespace TextCompletion

open Json Json.Reader

/-- The texts of what counts as false. -/
inductive IsFalsy : List UInt8 → Prop
  | null : IsFalsy nullText
  | false : IsFalsy falseText
  | zero {n : Numeral} {x : Number} {t : List UInt8} : n.Writes t → n.number? = some x →
      Decimal.IsZero x.toFloat → IsFalsy t
  | string : IsFalsy [34, 34]
  | array {t : List UInt8} : Encloses 91 93 [] t → IsFalsy t
  | object {t : List UInt8} : IsObject [] t → IsFalsy t

section

variable {v : Json} {t : List UInt8} {depth : Nat}

theorem isTruthy_number (x : Number) :
    (Json.number x).isTruthy = false ↔ Decimal.IsZero x.toFloat := by
  rw [← Decimal.beq_zero_iff, Json.isTruthy, bne, Bool.not_eq_false']

theorem quotes_empty : Quotes "" t ↔ t = [34, 34] := by
  constructor
  · rintro ⟨body, spelled, rfl⟩
    cases spelled
    rfl
  · rintro rfl
    exact ⟨[], .nil, rfl⟩

theorem exists_denotes_of_isFalsy (falsy : IsFalsy t) (depth : Nat) :
    ∃ v, Denotes (depth + 1) v t ∧ v.isTruthy = false := by
  cases falsy with
  | null => exact ⟨.null, rfl, rfl⟩
  | false => exact ⟨.boolean false, rfl, rfl⟩
  | @zero n x _ written number zero =>
    exact ⟨.number x, ⟨n, written, number⟩, (isTruthy_number x).2 zero⟩
  | string => exact ⟨.string "", quotes_empty.2 rfl, rfl⟩
  | array encloses => exact ⟨.array [], ⟨[], .nil, encloses⟩, rfl⟩
  | object object => exact ⟨.object [], ⟨[], .nil, object⟩, rfl⟩

theorem isTruthy_eq_false_iff (denotes : Denotes (depth + 1) v t) :
    v.isTruthy = false ↔ IsFalsy t := by
  constructor
  · intro falsy
    cases v with
    | null => exact denotes ▸ .null
    | boolean b =>
      obtain rfl : b = false := falsy
      exact denotes ▸ .false
    | number x =>
      obtain ⟨n, written, number⟩ := denotes
      exact .zero written number ((isTruthy_number x).1 falsy)
    | string s =>
      obtain rfl : s = "" := by simpa [Json.isTruthy] using falsy
      exact quotes_empty.1 denotes ▸ .string
    | array items =>
      obtain rfl : items = [] := by simpa [Json.isTruthy] using falsy
      obtain ⟨ts, written, encloses⟩ := denotes
      cases written
      exact .array encloses
    | object pairs =>
      obtain rfl : pairs = [] := by simpa [Json.isTruthy] using falsy
      obtain ⟨members, related, object⟩ := denotes
      cases related
      exact .object object
  · intro falsy
    obtain ⟨v', denotes', falsy⟩ := exists_denotes_of_isFalsy falsy depth
    rwa [denotes_unique denotes denotes']

end

namespace ModelConfig

def flagName : String := "is_encoder_decoder"

variable {c : ModelConfig} {members before after : List Member} {m : Member} {v : Json}
  {text : Bytes}

theorem architecture_eq_causal_iff :
    c.architecture = .causalDecoder ↔ c.isEncoderDecoder = false := by
  unfold architecture
  cases c.isEncoderDecoder <;> simp

theorem architecture_eq_encoder_iff :
    c.architecture = .encoderDecoder ↔ ¬c.architecture = .causalDecoder := by
  unfold architecture
  cases c.isEncoderDecoder <;> simp

theorem eq_isTruthy_of_accepts {flag : Bool} {t : List UInt8} (accepts : Accepts truthy t flag)
    (denotes : Denotes (maxDepth - 1) v t) : flag = v.isTruthy := by
  obtain ⟨v', ⟨w, rest, p, c, blank, closes, read⟩, rfl⟩ := accepts.of_map
  have same := (reads_value_denotes denotes w rest p blank closes).symm.trans read
  rw [(EStateM.Result.ok.inj same).1]

theorem flag_of_run (keys : ∀ m ∈ members, IsString m.key) (values : ∀ m ∈ members, IsValue m.value)
    (document : Documents (IsObject members) text) (ok : run (record schema) text = .ok c) :
    (∀ m ∈ members, ¬m.Named flagName) ∧ c.isEncoderDecoder = false ∨
      ∃ m ∈ members, (∀ m' ∈ members, m'.Named flagName ↔ m' = m) ∧
        Accepts truthy m.value c.isEncoderDecoder := by
  have takes := takes_of_run skippable_fields keys values document ok
  have found : schema.field? flagName =
      some { name := flagName, read := fun c => do pure { c with isEncoderDecoder := ← truthy } } :=
    rfl
  have keeps : ∀ g ∈ schema.fields, g.name ≠ flagName → ∀ s t s₁, Accepts (g.read s) t s₁ →
      s₁.isEncoderDecoder = s.isEncoderDecoder := by
    simp only [schema, List.forall_mem_cons, List.not_mem_nil, false_imp_iff, implies_true,
      and_true]
    refine ⟨fun other => absurd rfl other, ?_, ?_, ?_, ?_, ?_, ?_⟩
    all_goals
      intro _ s t s₁ accepts
      obtain ⟨_, -, rfl⟩ := accepts.of_map
      rfl
  refine (takes.observes isEncoderDecoder found keeps).imp_right ?_
  rintro ⟨m, listed, only, s₀, s₁, set, same⟩
  obtain ⟨flag, accepts, rfl⟩ := set.of_map
  exact ⟨m, listed, only, same ▸ accepts⟩

theorem Describes.flagged (described : Describes (before ++ after) c)
    (unflagged : ∀ m' ∈ before ++ after, ¬m'.Named flagName) (named : m.Named flagName)
    (denotes : Denotes (maxDepth - 1) v m.value) :
    Tells (before ++ m :: after) { c with isEncoderDecoder := v.isTruthy } := by
  have differs {name : String} (other : name ≠ flagName) : ¬m.Named name :=
    fun also => other (quotes_unique also named)
  have flag : Reads truthy m.value v.isTruthy :=
    (reads_value_denotes denotes).map Json.isTruthy rfl
  refine ⟨⟨?_, fun m' listed named' => ?_, fun none => ?_⟩,
    gives_insert described.modelType (differs (by decide)),
    gives_insert described.architectures (differs (by decide)),
    gives_insert described.eosTokenId (differs (by decide)),
    gives_insert described.padTokenId (differs (by decide)),
    gives_insert described.decoderStartTokenId (differs (by decide)),
    gives_insert described.maxPositionEmbeddings (differs (by decide))⟩
  · exact pairwise_insert described.isEncoderDecoder.once fun _ => unflagged
  · rcases mem_insert.1 listed with rfl | listed
    · exact flag
    · exact absurd named' (unflagged m' listed)
  · exact absurd named (none m (mem_insert.2 (.inl rfl)))

/-- The architecture is the one that the flag among the members asks for. -/
structure FollowsFlag (members : List Member) (c : ModelConfig) : Prop where
  absent : (∀ m ∈ members, ¬m.Named flagName) → c.architecture = .causalDecoder
  falsy : ∀ m ∈ members, m.Named flagName → ∀ v, Denotes (maxDepth - 1) v m.value →
    (c.architecture = .causalDecoder ↔ IsFalsy m.value)
  truthy : ∀ m ∈ members, m.Named flagName → ∀ v, Denotes (maxDepth - 1) v m.value →
    (c.architecture = .encoderDecoder ↔ ¬IsFalsy m.value)
  zero : ∀ m ∈ members, m.Named flagName → ∀ n : Numeral, n.Writes m.value → n.magnitude = 0 →
    c.architecture = .causalDecoder
  underflows : ∀ m ∈ members, m.Named flagName → ∀ n : Numeral, n.Writes m.value →
    n.number?.isSome → n.magnitude * (1 + 1 / 2 ^ 40) ≤ 2 ^ (-1075 : ℤ) →
    c.architecture = .causalDecoder
  nonzero : ∀ m ∈ members, m.Named flagName → ∀ n : Numeral, n.Writes m.value →
    n.number?.isSome → n.IsBounded → 2 ^ (-1075 : ℤ) * (1 + 1 / 2 ^ 40) ≤ n.magnitude →
    c.architecture = .encoderDecoder

theorem followsFlag_of_run (keys : ∀ m ∈ members, IsString m.key)
    (values : ∀ m ∈ members, IsValue m.value) (document : Documents (IsObject members) text)
    (ok : run (record schema) text = .ok c) : FollowsFlag members c := by
  have falsy : ∀ m ∈ members, m.Named flagName → ∀ v, Denotes (maxDepth - 1) v m.value →
      (c.architecture = .causalDecoder ↔ IsFalsy m.value) := by
    intro m listed named v denotes
    rcases flag_of_run keys values document ok with ⟨none, -⟩ | ⟨m', -, only, accepts⟩
    · exact absurd named (none m listed)
    · obtain rfl := (only m listed).1 named
      rw [architecture_eq_causal_iff, eq_isTruthy_of_accepts accepts denotes]
      exact isTruthy_eq_false_iff denotes
  refine ⟨fun absent => ?_, falsy, fun m listed named v denotes => ?_,
    fun m listed named n written zero => ?_, fun m listed named n written read small => ?_,
    fun m listed named n written read bounded large => ?_⟩
  · rcases flag_of_run keys values document ok with ⟨-, unset⟩ | ⟨m, listed, only, -⟩
    · exact architecture_eq_causal_iff.2 unset
    · exact absurd ((only m listed).2 rfl) (absent m listed)
  · rw [architecture_eq_encoder_iff, falsy m listed named v denotes]
  · obtain ⟨x, number, zero⟩ := n.isZero_of_eq_zero written zero
    exact (falsy m listed named (.number x) ⟨n, written, number⟩).2 (.zero written number zero)
  · obtain ⟨x, number⟩ := Option.isSome_iff_exists.1 read
    exact (falsy m listed named (.number x) ⟨n, written, number⟩).2
      (.zero written number (Numeral.isZero_of_small written small number))
  · obtain ⟨x, number⟩ := Option.isSome_iff_exists.1 read
    have denotes : Denotes (maxDepth - 1) (.number x) m.value := ⟨n, written, number⟩
    rw [architecture_eq_encoder_iff, falsy m listed named _ denotes]
    refine mt (isTruthy_eq_false_iff denotes).2 fun untrue => ?_
    exact Numeral.not_isZero_of_large written bounded large number ((isTruthy_number x).1 untrue)

/-- The architecture of a configuration that is loaded follows the flag alone. A flag of any value
is loaded beside whatever describes the other fields, and a number is such a value if it is at most
10 to the power 308 and its exponent is not too large. -/
theorem load_flagged {t : FileTree} {directory : String}
    (file : t.read (FilePath.join directory fileName) = .ok text)
    (document : Documents (IsObject members) text)
    (wellFormed : ∀ m ∈ members, IsString m.key ∧ IsValue m.value) :
    (∀ c, load t directory = .ok c → FollowsFlag members c) ∧
    (∀ before m after v c, members = before ++ m :: after → m.Named flagName →
      Denotes (maxDepth - 1) v m.value → Describes (before ++ after) c → c.Fits →
      (∀ m' ∈ before ++ after, ¬m'.Named flagName ∧ ∃ name, m'.Named name) →
      ∃ flag, load t directory = .ok { c with isEncoderDecoder := flag }) ∧
    ∀ (n : Numeral) number, n.Writes number → n.IsBounded → n.magnitude ≤ 10 ^ 308 →
      ∃ x, Denotes (maxDepth - 1) (.number x) number := by
  have keys m (listed : m ∈ members) := (wellFormed m listed).1
  have values m (listed : m ∈ members) := (wellFormed m listed).2
  rw [load_of_read file]
  refine ⟨fun c ok => followsFlag_of_run keys values document (ofFile_eq_ok.1 ok),
    fun before m after v c split named denotes described fits others => ?_,
    fun n number written bounded range => ?_⟩
  · subst split
    have tells := described.flagged (fun m' listed => (others m' listed).1) named denotes
    have names : ∀ m' ∈ before ++ m :: after, ∃ name, m'.Named name := fun m' listed => by
      rcases mem_insert.1 listed with rfl | listed
      · exact ⟨flagName, named⟩
      · exact (others m' listed).2
    have fits' : Fits { c with isEncoderDecoder := v.isTruthy } :=
      ⟨fits.eosTokenId, fits.padTokenId, fits.decoderStartTokenId, fits.maxPositionEmbeddings⟩
    exact ⟨v.isTruthy, ofFile_eq_ok.2 (run_told_config fits' tells names values document)⟩
  · exact (n.exists_number? written bounded range).imp fun x number => ⟨n, written, number⟩

namespace Sample

def flagged (value : List UInt8) : Member := ⟨bytes (Printer.text flagName), value⟩

def flaggedText (value : List UInt8) : Bytes :=
  123 :: ((flagged value).key ++ 58 :: (value ++ [125]))

theorem named_flagged (value : List UInt8) : (flagged value).Named flagName :=
  Printer.quotes_text flagName

theorem wellFormed_flagged {value : List UInt8} (denotes : Denotes (maxDepth - 1) v value) :
    ∀ m ∈ [flagged value], IsString m.key ∧ IsValue m.value :=
  List.forall_mem_singleton.2 ⟨Quotes.isString (named_flagged value), denotes.isValue⟩

theorem describes_nothing : Describes [] {} := by
  have silent {name : String} {writes : List UInt8 → Prop} {omitted : Prop} (holds : omitted) :
      Gives [] name writes omitted :=
    { once := .nil
      written := fun _ listed => nomatch listed
      omitted := fun _ => holds }
  exact ⟨silent rfl, silent rfl, silent rfl, silent rfl, silent rfl, silent rfl, silent rfl⟩

def signedZero : Numeral := ⟨true, [48], [], some ⟨false, [57]⟩⟩

theorem writes_signedZero : signedZero.Writes [45, 48, 101, 57] := by
  refine ⟨[], [101, 57], .zero, .none, ?_, rfl⟩
  exact .mark (.inl rfl) (List.mem_cons_self) rfl isDigits_nil

theorem magnitude_signedZero : signedZero.magnitude = 0 := by
  simp [Numeral.magnitude, signedZero, wholeFrom]

theorem denotes_listedZero :
    Denotes (maxDepth - 1) (.array [.number (.natural 0)]) [91, 48, 93] := by
  refine ⟨[[48]], .cons ⟨⟨false, [48], [], none⟩, ?_, rfl⟩ .nil, [48],
    .next (.first isBlank_nil) (.done isBlank_nil), rfl⟩
  exact ⟨[], [], .zero, .none, .none, rfl⟩

end Sample

open Sample in
/-- Zero is false in any spelling, but a list of it is true. -/
theorem load_signedZero :
    (∃ c, load (tree (flaggedText [45, 48, 101, 57])) "/m" = .ok c ∧
      c.architecture = .causalDecoder) ∧
    ∃ c, load (tree (flaggedText [91, 48, 93])) "/m" = .ok c ∧
      c.architecture = .encoderDecoder := by
  have fits : Fits {} := by constructor <;> simp
  obtain ⟨x, number, zero⟩ := Numeral.isZero_of_eq_zero writes_signedZero magnitude_signedZero
  have denotes : Denotes (maxDepth - 1) (.number x) [45, 48, 101, 57] :=
    ⟨signedZero, writes_signedZero, number⟩
  constructor
  · obtain ⟨follows, loads, -⟩ := load_flagged (read_tree _) (documents_single _)
      (wellFormed_flagged denotes)
    obtain ⟨flag, loaded⟩ := loads [] _ [] _ _ rfl (named_flagged _) denotes describes_nothing fits
      (fun _ listed => nomatch listed)
    exact ⟨_, loaded, (follows _ loaded).zero _ List.mem_cons_self (named_flagged _) signedZero
      writes_signedZero magnitude_signedZero⟩
  · obtain ⟨follows, loads, -⟩ := load_flagged (read_tree _) (documents_single _)
      (wellFormed_flagged denotes_listedZero)
    obtain ⟨flag, loaded⟩ := loads [] _ [] _ _ rfl (named_flagged _) denotes_listedZero
      describes_nothing fits (fun _ listed => nomatch listed)
    refine ⟨_, loaded, ((follows _ loaded).truthy _ List.mem_cons_self (named_flagged _) _
      denotes_listedZero).2 fun falsy => ?_⟩
    exact absurd ((isTruthy_eq_false_iff denotes_listedZero).2 falsy) (by decide)

end ModelConfig
end TextCompletion
