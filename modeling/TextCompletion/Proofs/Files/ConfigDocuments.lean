import TextCompletion.ModelConfig
import TextCompletion.Proofs.Json.Members
import TextCompletion.Proofs.Json.Printing

/-!
`config.json` as it may be written: an object with the fields of a configuration among any other
members, in any order. What a configuration describes is loaded as this configuration, as long as
the name of every member is a text; a field that is named twice is refused.
-/

namespace TextCompletion

open Json

def TokenIds.Writes : TokenIds → List UInt8 → Prop
  | .one id => Counts id
  | .many ids => Lists Counts ids

def WritesFlag : Bool → List UInt8 → Prop
  | true, t => t = trueText
  | false, t => t = falseText ∨ t = nullText

namespace Json.Reader

variable {t : List UInt8}

theorem reads_texts {items : List String} (lists : Lists Quotes items t) :
    Reads (list text) t items := by
  obtain ⟨ts, written, encloses⟩ := lists
  refine reads_list (written.imp fun _ _ => reads_text) (fun t member => ?_) encloses
  obtain ⟨s, -, quoted⟩ := exists_of_forall₂ written t member
  exact quoted.isValue

theorem ofJson?_natural {id : Nat} (fits : id ≤ tokenBound) :
    TokenIds.ofJson? (.number (.natural id)) = some (.one id) := by
  simp [TokenIds.ofJson?, TokenIds.tokenId?, fits]

theorem ofJson?_array {ids : List Nat} (fits : ∀ id ∈ ids, id ≤ tokenBound) :
    TokenIds.ofJson? (.array (ids.map fun id => .number (.natural id))) = some (.many ids) := by
  have each : (ids.map fun id => Json.number (.natural id)).mapM TokenIds.tokenId? = some ids := by
    induction ids with
    | nil => rfl
    | cons id ids ih =>
      obtain ⟨first, others⟩ := List.forall_mem_cons.1 fits
      simp [TokenIds.tokenId?, first, ih others]
  simp [TokenIds.ofJson?, each]

theorem reads_tokenIds {ids : TokenIds} (written : ids.Writes t)
    (fits : ∀ id ∈ ids.toList, id ≤ tokenBound) : Reads tokenIds t ids := by
  have reads (v : Json) (value : Reads innerValue t v) (means : TokenIds.ofJson? v = some ids) :
      Reads tokenIds t ids :=
    value.bind fun c => by rw [means]; rfl
  have small (id : Nat) (member : id ∈ ids.toList) : id ≤ Decimal.wordBound :=
    Nat.le_trans (fits id member) (by decide)
  cases ids with
  | one id =>
    have member : id ∈ (TokenIds.one id).toList := List.mem_singleton.2 rfl
    exact reads _ (reads_value_natural _ written (small id member))
      (ofJson?_natural (fits id member))
  | many ids =>
    obtain ⟨ts, written, encloses⟩ := written
    have items : List.Forall₂ (fun v t => Reads (value 125) t v)
        (ids.map fun id => .number (.natural id)) ts :=
      List.forall₂_map_left_iff.2 (((List.forall₂_and_left ids ts).2 ⟨small, written⟩).imp
        fun id t both => reads_value_natural 125 both.2 both.1)
    have values : ∀ t ∈ ts, IsValue t := fun t member => by
      obtain ⟨id, -, counts⟩ := exists_of_forall₂ written t member
      exact counts.isValue
    exact reads _ (reads_value_array 125 items values encloses) (ofJson?_array fits)

theorem isValue_of_writes {ids : TokenIds} (written : ids.Writes t) :
    IsValue t ∧ t.head? ≠ some 110 := by
  cases ids with
  | one id => exact ⟨Counts.isValue written, Counts.notNull written⟩
  | many ids => exact ⟨Lists.isValue written fun _ _ => Counts.isValue, Lists.notNull written⟩

theorem reads_truthy {flag : Bool} (written : WritesFlag flag t) : Reads truthy t flag := by
  have reads (v : Json) (value : Reads innerValue t v) (means : v.isTruthy = flag) :
      Reads truthy t flag := value.map Json.isTruthy means
  cases flag with
  | true =>
    obtain rfl : t = trueText := written
    exact reads _ (reads_value_true _) rfl
  | false =>
    rcases written with rfl | rfl
    · exact reads _ (reads_value_false _) rfl
    · exact reads _ (reads_value_null _) rfl

theorem skippable_tokenIds : Skippable tokenIds := by
  refine (value_skippable _).bind fun v => ?_
  cases TokenIds.ofJson? v with
  | none => exact fun c a c₁ ok => absurd ok (fails_failUnplaced _ c a c₁)
  | some ids => exact still_pure ids

theorem skippable_truthy : Skippable truthy := (value_skippable _).map Json.isTruthy

end Json.Reader

namespace ModelConfig

structure Fits (c : ModelConfig) : Prop where
  eosTokenId : ∀ ids ∈ c.eosTokenId, ∀ id ∈ ids.toList, id ≤ tokenBound
  padTokenId : ∀ id ∈ c.padTokenId, id ≤ tokenBound
  decoderStartTokenId : ∀ id ∈ c.decoderStartTokenId, id ≤ tokenBound
  maxPositionEmbeddings : ∀ n ∈ c.maxPositionEmbeddings, n ≤ Decimal.wordBound

/-- The members of an object give the fields of the configuration. Any field may be left out that is
`false`, absent or empty. -/
structure Describes (members : List Json.Member) (c : ModelConfig) : Prop where
  isEncoderDecoder : Gives members "is_encoder_decoder" (WritesFlag c.isEncoderDecoder)
    (c.isEncoderDecoder = false)
  modelType : Gives members "model_type" (Nullable Quotes c.modelType) (c.modelType = none)
  architectures : Gives members "architectures" (Lists Quotes c.architectures)
    (c.architectures = [])
  eosTokenId : Gives members "eos_token_id" (Nullable TokenIds.Writes c.eosTokenId)
    (c.eosTokenId = none)
  padTokenId : Gives members "pad_token_id" (Nullable Counts c.padTokenId) (c.padTokenId = none)
  decoderStartTokenId : Gives members "decoder_start_token_id"
    (Nullable Counts c.decoderStartTokenId) (c.decoderStartTokenId = none)
  maxPositionEmbeddings : Gives members "max_position_embeddings"
    (Nullable Counts c.maxPositionEmbeddings) (c.maxPositionEmbeddings = none)

def part (c : ModelConfig) (names : List String) : ModelConfig where
  isEncoderDecoder := if "is_encoder_decoder" ∈ names then c.isEncoderDecoder else false
  modelType := if "model_type" ∈ names then c.modelType else none
  architectures := if "architectures" ∈ names then c.architectures else []
  eosTokenId := if "eos_token_id" ∈ names then c.eosTokenId else none
  padTokenId := if "pad_token_id" ∈ names then c.padTokenId else none
  decoderStartTokenId := if "decoder_start_token_id" ∈ names then c.decoderStartTokenId else none
  maxPositionEmbeddings :=
    if "max_position_embeddings" ∈ names then c.maxPositionEmbeddings else none

open Json.Reader

theorem skippable_fields : ∀ f ∈ schema.fields, ∀ s, Skippable (f.read s) := by
  simp only [schema, List.forall_mem_cons, List.not_mem_nil, false_imp_iff, implies_true, and_true]
  exact ⟨fun s => skippable_truthy.map _, fun s => (skippable_optional skippable_text).map _,
    fun s => (skippable_list skippable_text).map _,
    fun s => (skippable_optional skippable_tokenIds).map _,
    fun s => (skippable_optional (skippable_natural _ _)).map _,
    fun s => (skippable_optional (skippable_natural _ _)).map _,
    fun s => (skippable_optional (skippable_natural _ _)).map _⟩

variable {c : ModelConfig} {members : List Json.Member}

/-- As a description, with any text for the flag that is read as it. -/
structure Tells (members : List Json.Member) (c : ModelConfig) : Prop where
  isEncoderDecoder : Gives members "is_encoder_decoder" (Reads truthy · c.isEncoderDecoder)
    (c.isEncoderDecoder = false)
  modelType : Gives members "model_type" (Nullable Quotes c.modelType) (c.modelType = none)
  architectures : Gives members "architectures" (Lists Quotes c.architectures)
    (c.architectures = [])
  eosTokenId : Gives members "eos_token_id" (Nullable TokenIds.Writes c.eosTokenId)
    (c.eosTokenId = none)
  padTokenId : Gives members "pad_token_id" (Nullable Counts c.padTokenId) (c.padTokenId = none)
  decoderStartTokenId : Gives members "decoder_start_token_id"
    (Nullable Counts c.decoderStartTokenId) (c.decoderStartTokenId = none)
  maxPositionEmbeddings : Gives members "max_position_embeddings"
    (Nullable Counts c.maxPositionEmbeddings) (c.maxPositionEmbeddings = none)

theorem Describes.tells (described : Describes members c) : Tells members c :=
  { described with
    isEncoderDecoder :=
      { described.isEncoderDecoder with
        written := fun m listed named =>
          reads_truthy (described.isEncoderDecoder.written m listed named) } }

theorem reads_field (fits : c.Fits) (tells : Tells members c) :
    ∀ f ∈ schema.fields, ∀ m ∈ members, m.Named f.name → ∀ names,
      Reads (f.read (c.part names)) m.value (c.part (f.name :: names)) := by
  have number (bound : Nat) (type : String) {o : Option Nat} {t : List UInt8}
      (written : Nullable Counts o t) (le : ∀ n ∈ o, n ≤ bound)
      (small : ∀ n ∈ o, n ≤ Decimal.wordBound) : Reads (optional (natural bound type)) t o :=
    reads_nullable written fun n given counts =>
      ⟨reads_natural type counts (le n given) (small n given), counts.isValue, counts.notNull⟩
  have word {n : Nat} (le : n ≤ tokenBound) : n ≤ Decimal.wordBound := Nat.le_trans le (by decide)
  simp only [schema, List.forall_mem_cons, List.not_mem_nil, false_imp_iff, implies_true, and_true]
  refine ⟨fun m listed named names => ?_, fun m listed named names => ?_,
    fun m listed named names => ?_, fun m listed named names => ?_,
    fun m listed named names => ?_, fun m listed named names => ?_,
    fun m listed named names => ?_⟩
  · exact (tells.isEncoderDecoder.written m listed named).map _ (by simp [part])
  · exact (reads_optional_text (tells.modelType.written m listed named)).map _ (by simp [part])
  · exact (reads_texts (tells.architectures.written m listed named)).map _ (by simp [part])
  · refine (reads_nullable (tells.eosTokenId.written m listed named) ?_).map _ (by simp [part])
    exact fun ids given written =>
      ⟨reads_tokenIds written (fits.eosTokenId ids given), isValue_of_writes written⟩
  · refine (number _ _ (tells.padTokenId.written m listed named) fits.padTokenId ?_).map _
      (by simp [part])
    exact fun id given => word (fits.padTokenId id given)
  · refine (number _ _ (tells.decoderStartTokenId.written m listed named)
      fits.decoderStartTokenId ?_).map _ (by simp [part])
    exact fun id given => word (fits.decoderStartTokenId id given)
  · exact (number _ _ (tells.maxPositionEmbeddings.written m listed named)
      fits.maxPositionEmbeddings fits.maxPositionEmbeddings).map _ (by simp [part])

theorem once_field (tells : Tells members c) : ∀ f ∈ schema.fields,
    members.Pairwise fun m m' => ¬(m.Named f.name ∧ m'.Named f.name) := by
  simp only [schema, List.forall_mem_cons, List.not_mem_nil, false_imp_iff, implies_true, and_true]
  exact ⟨tells.isEncoderDecoder.once, tells.modelType.once, tells.architectures.once,
    tells.eosTokenId.once, tells.padTokenId.once, tells.decoderStartTokenId.once,
    tells.maxPositionEmbeddings.once⟩

theorem part_eq (tells : Tells members c) {names : List String}
    (told : ∀ f ∈ schema.fields, f.name ∈ names ↔ ∃ m ∈ members, m.Named f.name) :
    c.part names = c := by
  simp only [schema, List.forall_mem_cons, List.not_mem_nil, false_imp_iff, implies_true,
    and_true] at told
  obtain ⟨flag, modelType, architectures, eos, pad, start, positions⟩ := told
  simp only [part, kept tells.isEncoderDecoder flag, kept tells.modelType modelType,
    kept tells.architectures architectures, kept tells.eosTokenId eos,
    kept tells.padTokenId pad, kept tells.decoderStartTokenId start,
    kept tells.maxPositionEmbeddings positions]

def fieldNames : List String := schema.fields.map (·.name)

theorem run_told_config (fits : c.Fits) (tells : Tells members c)
    (names : ∀ m ∈ members, ∃ name, m.Named name) (values : ∀ m ∈ members, IsValue m.value)
    {text : Bytes} (document : Documents (IsObject members) text) :
    run (record schema) text = .ok c :=
  run_told (by decide) c.part rfl (once_field tells) (reads_field fits tells)
    (fun _ told => part_eq tells told) names values document

theorem run_described (fits : c.Fits) (described : Describes members c)
    (names : ∀ m ∈ members, ∃ name, m.Named name) (values : ∀ m ∈ members, IsValue m.value)
    {text : Bytes} (document : Documents (IsObject members) text) :
    run (record schema) text = .ok c :=
  run_told_config fits described.tells names values document

theorem load_of_read {t : FileTree} {directory : String} {text : Bytes}
    (file : t.read (FilePath.join directory fileName) = .ok text) :
    load t directory = (record schema).ofFile (FilePath.join directory fileName) text := by
  simp only [load, FileTree.contentOf, file]
  rfl

theorem ofFile_eq_ok {α : Type} {r : Reader α} {path : String} {text : Bytes} {a : α} :
    r.ofFile path text = .ok a ↔ run r text = .ok a := by
  unfold ofFile
  cases run r text <;> simp

/-- What a configuration describes, however it is written, is loaded as this configuration if and
only if the name of every member is a text. A document that names a field twice is refused, and the
failure names the file. -/
theorem load_document {t : FileTree} {directory : String} {text : Bytes}
    {members : List Json.Member} (file : t.read (FilePath.join directory fileName) = .ok text)
    (document : Documents (IsObject members) text)
    (wellFormed : ∀ m ∈ members, IsString m.key ∧ IsValue m.value) :
    (∀ c : ModelConfig, c.Fits → Describes members c →
      (load t directory = .ok c ↔ ∀ m ∈ members, ∃ name, m.Named name)) ∧
    ∀ name ∈ fieldNames, ∀ before m between m' after,
      members = before ++ m :: (between ++ m' :: after) → m.Named name → m'.Named name →
        ∃ fault, load t directory =
          .error ⟨[.parseFile (FilePath.join directory fileName)], .document fault⟩ := by
  have keys m (member : m ∈ members) := (wellFormed m member).1
  have values m (member : m ∈ members) := (wellFormed m member).2
  have takes {c : ModelConfig} (ok : run (record schema) text = .ok c) :=
    takes_of_run skippable_fields keys values document ok
  rw [load_of_read file]
  refine ⟨fun c fits described => ?_,
    fun name listed before m between m' after split first second => ?_⟩
  · rw [ofFile_eq_ok]
    exact ⟨fun ok => (takes ok).named,
      fun names => run_described fits described names values document⟩
  · cases result : run (record schema) text with
    | error fault => exact ⟨fault, by simp only [ofFile, result]⟩
    | ok c =>
      obtain ⟨f, member, rfl⟩ := List.mem_map.1 listed
      obtain ⟨g, found⟩ := exists_field? member
      have once := ((takes result).once found).2
      rw [split] at once
      have after := (List.pairwise_cons.1 (List.pairwise_append.1 once).2.1).1
      exact absurd ⟨first, second⟩ (after m' (by simp))

/-! ## Documents in a directory -/

namespace Sample

def tree (text : Bytes) : FileTree where
  root := .directory [("m", .directory [("config.json", .file text)])]

theorem read_tree (text : Bytes) :
    (tree text).read (FilePath.join "/m" fileName) = .ok text := by
  rfl

def licensed : List (String × String) := [("license", "mit"), ("model_type", "t5")]

theorem describes_licensed :
    Describes (licensed.map Printer.printed) { modelType := some "t5" } := by
  have distinct : (licensed.map Prod.fst).Nodup := by decide
  have silent {name : String} {writes : List UInt8 → Prop} {omitted : Prop} (holds : omitted)
      (other : name ∉ licensed.map Prod.fst) :
      Gives (licensed.map Printer.printed) name writes omitted :=
    Printer.gives_printed distinct
      (fun t listed => absurd (List.mem_map_of_mem listed) other) fun _ => holds
  refine ⟨silent rfl (by decide), Printer.gives_printed distinct (fun t listed => ?_) ?_,
    silent rfl (by decide), silent rfl (by decide), silent rfl (by decide),
    silent rfl (by decide), silent rfl (by decide)⟩
  · obtain rfl : t = "t5" := by simpa [licensed] using listed
    exact Printer.quotes_text "t5"
  · exact fun left => absurd (by decide) left

theorem fits_licensed : Fits { modelType := some "t5" } := by
  constructor <;> simp

/-- `"\ud800": 1`, a member whose name lacks the other half of a surrogate. -/
def halfNamed : Json.Member := ⟨[34, 92, 117, 100, 56, 48, 48, 34], [49]⟩

theorem not_named_halfNamed (name : String) : ¬halfNamed.Named name := by
  intro named
  have read : Reader.key ⟨halfNamed.key ++ [], ⟨1, 0⟩⟩ = _ := key_quotes named
  have refused : Reader.key ⟨halfNamed.key ++ [], ⟨1, 0⟩⟩ =
      .error ⟨.brokenSurrogatePair, some ⟨1, 8⟩⟩ ⟨[], ⟨1, 8⟩⟩ := by rfl
  rw [refused] at read
  cases read

theorem wellFormed_halfNamed : IsString halfNamed.key ∧ IsValue halfNamed.value := by
  refine ⟨⟨[[92, 117, 100, 56, 48, 48]], ?_, rfl⟩, Counts.isValue (n := 1) ⟨?_, rfl⟩⟩
  · exact List.forall_mem_singleton.2 (.number (n := 0xD800) ⟨100, 56, 48, 48, rfl, rfl⟩)
  · exact .digits rfl (by decide) fun _ member => nomatch member

theorem documents_single (m : Json.Member) :
    Documents (IsObject [m]) (123 :: (m.key ++ 58 :: (m.value ++ [125]))) := by
  refine ⟨[], _, [], isBlank_nil, isBlank_nil,
    ⟨[m.key ++ 58 :: m.value], .cons ⟨[], [], isBlank_nil, isBlank_nil, rfl⟩ .nil,
      _, .next (.first isBlank_nil) (.done isBlank_nil), rfl⟩, ?_⟩
  simp

theorem documents_halfNamed :
    Documents (IsObject [halfNamed])
      (123 :: (halfNamed.key ++ 58 :: (halfNamed.value ++ [125]))) :=
  documents_single halfNamed

theorem describes_halfNamed : Describes [halfNamed] {} := by
  have silent {name : String} {writes : List UInt8 → Prop} {omitted : Prop} (holds : omitted) :
      Gives [halfNamed] name writes omitted :=
    { once := List.pairwise_singleton _ _
      written := List.forall_mem_singleton.2 fun named => absurd named (not_named_halfNamed name)
      omitted := fun _ => holds }
  exact ⟨silent rfl, silent rfl, silent rfl, silent rfl, silent rfl, silent rfl, silent rfl⟩

end Sample

open Sample in
theorem load_licensed :
    load (tree (Text.Utf8.encode (Printer.object licensed))) "/m" =
      .ok { modelType := some "t5" } ∧
    ∃ fault, load (tree (Text.Utf8.encode
        (Printer.object [("model_type", "t5"), ("model_type", "t5")]))) "/m" =
      .error ⟨[.parseFile "/m/config.json"], .document fault⟩ := by
  have described := (load_document (read_tree _) (Printer.documents_object licensed)
    (Printer.wellFormed_printed licensed)).1
  have twice := (load_document (read_tree _)
    (Printer.documents_object [("model_type", "t5"), ("model_type", "t5")])
    (Printer.wellFormed_printed _)).2
  refine ⟨(described _ fits_licensed describes_licensed).2 (Printer.exists_named_printed licensed),
    twice "model_type" (by decide) [] _ [] _ [] rfl ?_ ?_⟩
  · exact Printer.named_printed.2 rfl
  · exact Printer.named_printed.2 rfl

open Sample in
/-- A member whose name is a string but no text is named as no field, and still the document is
refused that describes the configuration beside it. -/
theorem load_halfNamed : ∃ text, (tree text).read (FilePath.join "/m" fileName) = .ok text ∧
    Documents (IsObject [halfNamed]) text ∧
    (IsString halfNamed.key ∧ IsValue halfNamed.value) ∧
    Fits {} ∧ Describes [halfNamed] {} ∧ (∀ name ∈ fieldNames, ¬halfNamed.Named name) ∧
    ∀ c, load (tree text) "/m" ≠ .ok c := by
  refine ⟨_, read_tree _, documents_halfNamed, wellFormed_halfNamed, by constructor <;> simp,
    describes_halfNamed, fun name _ => not_named_halfNamed name, fun c loaded => ?_⟩
  rw [load_of_read (read_tree _), ofFile_eq_ok] at loaded
  obtain ⟨name, named⟩ := (takes_of_run skippable_fields
    (List.forall_mem_singleton.2 wellFormed_halfNamed.1)
    (List.forall_mem_singleton.2 wellFormed_halfNamed.2) documents_halfNamed loaded).named
      halfNamed List.mem_cons_self
  exact not_named_halfNamed name named

end ModelConfig
end TextCompletion
