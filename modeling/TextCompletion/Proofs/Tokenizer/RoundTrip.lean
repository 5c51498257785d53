import TextCompletion.Proofs.Text.Bytes
import TextCompletion.Proofs.Tokenizer.Documents
import TextCompletion.Proofs.Tokenizer.Words

/-!
Encoding and decoding. An id stands for one text, that of the token last added with it or else that
of the vocabulary. Main statements: where distinct texts have distinct ids, words of the vocabulary
with single spaces between them come back from their ids, whether or not special tokens are put
around them; and an id of a special token, or of nothing, changes nothing wherever it stands.
-/

namespace TextCompletion.Tokenizer

variable {t : Tokenizer} {id : Nat} {text : String} {ids ids' : List Nat} {a : AddedToken}

/-- The token that was last added with the id is special. -/
def IsSpecialId (t : Tokenizer) (id : Nat) : Prop :=
  ∃ before a after, t.added = before ++ a :: after ∧ a.id = id ∧ (∀ b ∈ after, b.id ≠ id) ∧
    ∃ b ∈ t.added, b.isSpecial = true ∧ b.text = a.text

structure IsUnknownId (t : Tokenizer) (id : Nat) : Prop where
  unadded : ∀ a ∈ t.added, a.id ≠ id
  unlisted : ∀ e ∈ t.vocabulary, e.2 ≠ id

def entries (t : Tokenizer) : List (String × Nat) :=
  t.vocabulary ++ t.added.map fun a => (a.text, a.id)

def IsDistinct (t : Tokenizer) : Prop := ∀ e ∈ t.entries, ∀ e' ∈ t.entries, e.2 = e'.2 → e.1 = e'.1

/-! The text of an id. -/

theorem isSpecial_iff :
    t.isSpecial text = true ↔ ∃ a ∈ t.added, a.isSpecial = true ∧ a.text = text := by
  simp [isSpecial]

theorem textOf?_of_last {before after : List AddedToken} (added : t.added = before ++ a :: after)
    (last : ∀ b ∈ after, b.id ≠ a.id) : t.textOf? a.id = some a.text := by
  have found : (t.added.reverse.find? fun b => b.id == a.id) = some a := by
    rw [List.find?_eq_some_iff_append]
    refine ⟨beq_self_eq_true _, after.reverse, before.reverse, by simp [added], fun b member => ?_⟩
    simpa using last b (List.mem_reverse.1 member)
  rw [textOf?, found]

theorem exists_last (member : a ∈ t.added) : ∃ before b after,
    t.added = before ++ b :: after ∧ b.id = a.id ∧ ∀ c ∈ after, c.id ≠ a.id := by
  have some : (t.added.reverse.find? fun b => b.id == a.id).isSome = true :=
    List.find?_isSome.2 ⟨a, List.mem_reverse.2 member, beq_self_eq_true _⟩
  obtain ⟨b, found⟩ := Option.isSome_iff_exists.1 some
  obtain ⟨same, front, back, turned, other⟩ := List.find?_eq_some_iff_append.1 found
  refine ⟨back.reverse, b, front.reverse, ?_, eq_of_beq same, fun c later => ?_⟩
  · simpa using congrArg List.reverse turned
  · simpa using other c (List.mem_reverse.1 later)

theorem textOf?_of_unadded (unadded : ∀ a ∈ t.added, a.id ≠ id) :
    t.textOf? id = (t.vocabulary.find? fun e => e.2 == id).map Prod.fst := by
  have none : (t.added.reverse.find? fun a => a.id == id) = none :=
    List.find?_eq_none.2 fun a member => by simpa using unadded a (List.mem_reverse.1 member)
  rw [textOf?, none]

theorem mem_entries_of_added (member : a ∈ t.added) : (a.text, a.id) ∈ t.entries :=
  List.mem_append_right _ (List.mem_map.2 ⟨a, member, rfl⟩)

theorem mem_entries_of_textOf? (found : t.textOf? id = some text) : (text, id) ∈ t.entries := by
  rw [textOf?] at found
  split at found
  · rename_i a last
    obtain rfl := Option.some.inj found
    obtain rfl : a.id = id := by simpa using List.find?_some last
    exact mem_entries_of_added (List.mem_reverse.1 (List.mem_of_find?_eq_some last))
  · obtain ⟨e, listed, rfl⟩ := Option.map_eq_some_iff.1 found
    obtain rfl : e.2 = id := by simpa using List.find?_some listed
    exact List.mem_append_left _ (List.mem_of_find?_eq_some listed)

theorem exists_textOf? (member : (text, id) ∈ t.entries) : ∃ text', t.textOf? id = some text' := by
  rw [textOf?]
  split
  · exact ⟨_, rfl⟩
  · rename_i unadded
    rcases List.mem_append.1 member with listed | added
    · have some : (t.vocabulary.find? fun e => e.2 == id).isSome = true :=
        List.find?_isSome.2 ⟨_, listed, beq_self_eq_true _⟩
      obtain ⟨e, found⟩ := Option.isSome_iff_exists.1 some
      exact ⟨e.1, by rw [found, Option.map_some]⟩
    · obtain ⟨a, own, same⟩ := List.mem_map.1 added
      have other := List.find?_eq_none.1 unadded a (List.mem_reverse.2 own)
      exact absurd (Prod.mk.inj same).2 (by simpa using other)

theorem textOf?_of_mem (distinct : t.IsDistinct) (member : (text, id) ∈ t.entries) :
    t.textOf? id = some text := by
  obtain ⟨text', found⟩ := exists_textOf? member
  rw [found]
  exact congrArg some (distinct _ (mem_entries_of_textOf? found) _ member rfl)

theorem isSpecialId_of_mem (distinct : t.IsDistinct) (member : a ∈ t.added)
    (special : a.isSpecial = true) : t.IsSpecialId a.id := by
  obtain ⟨before, b, after, whole, same, last⟩ := exists_last member
  have own : b ∈ t.added := whole ▸ List.mem_append_right _ List.mem_cons_self
  refine ⟨before, b, after, whole, same, last, a, member, special, ?_⟩
  exact distinct _ (mem_entries_of_added member) _ (mem_entries_of_added own) same.symm

/-! What decoded ids show. -/

theorem shown_append (ids ids' : List Nat) :
    t.shown (ids ++ ids') = t.shown ids ++ t.shown ids' := by
  rw [shown, List.filterMap_append, List.filter_append]
  rfl

theorem shown_of_special (special : t.IsSpecialId id) : t.shown [id] = [] := by
  obtain ⟨before, a, after, added, rfl, last, listed⟩ := special
  simp [shown, textOf?_of_last added last, isSpecial_iff.2 listed]

theorem shown_of_unknown (unknown : t.IsUnknownId id) : t.shown [id] = [] := by
  have none : (t.vocabulary.find? fun e => e.2 == id) = none :=
    List.find?_eq_none.2 fun e member => by simpa using unknown.unlisted e member
  simp [shown, textOf?_of_unadded unknown.unadded, none]

theorem shown_of_all_special (special : ∀ id ∈ ids, t.IsSpecialId id) : t.shown ids = [] := by
  induction ids with
  | nil => rfl
  | cons id ids ih =>
    obtain ⟨first, special⟩ := List.forall_mem_cons.1 special
    rw [← List.singleton_append, shown_append, shown_of_special first, ih special]
    rfl

/-! Encoding words. -/

/-- The template puts nothing but special tokens around a text. -/
def IsFramed (t : Tokenizer) : Prop :=
  ∀ parts, t.template = some parts → ∃ before after, parts = before ++ .text :: after ∧
    ∀ p ∈ before ++ after, ∃ ids, p = .special ids ∧
      ∀ id ∈ ids, ∃ a ∈ t.added, a.isSpecial = true ∧ a.id = id

/-- The settings under which words of the vocabulary come back as they went in: distinct texts have
distinct ids, words stand between blanks, nothing is changed, cut off or filled up, and the template
puts nothing but special tokens around a text. -/
structure KeepsWords (t : Tokenizer) : Prop where
  distinct : t.IsDistinct
  split : t.split = .blanks
  unnormalized : t.lowercase = false
  untruncated : t.truncation = none
  unpadded : t.padding = none
  spaced : t.joining = .spaced
  framed : t.IsFramed

/-- The members of a document that has texts split at blanks and otherwise left as they are. -/
structure IsPlain (members : List (String × Json)) : Prop where
  split : (Json.lookup? members "pre_tokenizer").bind kind? = some "WhitespaceSplit"
  neutral : ∀ name ∈ ["truncation", "padding", "normalizer", "decoder"],
    (Json.lookup? members name).getD .null = .null

instance decidableEqNull : (v : Json) → Decidable (v = .null)
  | .null => isTrue rfl
  | .boolean _ | .number _ | .string _ | .array _ | .object _ => isFalse nofun

instance decidableIsPlain (members : List (String × Json)) : Decidable (IsPlain members) :=
  decidable_of_iff (_ ∧ _) ⟨fun both => ⟨both.1, both.2⟩, fun plain => ⟨plain.split, plain.neutral⟩⟩

theorem split?_of_kind {v : Json} (kind : kind? v = some "WhitespaceSplit") :
    split? v = some .blanks := by
  cases v with
  | null => cases kind
  | _ => simp only [split?, kind]

theorem keepsWords_of_makes {members : List (String × Json)} (makes : Makes t (.object members))
    (plain : IsPlain members) (distinct : t.IsDistinct) (framed : t.IsFramed) : t.KeepsWords := by
  obtain ⟨_, d, same, taken, finished⟩ := makes
  obtain rfl := Json.object.inj same
  obtain ⟨made, -, rfl⟩ := Option.map_eq_some_iff.1 finished
  have settled := isSettled_of_takeAll? taken
  obtain ⟨truncation, padding, normalizer, decoder, -⟩ := by
    simpa only [List.forall_mem_cons] using plain.neutral
  refine ⟨distinct, ?_, ?_, ?_, ?_, ?_, framed⟩
  · obtain ⟨v, stated, kind⟩ := Option.bind_eq_some_iff.1 plain.split
    have split := settled.split
    rw [stated] at split
    exact Option.some.inj (Eq.trans (Eq.symm split) (split?_of_kind kind))
  · exact Json.Reader.eq_of_from settled.lowercase normalizer fun same =>
      (Option.some.inj same).symm
  · exact Json.Reader.eq_of_from settled.truncation truncation And.right
  · exact Json.Reader.eq_of_from settled.padding padding And.right
  · exact Json.Reader.eq_of_from settled.joining decoder fun same => (Option.some.inj same).symm

/-- The tokenizer of a directory whose document is plain. -/
theorem load_keepsWords {tree : FileTree} {directory : String} {content : Bytes}
    {members : List (String × Json)}
    (file : tree.read (FilePath.join directory fileName) = .ok content)
    (text : (Text.Utf8.decode? content).isSome)
    (parsed : Json.parse content = .ok (.object members)) (makes : Makes t (.object members))
    (plain : IsPlain members) (distinct : t.IsDistinct) (framed : t.IsFramed) :
    load tree directory = .ok t ∧ t.KeepsWords :=
  ⟨load_of_makes file text parsed makes, keepsWords_of_makes makes plain distinct framed⟩

theorem exists_wordId {word : String} (distinct : t.IsDistinct)
    (listed : ∃ id, (word, id) ∈ t.vocabulary) :
    ∃ id, t.wordId word.toList = .ok id ∧ t.textOf? id = some word := by
  cases found : t.vocabulary.lookup word with
  | none =>
    obtain ⟨id, listed⟩ := listed
    simpa using List.lookup_eq_none_iff.1 found _ listed
  | some id =>
    obtain ⟨before, after, whole, -⟩ := List.lookup_eq_some_iff.1 found
    have listed : (word, id) ∈ t.vocabulary :=
      whole ▸ List.mem_append_right _ List.mem_cons_self
    refine ⟨id, ?_, textOf?_of_mem distinct (List.mem_append_left _ listed)⟩
    rw [wordId, String.ofList_toList, found]

theorem exists_wordIds {words : List String} (distinct : t.IsDistinct)
    (listed : ∀ word ∈ words, ∃ id, (word, id) ∈ t.vocabulary) :
    ∃ ids, (words.map String.toList).mapM t.wordId = .ok ids ∧
      ids.filterMap t.textOf? = words := by
  induction words with
  | nil => exact ⟨[], rfl, rfl⟩
  | cons word words ih =>
    obtain ⟨first, listed⟩ := List.forall_mem_cons.1 listed
    obtain ⟨id, found, own⟩ := exists_wordId distinct first
    obtain ⟨ids, others, shown⟩ := ih listed
    refine ⟨id :: ids, ?_, ?_⟩
    · rw [List.map_cons, List.mapM_cons, found, others]
      rfl
    · rw [List.filterMap_cons, own, shown]

theorem exists_pieceIds (split : t.split = .blanks) {cs : List Char}
    (looked : (runs blankKind cs).mapM t.wordId = .ok ids) :
    ∃ lists, (whole cs).mapM t.pieceIds = .ok lists ∧ lists.flatten = ids := by
  cases cs with
  | nil =>
    obtain rfl := Except.ok.inj looked
    exact ⟨[], rfl, rfl⟩
  | cons c cs =>
    have own : t.pieceIds (.stretch (c :: cs)) = .ok ids := by
      rw [pieceIds, split]
      exact looked
    refine ⟨[ids], ?_, List.flatten_singleton⟩
    rw [whole, if_neg (by simp), List.mapM_cons, own]
    rfl

theorem encode_of_absent {s : String} (keeps : t.KeepsWords)
    (absent : ∀ a ∈ t.added, ¬ a.text.toList <:+: s.toList)
    (looked : (runs blankKind s.toList).mapM t.wordId = .ok ids) (special : Bool) :
    t.encode s special = .ok (t.surround special ids) := by
  obtain ⟨lists, made, rfl⟩ := exists_pieceIds keeps.split looked
  have unpadded (ids : List Nat) : t.pad ids = ids := by
    rw [pad, keeps.unpadded]
  rw [encode, pieces_of_absent keeps.unnormalized absent, keeps.untruncated, made]
  exact congrArg Except.ok (unpadded _)

theorem shown_of_fill {parts : List TemplatePart} (distinct : t.IsDistinct) (special : Bool)
    (adds : ∀ p ∈ parts, ∃ ids, p = .special ids ∧
      ∀ id ∈ ids, ∃ a ∈ t.added, a.isSpecial = true ∧ a.id = id) :
    t.shown (parts.flatMap (TemplatePart.fill special ids)) = [] := by
  refine shown_of_all_special fun id member => ?_
  obtain ⟨p, listed, inside⟩ := List.mem_flatMap.1 member
  obtain ⟨added, rfl, registered⟩ := adds p listed
  cases special with
  | false => cases inside
  | true =>
    obtain ⟨a, own, isSpecial, rfl⟩ := registered id inside
    exact isSpecialId_of_mem distinct own isSpecial

/-- What the template puts around ids is not shown. -/
theorem shown_surround (keeps : t.KeepsWords) (special : Bool) (ids : List Nat) :
    t.shown (t.surround special ids) = t.shown ids := by
  rw [surround]
  split
  · rfl
  · rename_i parts template
    obtain ⟨before, after, rfl, adds⟩ := keeps.framed parts template
    obtain ⟨first, last⟩ := List.forall_mem_append.1 adds
    rw [List.flatMap_append, List.flatMap_cons, shown_append, shown_append,
      shown_of_fill keeps.distinct special first, shown_of_fill keeps.distinct special last,
      List.nil_append, List.append_nil]
    rfl

theorem shown_of_words {words : List String} (looked : ids.filterMap t.textOf? = words)
    (absent : ∀ a ∈ t.added, ¬ a.text.toList <:+: (" ".intercalate words).toList) :
    t.shown ids = words := by
  rw [shown, looked, List.filter_eq_self]
  intro word member
  rw [Bool.not_eq_true', Bool.eq_false_iff]
  intro special
  obtain ⟨a, own, -, rfl⟩ := isSpecial_iff.1 special
  refine absent a own ?_
  rw [String.toList_intercalate]
  exact infix_intercalate (List.mem_map_of_mem member)

/-- In a tokenizer that keeps words, words of the vocabulary with single spaces between them come
back from their ids, if no added token occurs in the text, whether or not special tokens are asked
for. In every tokenizer an id of a special token, and an id of nothing, changes nothing in what is
decoded, wherever it stands and however the shown texts are joined; and where distinct texts have
distinct ids, each token that was added as special has such an id. -/
theorem decode_encode_words (t : Tokenizer) :
    (t.KeepsWords → ∀ (words : List String) (special : Bool),
      (∀ word ∈ words, IsWord word.toList ∧ ∃ id, (word, id) ∈ t.vocabulary) →
      (∀ a ∈ t.added, ¬ a.text.toList <:+: (" ".intercalate words).toList) →
      ∃ ids, t.encode (" ".intercalate words) special = .ok ids ∧
        t.decode ids = " ".intercalate words) ∧
    (∀ id, t.IsSpecialId id ∨ t.IsUnknownId id → ∀ before after,
      t.decode (before ++ [id] ++ after) = t.decode (before ++ after) ∧
        ∀ (β : Type) (join : List String → β),
          t.decodeBy join (before ++ [id] ++ after) = t.decodeBy join (before ++ after)) ∧
    (t.IsDistinct → ∀ a ∈ t.added, a.isSpecial = true → t.IsSpecialId a.id) := by
  refine ⟨fun keeps words special each absent => ?_, fun id hidden before after => ?_,
    fun distinct a => isSpecialId_of_mem distinct⟩
  · obtain ⟨ids, looked, own⟩ :=
      exists_wordIds keeps.distinct fun word member => (each word member).2
    have apart : runs blankKind (" ".intercalate words).toList = words.map String.toList := by
      rw [String.toList_intercalate]
      refine runs_intercalate fun cs member => ?_
      obtain ⟨word, listed, rfl⟩ := List.mem_map.1 member
      exact (each word listed).1
    refine ⟨t.surround special ids, encode_of_absent keeps absent (apart ▸ looked) special, ?_⟩
    rw [decode, decodeBy, keeps.spaced, shown_surround keeps, shown_of_words own absent]
    rfl
  · have nothing : t.shown [id] = [] := hidden.elim shown_of_special shown_of_unknown
    have same : t.shown (before ++ [id] ++ after) = t.shown (before ++ after) := by
      rw [shown_append, shown_append, shown_append, nothing, List.append_nil]
    exact ⟨congrArg t.joining.join same, fun β join => congrArg join same⟩

namespace Framed

def tokenizer : Tokenizer where
  vocabulary := [("<unk>", 0), ("<s>", 1), ("</s>", 2), ("a", 3), ("b", 4)]
  unknownWord := "<unk>"
  added := [{ text := "<s>", id := 1, isSpecial := true },
    { text := "</s>", id := 2, isSpecial := true }]
  split := .blanks
  template := some [.special [1], .text, .special [2]]

theorem isDistinct : tokenizer.IsDistinct := by
  unfold IsDistinct
  decide

theorem isFramed : tokenizer.IsFramed := by
  rintro parts ⟨⟩
  refine ⟨[.special [1]], [.special [2]], rfl, ?_⟩
  refine List.forall_mem_cons.2 ⟨⟨[1], rfl, ?_⟩, List.forall_mem_singleton.2 ⟨[2], rfl, ?_⟩⟩
  · decide
  · decide

def document : String :=
  "\x7b\"version\":\"1.0\",\"truncation\":null,\"padding\":null,\"added_tokens\":[" ++
  "\x7b\"id\":1,\"content\":\"<s>\",\"single_word\":false,\"lstrip\":false,\"rstrip\":false," ++
  "\"normalized\":false,\"special\":true\x7d," ++
  "\x7b\"id\":2,\"content\":\"</s>\",\"single_word\":false,\"lstrip\":false,\"rstrip\":false," ++
  "\"normalized\":false,\"special\":true\x7d]," ++
  "\"normalizer\":null,\"pre_tokenizer\":\x7b\"type\":\"WhitespaceSplit\"\x7d," ++
  "\"post_processor\":\x7b\"type\":\"TemplateProcessing\",\"single\":[" ++
  "\x7b\"SpecialToken\":\x7b\"id\":\"<s>\"\x7d\x7d,\x7b\"Sequence\":\x7b\"id\":\"A\"\x7d\x7d," ++
  "\x7b\"SpecialToken\":\x7b\"id\":\"</s>\"\x7d\x7d],\"special_tokens\":\x7b" ++
  "\"<s>\":\x7b\"ids\":[1]\x7d,\"</s>\":\x7b\"ids\":[2]\x7d\x7d\x7d,\"decoder\":null," ++
  "\"model\":\x7b\"type\":\"WordLevel\",\"vocab\":\x7b\"<unk>\":0,\"<s>\":1,\"</s>\":2," ++
  "\"a\":3,\"b\":4\x7d,\"unk_token\":\"<unk>\"\x7d\x7d"

def tree : FileTree where
  root := .directory [(fileName, .file document.toUTF8.data.toList)]

def isRead : Json → Bool
  | .object members =>
    decide (IsPlain members) &&
      (Draft.takeAll? {} members).bind Draft.finish == some tokenizer
  | _ => false

theorem exists_members : ∃ members, Json.parse document.toUTF8.data.toList = .ok (.object members) ∧
    IsPlain members ∧ Makes tokenizer (.object members) := by
  have evaluated : (Json.parse document.toUTF8.data.toList).toOption.any isRead = true := by
    decide +kernel
  obtain ⟨value, parsed, read⟩ := (Option.any_eq_true _ _).1 evaluated
  cases value with
  | object members =>
    obtain ⟨plain, made⟩ := (Bool.and_eq_true _ _).mp read
    obtain ⟨d, taken, finished⟩ := Option.bind_eq_some_iff.1 (eq_of_beq made)
    exact ⟨members, eq_ok_of_toOption parsed, of_decide_eq_true plain,
      members, d, rfl, taken, finished⟩
  | _ => cases read

theorem load_tree : load tree "/" = .ok tokenizer ∧ tokenizer.KeepsWords := by
  obtain ⟨members, parsed, plain, makes⟩ := exists_members
  exact load_keepsWords rfl (Text.Utf8.isSome_decode?_toUTF8 _) parsed makes plain isDistinct
    isFramed

theorem isWord : ∀ word ∈ ["b", "a"],
    IsWord word.toList ∧ ∃ id, (word, id) ∈ tokenizer.vocabulary := by
  have blankless {c : Char} (plain : Text.isBlank c = false) : IsWord [c] :=
    ⟨List.cons_ne_nil c [], List.forall_mem_singleton.2 plain⟩
  have first : IsWord "b".toList := blankless rfl
  have second : IsWord "a".toList := blankless rfl
  refine List.forall_mem_cons.2 ⟨⟨first, 4, by decide⟩, ?_⟩
  exact List.forall_mem_singleton.2 ⟨second, 3, by decide⟩

end Framed

/-- In a directory whose tokenizer frames a text, two words come back out of their frame, and a
token of the frame is not shown between them. -/
theorem decode_encode_framed :
    load Framed.tree "/" = .ok Framed.tokenizer ∧
    (∃ ids, Framed.tokenizer.encode "b a" true = .ok ids ∧ Framed.tokenizer.decode ids = "b a") ∧
    Framed.tokenizer.decode [4, 1, 3] = Framed.tokenizer.decode [4, 3] := by
  obtain ⟨words, hidden, special⟩ := decode_encode_words Framed.tokenizer
  have text : " ".intercalate ["b", "a"] = "b a" := by rfl
  have start : Framed.tokenizer.IsSpecialId 1 :=
    special Framed.isDistinct { text := "<s>", id := 1, isSpecial := true } (by decide) rfl
  obtain ⟨loaded, keeps⟩ := Framed.load_tree
  refine ⟨loaded, ?_, (hidden 1 (.inl start) [4] [3]).1⟩
  rw [← text]
  exact words keeps ["b", "a"] true Framed.isWord (by decide)

end TextCompletion.Tokenizer
