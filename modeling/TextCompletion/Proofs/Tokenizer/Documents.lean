import TextCompletion.Proofs.Json.Following
import TextCompletion.Proofs.Json.Records
import TextCompletion.Proofs.Results
import TextCompletion.Tokenizer.Document

/-!
A tokenizer document against the object that it holds. Main statements: where all members of the
object are taken up, one after another, the document gives the tokenizer that they come to; and what
one kind of member settles is settled by the last one of its name.
-/

namespace TextCompletion.Tokenizer

open Json Json.Reader

namespace Draft

/-- What a member makes of the draft, `none` for one that is refused. Nor is a length taken to which
ids are cut or filled up. -/
def take? (d : Draft) : String → Json → Option Draft
  | "version", v => if text? v = some formatVersion then some d else none
  | "truncation", .null => some { d with truncation := none }
  | "padding", .null => some { d with padding := none }
  | "added_tokens", .array items => do pure { d with added := ← items.mapM addedToken? }
  | "normalizer", v => do pure { d with lowercase := ← lowercase? v }
  | "pre_tokenizer", v => do pure { d with split := ← split? v }
  | "post_processor", v => do pure { d with template := ← template? v }
  | "decoder", v => do pure { d with joining := ← joining? v }
  | "model", v => do pure { d with model := some (← model? v) }
  | _, _ => none

def takeAll? (d : Draft) (members : List (String × Json)) : Option Draft :=
  members.foldlM (fun d m => d.take? m.1 m.2) d

end Draft

variable {d d' : Draft} {k : String} {v : Json} {c c₁ : Cursor} {members : List (String × Json)}

theorem understood_of_value {α : Type} {f : Json → Option α} {a : α} {type : String}
    (known : f v = some a) (read : innerValue c = .ok v c₁) : understood type f c = .ok a c₁ := by
  refine (bind_of_ok read).trans ?_
  rw [known]
  rfl

theorem set_of_value {α : Type} {f : Json → Option α} {type : String} {set : α → Draft}
    (taken : (do pure (set (← f v))) = some d') (read : innerValue c = .ok v c₁) :
    (do pure (set (← understood type f)) : Reader Draft) c = .ok d' c₁ := by
  obtain ⟨a, known, rfl⟩ := bind_pure_eq_some.1 taken
  exact bind_of_ok (understood_of_value known read)

theorem forall₂_of_mapM {α : Type} {f : Json → Option α} {items : List Json} {as : List α}
    (made : items.mapM f = some as) : List.Forall₂ (fun a v => f v = some a) as items := by
  induction items generalizing as with
  | nil =>
    obtain rfl := Option.some.inj made
    exact .nil
  | cons v items ih =>
    rw [List.mapM_cons] at made
    obtain ⟨a, known, made⟩ := Option.bind_eq_some_iff.1 made
    obtain ⟨rest, others, rfl⟩ := bind_pure_eq_some.1 made
    exact .cons known (ih others)

theorem exists_readMember? (taken : d.take? k v = some d') : ∃ r, readMember? d k = some r ∧
    ∀ c c₁, innerValue c = .ok v c₁ → r c = .ok d' c₁ := by
  unfold Draft.take? at taken
  split at taken
  · split at taken
    · next version =>
      obtain rfl := Option.some.inj taken
      refine ⟨_, rfl, fun c c₁ read => ?_⟩
      cases v with
      | string s =>
        obtain rfl := Option.some.inj version
        exact bind_of_ok (text_of_value read)
      | _ => cases version
    · cases taken
  · obtain rfl := Option.some.inj taken
    exact ⟨_, rfl, fun c c₁ read => bind_of_ok (optional_of_null read)⟩
  · obtain rfl := Option.some.inj taken
    exact ⟨_, rfl, fun c c₁ read => bind_of_ok (optional_of_null read)⟩
  · obtain ⟨added, known, rfl⟩ := bind_pure_eq_some.1 taken
    refine ⟨_, rfl, fun c c₁ read => bind_of_ok ?_⟩
    -- within a list the value stands one bracket deeper than the reader of a token allows for
    refine list_of_array (fun depth deep c a v c₁ known read => ?_) (forall₂_of_mapM known) read
    obtain rfl : depth = maxDepth - 2 := by simpa [maxDepth] using deep.symm
    exact understood_of_value known (value_follows_succ _ _ _ _ _ rfl read)
  · exact ⟨_, rfl, fun c c₁ => set_of_value taken⟩
  · exact ⟨_, rfl, fun c c₁ => set_of_value taken⟩
  · exact ⟨_, rfl, fun c c₁ => set_of_value taken⟩
  · exact ⟨_, rfl, fun c c₁ => set_of_value taken⟩
  · exact ⟨_, rfl, fun c c₁ => set_of_value taken⟩
  · cases taken

theorem takeAll?_cons {m : String × Json} : d.takeAll? (m :: members) = some d' ↔
    ∃ d₁, d.take? m.1 m.2 = some d₁ ∧ d₁.takeAll? members = some d' := by
  rw [Draft.takeAll?, List.foldlM_cons]
  exact Option.bind_eq_some_iff

theorem membersFrom_follows (fuel : Nat) (first : Bool) (d : Draft) :
    Follows (fun d' members => d.takeAll? members = some d') (membersFrom fuel first d)
      (Reader.membersFrom innerValue fuel first) := by
  induction fuel generalizing first d with
  | zero => exact fun c _ b c₁ _ read => absurd read (fails_failHere _ _ _ _)
  | succ fuel ih =>
    intro c d' members c₁ taken read
    obtain ⟨more, c', next, read⟩ := Reader.bind_eq_ok.1 read
    refine (bind_of_ok next).trans ?_
    cases more with
    | false =>
      obtain ⟨rfl, rfl⟩ := pure_eq_ok.1 read
      obtain rfl := Option.some.inj taken
      rfl
    | true =>
      obtain ⟨k, c₂, named, read⟩ := Reader.bind_eq_ok.1 read
      obtain ⟨_, c₃, parted, read⟩ := Reader.bind_eq_ok.1 read
      obtain ⟨v, c₄, kept, read⟩ := Reader.bind_eq_ok.1 read
      obtain ⟨rest, c₅, tail, read⟩ := Reader.bind_eq_ok.1 read
      obtain ⟨rfl, rfl⟩ := pure_eq_ok.1 read
      obtain ⟨d₁, head, others⟩ := takeAll?_cons.1 taken
      obtain ⟨r, known, reads⟩ := exists_readMember? head
      refine (bind_of_ok named).trans ?_
      rw [known]
      exact (bind_of_ok parted).trans ((bind_of_ok (reads _ _ kept)).trans
        (ih false d₁ _ _ _ _ others tail))

/-- What the members of an object come to as a tokenizer. -/
def Makes (t : Tokenizer) (document : Json) : Prop :=
  ∃ members d, document = .object members ∧ Draft.takeAll? {} members = some d ∧
    d.finish = some t

theorem reader_follows : Follows Makes reader (value maxDepth) := by
  rintro c t _ c₁ ⟨members, d, rfl, taken, finished⟩ read
  obtain ⟨b, next, starts, read⟩ := exists_valueAt read
  cases starts
  obtain ⟨_, c₂, moved, read⟩ := Reader.bind_eq_ok.1 read
  obtain ⟨members', c₃, body, read⟩ := Reader.bind_eq_ok.1 read
  obtain ⟨same, rfl⟩ := pure_eq_ok.1 read
  obtain rfl := Json.object.inj same
  obtain ⟨c₄, body, closed⟩ := closedBy_eq_ok.1 body
  obtain ⟨fuel, c₅, counted, body⟩ := Reader.bind_eq_ok.1 body
  refine (peekToken_bind next).trans ((bind_of_ok moved).trans
    (closedBy_eq_ok.2 ⟨c₄, (bind_of_ok counted).trans ?_, closed⟩))
  refine (bind_of_ok (membersFrom_follows fuel true {} _ _ _ _ taken body)).trans ?_
  rw [finished]
  rfl

/-! What the members settle. -/

/-- The parts of a draft by the members that settle them: a part becomes what the last member of its
name comes to, or stays where there is none. -/
structure IsSettled (d d' : Draft) (members : List (String × Json)) : Prop where
  truncation : From (fun a v => v = .null ∧ a = none) d.truncation d'.truncation
    (lookup? members "truncation")
  padding : From (fun a v => v = .null ∧ a = none) d.padding d'.padding
    (lookup? members "padding")
  added : From (fun a v => ∃ items, v = .array items ∧ items.mapM addedToken? = some a)
    d.added d'.added (lookup? members "added_tokens")
  lowercase : From (fun a v => lowercase? v = some a) d.lowercase d'.lowercase
    (lookup? members "normalizer")
  split : From (fun a v => split? v = some a) d.split d'.split (lookup? members "pre_tokenizer")
  template : From (fun a v => template? v = some a) d.template d'.template
    (lookup? members "post_processor")
  joining : From (fun a v => joining? v = some a) d.joining d'.joining (lookup? members "decoder")
  model : From (fun a v => ∃ m, model? v = some m ∧ a = some m) d.model d'.model
    (lookup? members "model")

theorem IsSettled.trans {d₁ : Draft} {more : List (String × Json)} (first : IsSettled d d₁ members)
    (second : IsSettled d₁ d' more) : IsSettled d d' (members ++ more) := by
  constructor <;> rw [lookup?_append]
  · exact from_trans first.truncation second.truncation
  · exact from_trans first.padding second.padding
  · exact from_trans first.added second.added
  · exact from_trans first.lowercase second.lowercase
  · exact from_trans first.split second.split
  · exact from_trans first.template second.template
  · exact from_trans first.joining second.joining
  · exact from_trans first.model second.model

/-- One member settles one part at most. -/
theorem isSettled_of_take? (taken : d.take? k v = some d') : IsSettled d d' [(k, v)] := by
  unfold Draft.take? at taken
  split at taken
  · split at taken
    · obtain rfl := Option.some.inj taken
      constructor <;> rfl
    · cases taken
  · obtain rfl := Option.some.inj taken
    exact ⟨⟨rfl, rfl⟩, rfl, rfl, rfl, rfl, rfl, rfl, rfl⟩
  · obtain rfl := Option.some.inj taken
    exact ⟨rfl, ⟨rfl, rfl⟩, rfl, rfl, rfl, rfl, rfl, rfl⟩
  · obtain ⟨a, known, rfl⟩ := bind_pure_eq_some.1 taken
    exact ⟨rfl, rfl, ⟨_, rfl, known⟩, rfl, rfl, rfl, rfl, rfl⟩
  · obtain ⟨a, known, rfl⟩ := bind_pure_eq_some.1 taken
    exact ⟨rfl, rfl, rfl, known, rfl, rfl, rfl, rfl⟩
  · obtain ⟨a, known, rfl⟩ := bind_pure_eq_some.1 taken
    exact ⟨rfl, rfl, rfl, rfl, known, rfl, rfl, rfl⟩
  · obtain ⟨a, known, rfl⟩ := bind_pure_eq_some.1 taken
    exact ⟨rfl, rfl, rfl, rfl, rfl, known, rfl, rfl⟩
  · obtain ⟨a, known, rfl⟩ := bind_pure_eq_some.1 taken
    exact ⟨rfl, rfl, rfl, rfl, rfl, rfl, known, rfl⟩
  · obtain ⟨a, known, rfl⟩ := bind_pure_eq_some.1 taken
    exact ⟨rfl, rfl, rfl, rfl, rfl, rfl, rfl, ⟨a, known, rfl⟩⟩
  · cases taken

theorem isSettled_of_takeAll? (taken : d.takeAll? members = some d') :
    IsSettled d d' members := by
  induction members generalizing d with
  | nil =>
    obtain rfl := Option.some.inj taken
    constructor <;> rfl
  | cons m members ih =>
    obtain ⟨d₁, head, others⟩ := takeAll?_cons.1 taken
    exact (isSettled_of_take? head).trans (ih others)

variable {t : FileTree} {directory : String} {content : Bytes} {document : Json}
  {tokenizer : Tokenizer}

/-! The whole document. -/

/-- A document that holds an object gives the tokenizer that its members come to. -/
theorem load_of_makes (file : t.read (FilePath.join directory fileName) = .ok content)
    (text : (Text.Utf8.decode? content).isSome) (parsed : Json.parse content = .ok document)
    (makes : Makes tokenizer document) : load t directory = .ok tokenizer := by
  have there : t.exists? (FilePath.join directory fileName) = true := by
    obtain ⟨node, found, -⟩ := bind_eq_ok.1 file
    rw [FileTree.exists?, found]
  have readable : (Text.Utf8.decode? content).isNone = false := by
    simpa [Option.isNone_iff_eq_none, Option.isSome_iff_ne_none] using text
  have made : ofContent (.ok content) = .ok tokenizer := by
    rw [ofContent, readable, run_follows reader_follows makes parsed]
    rfl
  rw [load, loadBy, if_pos there, file, made]
  rfl

end TextCompletion.Tokenizer
