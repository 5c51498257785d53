import TextCompletion.Candidate
import TextCompletion.Proofs.Json.Members
import TextCompletion.Proofs.Json.Printing

/-!
A candidate as a document and back. What is printed is read as the same candidate, whatever
characters its texts hold; and of a document that was read, exactly those fields are printed that
it gives a text and not `null`.
-/

namespace TextCompletion.Candidate

open Json Json.Reader

def texts (c : Candidate) : List (String × String) :=
  (c.generatedText.map fun t => ("generated_text", t)).toList ++
    (c.summaryText.map fun t => ("summary_text", t)).toList

theorem mem_texts {c : Candidate} {name t : String} :
    (name, t) ∈ c.texts ↔ name = "generated_text" ∧ c.generatedText = some t ∨
      name = "summary_text" ∧ c.summaryText = some t := by
  obtain ⟨_ | generated, _ | summary⟩ := c <;> simp [texts, eq_comm]

def document (c : Candidate) : List UInt8 := Text.Utf8.encode c.toJson

def part (c : Candidate) (names : List String) : Candidate where
  generatedText := if "generated_text" ∈ names then c.generatedText else none
  summaryText := if "summary_text" ∈ names then c.summaryText else none

/-- The members of an object give the fields of the candidate. -/
structure Describes (members : List Json.Member) (c : Candidate) : Prop where
  generatedText : Gives members "generated_text" (Nullable Quotes c.generatedText)
    (c.generatedText = none)
  summaryText : Gives members "summary_text" (Nullable Quotes c.summaryText)
    (c.summaryText = none)

variable {c : Candidate} {members : List Json.Member} {d : List UInt8}

theorem skippable_fields : ∀ f ∈ schema.fields, ∀ s, Skippable (f.read s) := by
  have text : Skippable (optional Reader.text) := skippable_optional skippable_text
  simp only [schema, List.forall_mem_cons, List.not_mem_nil, false_imp_iff, implies_true, and_true]
  exact ⟨fun s => text.map _, fun s => text.map _⟩

theorem reads_field (described : Describes members c) :
    ∀ f ∈ schema.fields, ∀ m ∈ members, m.Named f.name → ∀ names,
      Reads (f.read (c.part names)) m.value (c.part (f.name :: names)) := by
  simp only [schema, List.forall_mem_cons, List.not_mem_nil, false_imp_iff, implies_true, and_true]
  refine ⟨fun m listed named names => ?_, fun m listed named names => ?_⟩
  · exact (reads_optional_text (described.generatedText.written m listed named)).map _
      (by simp [part])
  · exact (reads_optional_text (described.summaryText.written m listed named)).map _
      (by simp [part])

theorem parse_described (described : Describes members c)
    (names : ∀ m ∈ members, ∃ name, m.Named name) (values : ∀ m ∈ members, IsValue m.value)
    (document : Documents (IsObject members) d) : parse d = .ok c := by
  refine run_told (by decide) c.part rfl ?_ (reads_field described) (fun seen told => ?_) names
    values document
  · simp only [schema, List.forall_mem_cons, List.not_mem_nil, false_imp_iff, implies_true,
      and_true]
    exact ⟨described.generatedText.once, described.summaryText.once⟩
  · simp only [schema, List.forall_mem_cons, List.not_mem_nil, false_imp_iff, implies_true,
      and_true] at told
    simp only [part, kept described.generatedText told.1, kept described.summaryText told.2]

theorem mem_names {c : Candidate} {name : String} : name ∈ c.texts.map Prod.fst ↔
    name = "generated_text" ∧ c.generatedText ≠ none ∨
      name = "summary_text" ∧ c.summaryText ≠ none := by
  simp only [List.mem_map, Prod.exists, mem_texts, Option.ne_none_iff_exists']
  constructor
  · rintro ⟨_, t, ⟨rfl, given⟩ | ⟨rfl, given⟩, rfl⟩
    · exact .inl ⟨rfl, t, given⟩
    · exact .inr ⟨rfl, t, given⟩
  · rintro (⟨rfl, t, given⟩ | ⟨rfl, t, given⟩)
    · exact ⟨_, t, .inl ⟨rfl, given⟩, rfl⟩
    · exact ⟨_, t, .inr ⟨rfl, given⟩, rfl⟩

theorem describes_texts (c : Candidate) : Describes (c.texts.map Printer.printed) c := by
  have distinct : (c.texts.map Prod.fst).Nodup := by
    obtain ⟨_ | generated, _ | summary⟩ := c <;> simp [texts]
  refine ⟨Printer.gives_printed distinct (fun t listed => ?_) fun left => ?_,
    Printer.gives_printed distinct (fun t listed => ?_) fun left => ?_⟩
  · have given : c.generatedText = some t := by simpa using mem_texts.1 listed
    rw [given]
    exact Printer.quotes_text t
  · simpa using mt mem_names.2 left
  · have given : c.summaryText = some t := by simpa using mem_texts.1 listed
    rw [given]
    exact Printer.quotes_text t
  · simpa using mt mem_names.2 left

theorem parse_document (c : Candidate) : parse c.document = .ok c := by
  have wellFormed := Printer.wellFormed_printed c.texts
  exact parse_described (describes_texts c) (Printer.exists_named_printed c.texts)
    (fun m listed => (wellFormed m listed).2) (Printer.documents_object c.texts)

/-! ## Reading and printing again -/

theorem accepts_field {t : List UInt8} {set : Option String → Candidate} {s : Candidate}
    (accepts : Accepts (do pure (set (← optional Reader.text))) t s) :
    ∃ o, set o = s ∧ (IsValue t → (o = none ↔ t = nullText)) := by
  obtain ⟨o, accepts, same⟩ := accepts.of_map
  exact ⟨o, same, fun value => accepts_optional value accepts⟩

/-- A field that only its own member sets has a text if and only if that member holds something
else than `null`. -/
theorem takes_observes (takes : Takes schema Accepts [] schema.blank members c)
    (values : ∀ m ∈ members, IsValue m.value) {name : String} {f : Reader.Field Candidate}
    (found : schema.field? name = some f) {observe : Candidate → Option String}
    (blank : observe schema.blank = none)
    (sets : ∀ s t s₁, Accepts (f.read s) t s₁ → IsValue t → (observe s₁ = none ↔ t = nullText))
    (keeps : ∀ g ∈ schema.fields, g.name ≠ name → ∀ s t s₁, Accepts (g.read s) t s₁ →
      observe s₁ = observe s) :
    observe c ≠ none ↔ ∃ m ∈ members, m.Named name ∧ m.value ≠ nullText := by
  rcases takes.observes observe found keeps with
    ⟨others, same⟩ | ⟨m, listed, only, s₀, s₁, set, same⟩
  · refine iff_of_false (not_not_intro (same.trans blank)) ?_
    rintro ⟨m, listed, named, -⟩
    exact others m listed named
  · rw [same, ne_eq, sets s₀ m.value s₁ set (values m listed)]
    constructor
    · exact fun other => ⟨m, listed, (only m listed).2 rfl, other⟩
    · rintro ⟨m', listed', named, other⟩
      rwa [(only m' listed').1 named] at other

theorem takes_ne_none (takes : Takes schema Accepts [] schema.blank members c)
    (values : ∀ m ∈ members, IsValue m.value) :
    (c.generatedText ≠ none ↔
      ∃ m ∈ members, m.Named "generated_text" ∧ m.value ≠ nullText) ∧
    (c.summaryText ≠ none ↔ ∃ m ∈ members, m.Named "summary_text" ∧ m.value ≠ nullText) := by
  refine ⟨takes_observes takes values rfl rfl ?_ ?_, takes_observes takes values rfl rfl ?_ ?_⟩
  · intro s t s₁ accepts value
    obtain ⟨o, rfl, null⟩ := accepts_field accepts
    exact null value
  · simp only [schema, List.forall_mem_cons, List.not_mem_nil, false_imp_iff, implies_true,
      and_true]
    refine ⟨fun other => absurd rfl other, fun _ s t s₁ accepts => ?_⟩
    obtain ⟨o, rfl, -⟩ := accepts_field accepts
    rfl
  · intro s t s₁ accepts value
    obtain ⟨o, rfl, null⟩ := accepts_field accepts
    exact null value
  · simp only [schema, List.forall_mem_cons, List.not_mem_nil, false_imp_iff, implies_true,
      and_true]
    refine ⟨fun _ s t s₁ accepts => ?_, fun other => absurd rfl other⟩
    obtain ⟨o, rfl, -⟩ := accepts_field accepts
    rfl

theorem fills_ne_none {ts : List (List UInt8)}
    (fills : Fills Accepts schema.fields schema.blank ts c) (values : ∀ t ∈ ts, IsValue t) :
    (c.generatedText ≠ none ↔ ∃ t, ts[0]? = some t ∧ t ≠ nullText) ∧
      (c.summaryText ≠ none ↔ ∃ t, ts[1]? = some t ∧ t ≠ nullText) := by
  cases fills with
  | done => exact ⟨by simp [schema], by simp [schema]⟩
  | set first fills =>
    obtain ⟨value, values⟩ := List.forall_mem_cons.1 values
    obtain ⟨o, rfl, null⟩ := accepts_field first
    cases fills with
    | done => exact ⟨by simpa using (null value).not, by simp [schema]⟩
    | set second fills =>
      obtain ⟨value', values⟩ := List.forall_mem_cons.1 values
      obtain ⟨o', rfl, null'⟩ := accepts_field second
      cases fills
      exact ⟨by simpa using (null value).not, by simpa using (null' value').not⟩

def fieldNames : List String := schema.fields.map (·.name)

theorem named_texts {name : String} :
    (∃ m ∈ c.texts.map Printer.printed, m.Named name) ↔
      name = "generated_text" ∧ c.generatedText ≠ none ∨
        name = "summary_text" ∧ c.summaryText ≠ none := by
  rw [← mem_names]
  simp [Printer.named_printed, eq_comm]

/-- Printed and read again, a candidate is the same, and so is its text. A candidate that was read
from a document is printed with the texts that it has and nothing else: with those fields for which
a member of the object, or the element at their place in a list, holds something else than
`null`. -/
theorem parse_roundTrip :
    (∀ c : Candidate, parse c.document = .ok c ∧
      (parse c.document).map Candidate.text = .ok c.text) ∧
    ∀ d c, parse d = .ok c → parse c.document = .ok c ∧ ∃ written,
      IsObject written c.document ∧
      List.Forall₂ (fun m t => m.Named t.1 ∧ Quotes t.2 m.value) written c.texts ∧
      (∀ members, Documents (IsObject members) d →
        (∀ m ∈ members, IsString m.key ∧ IsValue m.value) →
        ∀ name, (∃ m ∈ written, m.Named name) ↔
          name ∈ fieldNames ∧ ∃ m ∈ members, m.Named name ∧ m.value ≠ nullText) ∧
      ∀ ts, Documents (Encloses 91 93 ts) d → (∀ t ∈ ts, IsValue t) →
        ∀ name, (∃ m ∈ written, m.Named name) ↔
          ∃ t, (name, t) ∈ fieldNames.zip ts ∧ t ≠ nullText := by
  refine ⟨fun c => ⟨parse_document c, by rw [parse_document]; rfl⟩, fun d c read =>
    ⟨parse_document c, c.texts.map Printer.printed, Printer.isObject_object c.texts, ?_,
      fun members document wellFormed name => ?_, fun ts document values name => ?_⟩⟩
  · refine List.forall₂_map_left_iff.2 (List.forall₂_same.2 fun t _ => ?_)
    exact ⟨Printer.named_printed.2 rfl, Printer.quotes_text t.2⟩
  · have values m (listed : m ∈ members) := (wellFormed m listed).2
    have takes := takes_of_run skippable_fields (fun m listed => (wellFormed m listed).1) values
      document read
    obtain ⟨generated, summary⟩ := takes_ne_none takes values
    rw [named_texts, generated, summary]
    constructor
    · rintro (⟨rfl, given⟩ | ⟨rfl, given⟩)
      · exact ⟨by decide, given⟩
      · exact ⟨by decide, given⟩
    · rintro ⟨listed, given⟩
      rcases (by simpa [fieldNames, schema] using listed :
        name = "generated_text" ∨ name = "summary_text") with rfl | rfl
      · exact .inl ⟨rfl, given⟩
      · exact .inr ⟨rfl, given⟩
  · obtain ⟨generated, summary⟩ :=
      fills_ne_none (fills_of_run skippable_fields values document read) values
    rw [named_texts, generated, summary]
    rcases ts with _ | ⟨t, _ | ⟨t', ts⟩⟩
    · simp [fieldNames, schema]
    · simp [fieldNames, schema]
    · have pairs : fieldNames.zip (t :: t' :: ts) =
        [("generated_text", t), ("summary_text", t')] := rfl
      simp only [pairs, List.mem_cons, List.not_mem_nil, or_false, Prod.mk.injEq,
        List.getElem?_cons_zero, List.getElem?_cons_succ, Option.some.injEq]
      constructor
      · rintro (⟨rfl, _, rfl, other⟩ | ⟨rfl, _, rfl, other⟩)
        · exact ⟨t, .inl ⟨rfl, rfl⟩, other⟩
        · exact ⟨t', .inr ⟨rfl, rfl⟩, other⟩
      · rintro ⟨_, ⟨rfl, rfl⟩ | ⟨rfl, rfl⟩, other⟩
        · exact .inl ⟨rfl, _, rfl, other⟩
        · exact .inr ⟨rfl, _, rfl, other⟩

/-- `[null,"\uD83D\uDE00"]`, whose second element is one character by its two surrogates. -/
def surrogates : List UInt8 :=
  [91, 110, 117, 108, 108, 44, 34, 92, 117, 68, 56, 51, 68, 92, 117, 68, 69, 48, 48, 34, 93]

theorem parse_roundTrip_surrogates :
    parse surrogates = .ok { summaryText := some "😀" } ∧
      parse (document { summaryText := some "😀" }) = .ok { summaryText := some "😀" } :=
  ⟨by rfl, (parse_roundTrip.2 surrogates { summaryText := some "😀" } (by rfl)).1⟩

end TextCompletion.Candidate
