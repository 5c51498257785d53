import TextCompletion.Model.Settings
import TextCompletion.Proofs.Files.ConfigDocuments
import TextCompletion.Proofs.Json.Shapes

/-!
Members taken to be there where a document leaves them out. What it gives stays as it is, `null`
included, and the last value where a key is repeated; a key that it lacks gets its first default.
This says of every key what it holds, and settings are read by keys, so that no more is to be known
of the object: neither the order of its members nor the order in which defaults are filled in.
-/

namespace TextCompletion.Json

/-- The members of an object with the defaults that it lacks, and no other ones. -/
structure IsFilled (defaults members more : List (String × Json)) : Prop where
  kept : ∀ before name v after, members = before ++ (name, v) :: after →
    name ∉ after.map Prod.fst → lookup? more name = some v
  filled : ∀ name, name ∉ members.map Prod.fst → lookup? more name = defaults.lookup name

/-- A document and what it is with the defaults: of what is no object, the document itself. -/
inductive Completes (defaults : List (String × Json)) : Json → Json → Prop
  | object {members more : List (String × Json)} : IsFilled defaults members more →
      Completes defaults (.object members) (.object more)
  | other {v : Json} : (∀ members, v ≠ .object members) → Completes defaults v v

/-- The same value, or objects that hold the same for every key. -/
inductive SameByKeys : Json → Json → Prop
  | refl (v : Json) : SameByKeys v v
  | object {members more : List (String × Json)} :
      (∀ name, lookup? members name = lookup? more name) →
      SameByKeys (.object members) (.object more)

variable {defaults others members more : List (String × Json)} {name : String} {v w w' : Json}

theorem lookup?_of_last {before after : List (String × Json)}
    (last : name ∉ after.map Prod.fst) :
    lookup? (before ++ (name, v) :: after) name = some v := by
  rw [lookup?_append, lookup?_cons, lookup?_eq_none.2 last, if_pos rfl]
  rfl

theorem exists_last (present : name ∈ members.map Prod.fst) :
    ∃ before v after, members = before ++ (name, v) :: after ∧ name ∉ after.map Prod.fst := by
  induction members with
  | nil => cases present
  | cons m members ih =>
    by_cases later : name ∈ members.map Prod.fst
    · obtain ⟨before, v, after, rfl, last⟩ := ih later
      exact ⟨m :: before, v, after, rfl, last⟩
    · obtain ⟨k, v⟩ := m
      obtain rfl : name = k := by simpa [later] using present
      exact ⟨[], v, members, rfl, later⟩

theorem isFilled_iff : IsFilled defaults members more ↔
    ∀ name, lookup? more name = (lookup? members name).or (defaults.lookup name) := by
  constructor
  · intro filled name
    by_cases present : name ∈ members.map Prod.fst
    · obtain ⟨before, v, after, rfl, last⟩ := exists_last present
      rw [filled.kept before name v after rfl last, lookup?_of_last last]
      rfl
    · rw [filled.filled name present, lookup?_eq_none.2 present, Option.none_or]
  · intro each
    refine ⟨?_, fun name absent => ?_⟩
    · rintro before name v after rfl last
      rw [each, lookup?_of_last last]
      rfl
    · rw [each, lookup?_eq_none.2 absent, Option.none_or]

theorem completes_withDefaults (defaults : List (String × Json)) (document : Json) :
    Completes defaults document (withDefaults defaults document) := by
  cases document with
  | object members =>
    obtain ⟨more, completed, each⟩ := Shape.lookup?_withDefaults defaults members
    rw [completed]
    exact .object (isFilled_iff.2 each)
  | _ => exact .other fun _ => nofun

/-- Of each key it is said what the completed document holds. -/
theorem Completes.unique (first : Completes defaults v w) (second : Completes defaults v w') :
    SameByKeys w w' := by
  cases first with
  | object filled =>
    cases second with
    | object filled' =>
      rw [isFilled_iff] at filled filled'
      exact .object fun name => (filled name).trans (filled' name).symm
    | other none => exact absurd rfl (none _)
  | other none =>
    cases second with
    | object => exact absurd rfl (none _)
    | other => exact .refl v

/-- Defaults whose keys differ may be listed in any order. -/
theorem lookup_perm (perm : others.Perm defaults) (distinct : (defaults.map Prod.fst).Nodup)
    (name : String) : others.lookup name = defaults.lookup name := by
  induction perm with
  | nil => rfl
  | cons d _ ih =>
    rw [List.lookup_cons, List.lookup_cons, ih (List.nodup_cons.1 distinct).2]
  | swap d d' rest =>
    have differ : d'.1 ≠ d.1 := by
      simp only [List.map_cons, List.nodup_cons, List.mem_cons, not_or] at distinct
      exact fun same => distinct.1.1 same.symm
    rw [List.lookup_cons, List.lookup_cons, List.lookup_cons, List.lookup_cons]
    by_cases first : name = d.1
    · have second : (name == d'.1) = false := beq_eq_false_iff_ne.2 (first ▸ differ.symm)
      rw [second]
    · rw [beq_eq_false_iff_ne.2 first]
  | trans _ perm ih ih' =>
    exact (ih ((perm.map Prod.fst).nodup_iff.2 distinct)).trans (ih' distinct)

theorem Completes.perm (perm : others.Perm defaults) (distinct : (defaults.map Prod.fst).Nodup)
    (completes : Completes others v w) : Completes defaults v w := by
  cases completes with
  | object filled =>
    rw [isFilled_iff] at filled
    refine .object (isFilled_iff.2 fun name => ?_)
    rw [filled, lookup_perm perm distinct]
  | other none => exact .other none

theorem withDefaults_of_present (present : ∀ d ∈ defaults, (lookup? more d.1).isSome = true) :
    withDefaults defaults (.object more) = .object more := by
  induction defaults with
  | nil => rfl
  | cons d defaults ih =>
    obtain ⟨first, present⟩ := List.forall_mem_cons.1 present
    rw [withDefaults, List.foldl_cons, if_pos first]
    exact ih present

theorem withDefaults_withDefaults (defaults : List (String × Json)) (document : Json) :
    withDefaults defaults (withDefaults defaults document) = withDefaults defaults document := by
  cases document with
  | object members =>
    obtain ⟨more, completed, each⟩ := Shape.lookup?_withDefaults defaults members
    rw [completed]
    refine withDefaults_of_present fun d listed => ?_
    have found : (defaults.lookup d.1).isSome = true := by
      rw [Option.isSome_iff_ne_none, ne_eq, List.lookup_eq_none_iff]
      exact fun none => absurd (none d listed) (by simp)
    rw [each, Option.isSome_or, found, Bool.or_true]
  | _ => rfl

/-! ## What is made of it -/

theorem mem_keys_iff : name ∈ members.map Prod.fst ↔ lookup? members name ≠ none := by
  rw [ne_eq, lookup?_eq_none, not_not]

theorem Shape.sortedMembers_congr
    (same : ∀ name, lookup? members name = lookup? more name) :
    sortedMembers members = sortedMembers more := by
  have keys : Text.sortDistinct (members.map Prod.fst) = Text.sortDistinct (more.map Prod.fst) :=
    Text.sortDistinct_congr fun name => by rw [mem_keys_iff, mem_keys_iff, same]
  simp only [sortedMembers, keys, same]

theorem SameByKeys.record {σ : Type} (same : SameByKeys v w) (type : String)
    (fields : List (Shape.Member σ)) (blank : σ) :
    Shape.record type fields blank v = Shape.record type fields blank w := by
  cases same with
  | refl => rfl
  | object same =>
    simp only [Shape.record, Shape.sortedMembers_congr same, Shape.missing?, same]

end TextCompletion.Json

namespace TextCompletion.Settings

open Json

variable {r : Form} {t : FileTree} {directory : String} {text : Bytes} {document : Json}

theorem Form.load_eq_ok (file : t.read (FilePath.join directory ModelConfig.fileName) = .ok text)
    (parsed : Json.parse text = .ok document) {h : Hyperparameters} :
    r.load t directory = .ok h ↔ r.read document = .ok h := by
  have content : t.contentOf (FilePath.join directory ModelConfig.fileName) = .ok text := by
    simp only [FileTree.contentOf, file]
    rfl
  have kept : (Reader.value maxDepth).ofFile (FilePath.join directory ModelConfig.fileName) text =
      .ok document := ModelConfig.ofFile_eq_ok.2 parsed
  simp only [Form.load, Settings.load, content, kept, bind, Except.bind]
  cases r.read document <;> simp

/-- Settings are read from the document with its defaults, whatever object holds them: what the
document gives stays, what it lacks gets the first default of its key, and nothing else is there.
To fill in the same defaults twice changes nothing, and where their keys differ, nor does their
order. -/
theorem Form.load_completed (r : Form)
    (file : t.read (FilePath.join directory ModelConfig.fileName) = .ok text)
    (parsed : Json.parse text = .ok document) :
    Completes r.defaults document (withDefaults r.defaults document) ∧
      (∀ filled, Completes r.defaults document filled →
        SameByKeys filled (withDefaults r.defaults document) ∧
          ∀ h, r.load t directory = .ok h ↔
            Shape.record r.type r.fields r.blank filled = .ok h) ∧
      withDefaults r.defaults (withDefaults r.defaults document) =
        withDefaults r.defaults document ∧
      ∀ others, others.Perm r.defaults → (r.defaults.map Prod.fst).Nodup →
        SameByKeys (withDefaults others document) (withDefaults r.defaults document) ∧
          Form.load { r with defaults := others } t directory = r.load t directory := by
  have completed := completes_withDefaults r.defaults document
  refine ⟨completed, fun filled completes => ?_, withDefaults_withDefaults _ _,
    fun others perm distinct => ?_⟩
  · have same := completes.unique completed
    refine ⟨same, fun h => ?_⟩
    rw [Form.load_eq_ok file parsed, Form.read, same.record]
  · have same (document : Json) :
        SameByKeys (withDefaults others document) (withDefaults r.defaults document) :=
      ((completes_withDefaults others document).perm perm distinct).unique
        (completes_withDefaults r.defaults document)
    have reads : Form.read { r with defaults := others } = r.read :=
      funext fun document => (same document).record r.type r.fields r.blank
    refine ⟨same document, ?_⟩
    rw [Form.load, Form.load, reads]
    rfl

namespace Sample

/-- `{"use_flash_attn":null,"a":1,"a":2}` -/
def repeated : Bytes :=
  [123, 34, 117, 115, 101, 95, 102, 108, 97, 115, 104, 95, 97, 116, 116, 110, 34, 58, 110, 117,
    108, 108, 44, 34, 97, 34, 58, 49, 44, 34, 97, 34, 58, 50, 125]

def members : List (String × Json) :=
  [("use_flash_attn", .null), ("a", .number (.natural 1)), ("a", .number (.natural 2))]

theorem parse_repeated : Json.parse repeated = .ok (.object members) := by rfl

def form : Form :=
  { ofCausal .mixtral with
    defaults := [("use_flash_attn", .boolean false), ("hidden_act", .string "silu")] }

def more : List (String × Json) := members ++ [("hidden_act", .string "silu")]

theorem completes_members : Completes form.defaults (.object members) (.object more) :=
  completes_withDefaults form.defaults (.object members)

end Sample

open Sample in
theorem load_completed_repeated :
    (ModelConfig.Sample.tree repeated).read (FilePath.join "/m" ModelConfig.fileName) =
      .ok repeated ∧
    Json.parse repeated = .ok (.object members) ∧
    Completes form.defaults (.object members) (.object more) ∧
    (∀ h, form.load (ModelConfig.Sample.tree repeated) "/m" = .ok h ↔
      Shape.record form.type form.fields form.blank (.object more) = .ok h) ∧
    form.defaults.reverse.Perm form.defaults ∧ (form.defaults.map Prod.fst).Nodup ∧
    Form.load { form with defaults := form.defaults.reverse } (ModelConfig.Sample.tree repeated)
      "/m" = form.load (ModelConfig.Sample.tree repeated) "/m" := by
  have completed :=
    Form.load_completed form (ModelConfig.Sample.read_tree repeated) parse_repeated
  have distinct : (form.defaults.map Prod.fst).Nodup := by decide
  exact ⟨ModelConfig.Sample.read_tree repeated, parse_repeated, completes_members,
    (completed.2.1 _ completes_members).2, List.reverse_perm _, distinct,
    (completed.2.2.2 _ (List.reverse_perm _) distinct).2⟩

end TextCompletion.Settings
