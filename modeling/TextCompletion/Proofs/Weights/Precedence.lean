import TextCompletion.Proofs.Files.Alike
import TextCompletion.Proofs.Weights.Sources

/-!
What the files that are found depend on. Where one of the sources decides, these are the entries of
sources of its rank or a higher one and, for an index, its shards and the directories on the way to
them. Main statement: other entries may come, go and change without any effect, and an index that is
present and broken is an error whatever else is there.
-/

namespace TextCompletion

namespace WeightFiles

open FilePath (join IsName)
open Source

/-- The places that matter for what a source gives. -/
inductive Relevant (t t' : FileTree) (directory : String) (s : Source) : Place → Prop
  | above {p : Place} (onTheWay : p ∈ t.above directory) : Relevant t t' directory s p
  | source {s' : Source} {name : String} (higher : s'.rank ≤ s.rank) (named : s'.Names name) :
      Relevant t t' directory s (t.placeOf directory ++ [name])
  | shard {index name : String} {set : Set String} (by_index : s.index? = some index)
      (listed : shards t directory index = .ok set) (member : name ∈ set) :
      Relevant t t' directory s (t.placeOf (join directory name))
  /-- Files on the way to a shard do not matter, as nothing is in them. -/
  | shardDirectory {index name : String} {set : Set String} {p : Place}
      (by_index : s.index? = some index) (listed : shards t directory index = .ok set)
      (member : name ∈ set) (onTheWay : p ∈ t.above (join directory name))
      (isDirectory : t.kind? p = some .directory ∨ t'.kind? p = some .directory) :
      Relevant t t' directory s p

/-- Trees that differ only where it does not matter. -/
structure SameRelevant (t t' : FileTree) (directory : String) (s : Source) : Prop where
  workingDirectory : t'.workingDirectory = t.workingDirectory
  kinds : ∀ p, Relevant t t' directory s p → t'.kind? p = t.kind? p

variable {t t' : FileTree} {directory : String} {s s' : Source}

theorem Source.Present.entry (present : s.Present t directory) :
    ∃ name, s.Names name ∧ t.kind? (t.placeOf directory ++ [name]) ≠ none := by
  cases named : s.fileName? with
  | none =>
    rw [Present, named, Option.elim_none] at present
    obtain ⟨names, listed, name, member, tensors⟩ := present
    exact ⟨name, by rwa [Names, named], (FileTree.mem_list_iff listed).1 member⟩
  | some file =>
    have there := (FileTree.exists?_iff.1 ((present_iff named).1 present)).2.2.2
    rw [FileTree.placeOf_join t directory (isName_of_fileName? named).1] at there
    exact ⟨file, by rw [Names, named, Option.elim_some], there⟩

namespace SameRelevant

variable (same : SameRelevant t t' directory s)

include same

theorem exists?_shard {index name : String} {set : Set String} (by_index : s.index? = some index)
    (listed : shards t directory index = .ok set) (member : name ∈ set) :
    t'.exists? (join directory name) = t.exists? (join directory name) := by
  refine Eq.symm (FileTree.exists?_congr same.workingDirectory (fun p onTheWay => ?_) ?_)
  · have kind := fun isDirectory =>
      same.kinds p (.shardDirectory by_index listed member onTheWay isDirectory)
    exact ⟨fun here => (kind (.inl here)).trans here, fun there => (kind (.inr there)) ▸ there⟩
  · rw [same.kinds _ (.shard by_index listed member)]

variable (decides : s.Decides t directory)

include decides

theorem kind?_directory : t'.kind? (t.placeOf directory) = t.kind? (t.placeOf directory) := by
  -- the source itself is the same in both, and an entry
  obtain ⟨name, named, entry⟩ := decides.present.entry
  have entry' : t'.kind? (t.placeOf directory ++ [name]) ≠ none := by
    rwa [same.kinds _ (.source (Nat.le_refl _) named)]
  rw [FileTree.kind?_of_entry entry, FileTree.kind?_of_entry entry']

theorem sameNode_directory : SameNode Eq (t.lookup directory) (t'.lookup directory) :=
  sameNode_of_kinds same.workingDirectory (fun p member => same.kinds p (.above member))
    (same.kind?_directory decides)

theorem sameNode_file {file : String} (named : s'.fileName? = some file)
    (higher : s'.rank ≤ s.rank) :
    SameNode Eq (t.lookup (join directory file)) (t'.lookup (join directory file)) := by
  have plain := (isName_of_fileName? named).1
  refine sameNode_of_kinds same.workingDirectory (fun p member => ?_) ?_
  · rcases FileTree.above_join t directory plain p member with member | rfl
    · exact same.kinds p (.above member)
    · exact same.kind?_directory decides
  · rw [FileTree.placeOf_join t directory plain]
    exact same.kinds _ (.source higher (by rw [Names, named, Option.elim_some]))

theorem ofIndex_same {index : String} (by_index : s.index? = some index) :
    ofIndex t' directory index = ofIndex t directory index := by
  have named : s.fileName? = some index := by
    cases s <;> cases by_index <;> rfl
  have read : weightMap t' directory index = weightMap t directory index := by
    rw [weightMap, weightMap, contentOf_congr (same.sameNode_file decides named (Nat.le_refl _))]
  have listed : shards t' directory index = shards t directory index := by
    rw [shards, shards, read]
  exact ofIndex_congr_shards listed fun set listed name member =>
    same.exists?_shard by_index listed member

theorem listing (loose : Source.loose.rank ≤ s.rank) : (Probe.listing directory).Same t t' := by
  refine ⟨(same.sameNode_directory decides).list_eq_error_iff, ?_⟩
  intro names names' listed listed' name tensors
  rw [FileTree.mem_list_iff listed, FileTree.mem_list_iff listed',
    FileTree.placeOf_congr same.workingDirectory, same.kinds _ (.source loose tensors)]

theorem present_iff (higher : s'.rank ≤ s.rank) :
    s'.Present t' directory ↔ s'.Present t directory := by
  refine present_congr (fun unnamed => ?_) fun file named => ?_
  · cases s' <;> cases unnamed
    exact same.listing decides higher
  · exact (same.sameNode_file decides named higher).exists?_eq

theorem find_same : find t' directory = find t directory :=
  find_congr_of_decides (same.sameNode_directory decides).list_eq_error_iff decides
    (decides.congr fun _ higher => same.present_iff decides higher)
    (files_congr (fun loose => same.listing decides (loose ▸ Nat.le_refl _))
      fun _ by_index => same.ofIndex_same decides by_index)

end SameRelevant

/-- An index that cannot be read, names no shard, or names one that is not there. -/
inductive Broken (t : FileTree) (directory index : String) : Prop
  | unread {f : Failure} (fails : shards t directory index = .error f)
  | empty (none : shards t directory index = .ok ∅)
  | absent {set : Set String} {name : String} (listed : shards t directory index = .ok set)
      (member : name ∈ set) (missing : t.exists? (join directory name) = false)

theorem Broken.refuses {index : String} (broken : Broken t directory index) :
    ∃ f, Refuses t directory index f := by
  cases failing : ofIndex t directory index with
  | error f => exact ⟨f, refuses_of_ofIndex failing⟩
  | ok paths =>
    exfalso
    obtain ⟨set, names, listed, ordered, some, present, -⟩ := ofIndex_eq_ok_iff.1 failing
    cases broken with
    | unread fails => cases listed.symm.trans fails
    | empty none =>
      obtain rfl := Except.ok.inj (listed.symm.trans none)
      exact some (ordered.eq_nil_iff.2 rfl)
    | absent listed' member missing =>
      obtain rfl := Except.ok.inj (listed.symm.trans listed')
      cases missing.symm.trans (present _ ((ordered.complete _).2 member))

/-- The first source that is present decides what is found: its own files, or the error about them.
Nothing that is neither one of the sources up to it, nor one of its shards, nor a directory on the
way to one, has any effect. Without any source a directory has no weights. -/
theorem find_precedence (t : FileTree) (directory : String) :
    (∀ s : Source, s.Decides t directory → t.isDirectory directory = true →
      find t directory = s.files t directory) ∧
    (∀ s : Source, s.Decides t directory → ∀ t', SameRelevant t t' directory s →
      find t' directory = find t directory) ∧
    (∀ s : Source, s.Decides t directory → t.isDirectory directory = true →
      ∀ index, s.index? = some index → Broken t directory index →
        ∃ f, Refuses t directory index f ∧ find t directory = .error f) ∧
    (find t directory = .error (.of (.noWeights directory)) ↔
      t.isDirectory directory = true ∧ ∀ s : Source, ¬ s.Present t directory) ∧
    (∀ names, t.list directory = .ok names → ∀ (s : Source) (file : String),
      s.fileName? = some file → FileTree.Admissible (join directory file) →
        (s.Present t directory ↔ file ∈ names)) := by
  refine ⟨fun s decides readable => ?_, fun s decides t' same => same.find_same decides,
    fun s decides readable index by_index broken => ?_, ?_,
    fun names listed s file named room => ?_⟩
  · exact find_of_decides decides (.inr (FileTree.isDirectory_iff.1 readable))
  · obtain ⟨f, refuses⟩ := broken.refuses
    refine ⟨f, refuses, ?_⟩
    rw [find_of_decides decides (.inr (FileTree.isDirectory_iff.1 readable)),
      files_eq_of_index by_index, map_eq_error]
    exact refuses.ofIndex
  · rw [find_eq_noWeights_iff, FileTree.isDirectory_iff]
  · obtain ⟨plain, short⟩ := isName_of_fileName? named
    rw [present_iff named, FileTree.exists?_join_iff listed plain room short]

namespace Spare

def index : Bytes := "\x7b\"weight_map\":\x7b\"x\":\"a.safetensors\"\x7d\x7d".toUTF8.data.toList

def tree (others : List (String × FileNode)) : FileTree where
  root := .directory [("m", .directory
    ((safetensorsIndexName, .file index) :: ("a.safetensors", .file []) :: others))]

def others : List (String × FileNode) := [(archiveName, .file []), ("b.safetensors", .file [])]

theorem shards_tree (others : List (String × FileNode)) :
    shards (tree others) "/m" safetensorsIndexName = .ok {name | name ∈ ["a.safetensors"]} := by
  have read : weightMap (tree others) "/m" safetensorsIndexName = .ok [("x", "a.safetensors")] := by
    rfl
  exact shards_of_weightMap read

theorem decides : Source.index.Decides (tree []) "/m" where
  present := by
    rw [present_iff rfl]
    rfl
  first s' earlier := by
    cases s' <;> first
      | exact absurd earlier (by decide)
      | exact fun present => by cases (present_iff rfl).1 present

theorem kind?_tree : ∀ p ∈ [[], ["m"], ["m", safetensorsName], ["m", safetensorsIndexName],
    ["m", "a.safetensors"]], (tree others).kind? p = (tree []).kind? p := by
  decide +kernel

theorem eq_of_shard {index name : String} {set : Set String}
    (by_index : Source.index.index? = some index)
    (listed : shards (tree []) "/m" index = .ok set) (member : name ∈ set) :
    name = "a.safetensors" := by
  cases by_index
  obtain rfl := Except.ok.inj ((shards_tree []).symm.trans listed)
  exact List.mem_singleton.1 member

theorem sameRelevant : SameRelevant (tree []) (tree others) "/m" Source.index where
  workingDirectory := rfl
  kinds p relevant := by
    refine kind?_tree p ?_
    cases relevant with
    | above onTheWay =>
      have ways : p ∈ [[], []] := onTheWay
      obtain rfl : p = [] := by simpa using ways
      simp
    | @source s' name higher named =>
      have place : (tree []).placeOf "/m" = ["m"] := by rfl
      have either : name = safetensorsName ∨ name = safetensorsIndexName := by
        cases s' <;> first
          | exact absurd higher (by decide)
          | exact .inl named
          | exact .inr named
      rcases either with rfl | rfl <;> simp [place]
    | shard by_index listed member =>
      have place : (tree []).placeOf (join "/m" "a.safetensors") = ["m", "a.safetensors"] := by rfl
      simp [eq_of_shard by_index listed member, place]
    | shardDirectory by_index listed member onTheWay _ =>
      obtain rfl := eq_of_shard by_index listed member
      have ways : p ∈ [[], [], ["m"]] := onTheWay
      obtain rfl | rfl : p = [] ∨ p = ["m"] := by simpa using ways
      · simp
      · simp

end Spare

/-- Beside an index and its shard, an archive and another tensor file have no effect. -/
theorem find_with_spare_files :
    find (Spare.tree Spare.others) "/m" = .ok (safetensors ["/m/a.safetensors"]) := by
  obtain ⟨-, same, -⟩ := find_precedence (Spare.tree []) "/m"
  rw [same _ Spare.decides _ Spare.sameRelevant]
  rfl

end WeightFiles
end TextCompletion
