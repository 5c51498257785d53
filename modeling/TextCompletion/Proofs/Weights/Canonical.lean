import TextCompletion.Proofs.Files.Alike
import TextCompletion.Proofs.Weights.Sources
import Mathlib.Data.List.TakeWhile

/-!
The files that are found have one order. An index gives its shards, and a directory its tensor
files, in the order of their names, each once. Main statement: this is so whatever the orders in
which the directory and the index list them, and nothing but the sets of entries and shards matters.
-/

namespace TextCompletion

namespace FilePath

theorem split_last_point {cs stem ext : List Char} (plain : '.' ∉ ext) :
    cs = stem ++ '.' :: ext ↔
      cs.reverse.takeWhile (· != '.') = ext.reverse ∧
        cs.reverse.dropWhile (· != '.') = '.' :: stem.reverse := by
  constructor
  · rintro rfl
    have inside : ∀ c ∈ ext.reverse, (c != '.') = true := by
      intro c member
      have other : c ≠ '.' := fun same => plain (same ▸ List.mem_reverse.1 member)
      simpa using other
    rw [List.reverse_append, List.reverse_cons, List.append_assoc,
      List.takeWhile_append_of_pos inside, List.dropWhile_append_of_pos inside]
    simp
  · rintro ⟨back, front⟩
    have whole : cs.reverse = ext.reverse ++ '.' :: stem.reverse := by
      rw [← back, ← front, List.takeWhile_append_dropWhile]
    simpa using congrArg List.reverse whole

theorem toList_with_extension (stem ext : String) :
    (stem ++ "." ++ ext).toList = stem.toList ++ '.' :: ext.toList := by
  simp

theorem extension?_eq_some_iff {name ext : String} :
    extension? name = some ext ↔ name ≠ ".." ∧ '.' ∉ ext.toList ∧
      ∃ stem, stem ≠ "" ∧ name = stem ++ "." ++ ext := by
  rw [extension?]
  by_cases up : name = ".."
  · simp [up]
  rw [if_neg up]
  dsimp only
  constructor
  · intro named
    split at named
    · cases named
    · rename_i point front found
      obtain rfl : point = '.' := by
        simpa [found] using List.head?_dropWhile_not (· != '.') name.toList.reverse
      split at named
      · cases named
      · rename_i some
        cases named
        have plain : '.' ∉ (name.toList.reverse.takeWhile (· != '.')).reverse := fun member => by
          simpa using List.mem_takeWhile_imp (List.mem_reverse.1 member)
        refine ⟨up, by simpa using plain, String.ofList front.reverse, by simpa using some, ?_⟩
        rw [← String.toList_inj, toList_with_extension, String.toList_ofList, String.toList_ofList,
          split_last_point plain]
        simpa using found
  · rintro ⟨-, plain, stem, some, rfl⟩
    obtain ⟨back, front⟩ := (split_last_point plain).1 (toList_with_extension stem ext)
    split
    · rename_i nothing
      cases front.symm.trans nothing
    · rename_i point front' found
      cases front.symm.trans found
      have full : stem.toList.reverse.isEmpty = false := by simpa using some
      rw [full, if_neg Bool.false_ne_true, back, List.reverse_reverse, String.ofList_toList]

end FilePath

theorem isTensorFile_iff {name : String} :
    isTensorFile name ↔ ∃ stem, stem ≠ "" ∧ name = stem ++ ".safetensors" := by
  have plain : '.' ∉ "safetensors".toList := by decide
  have ending (stem : String) : stem ++ "." ++ "safetensors" = stem ++ ".safetensors" := by
    rw [String.append_assoc]
    rfl
  rw [isTensorFile, FilePath.extension?_eq_some_iff]
  simp only [ending]
  refine ⟨fun named => named.2.2, fun named => ⟨?_, plain, named⟩⟩
  rintro rfl
  obtain ⟨stem, -, whole⟩ := named
  have length := congrArg String.length whole
  rw [String.length_append] at length
  have long : ".safetensors".length = 12 := rfl
  have short : "..".length = 2 := rfl
  omega

namespace WeightFiles

open FilePath (join)
open Source

variable {t t' : FileTree} {directory : String} {names names' : List String} {s : Source}

theorem exists?_join_congr {name : String} (listed : t.list directory = .ok names)
    (listed' : t'.list directory = .ok names') (same : name ∈ names' ↔ name ∈ names)
    (plain : FilePath.IsName name) (short : name.utf8ByteSize ≤ FileTree.maxNameLength) :
    t'.exists? (join directory name) = t.exists? (join directory name) := by
  rw [Bool.eq_iff_iff]
  by_cases admissible : FileTree.Admissible (join directory name)
  · rw [FileTree.exists?_join_iff listed' plain admissible short,
      FileTree.exists?_join_iff listed plain admissible short, same]
  · exact iff_of_false (fun there => admissible (FileTree.exists?_iff.1 there).1)
      fun there => admissible (FileTree.exists?_iff.1 there).1

section

variable (listed : t.list directory = .ok names) (listed' : t'.list directory = .ok names')
  (same : ∀ name, name ∈ names' ↔ name ∈ names)

include listed listed' same

theorem listing_of_entries : (Probe.listing directory).Same t t' := by
  refine ⟨fun e => ?_, fun all all' here there name _ => ?_⟩
  · rw [listed, listed']
    exact iff_of_false nofun nofun
  · obtain rfl := Except.ok.inj (listed.symm.trans here)
    obtain rfl := Except.ok.inj (listed'.symm.trans there)
    exact (same name).symm

theorem present_of_entries : s.Present t' directory ↔ s.Present t directory := by
  refine present_congr (fun _ => listing_of_entries listed listed' same) fun file named => ?_
  obtain ⟨plain, short⟩ := isName_of_fileName? named
  exact exists?_join_congr listed listed' (same file) plain short

/-- What is found depends on the entries of the directory, the shards of the index that decides, and
whether these are there. -/
theorem find_of_entries (indexed : ∀ (s : Source) (index : String), s.Decides t directory →
      s.index? = some index → shards t' directory index = shards t directory index ∧
        ∀ set, shards t directory index = .ok set → ∀ name ∈ set,
          t'.exists? (join directory name) = t.exists? (join directory name)) :
    find t' directory = find t directory := by
  have listing := listing_of_entries listed listed' same
  by_cases decided : ∃ s : Source, s.Decides t directory
  · obtain ⟨s, decides⟩ := decided
    have located (index : String) (by_index : s.index? = some index) :
        ofIndex t' directory index = ofIndex t directory index :=
      ofIndex_congr_shards (indexed s index decides by_index).1 (indexed s index decides by_index).2
    exact find_congr_of_decides listing.1 decides
      (decides.congr fun _ _ => present_of_entries listed listed' same)
      (files_congr (fun _ => listing) located)
  · have absent (s : Source) : ¬ s.Present t directory := fun present =>
      decided (exists_decides present)
    rw [find_of_absent listed absent, find_of_absent listed' fun s present =>
      absent s ((present_of_entries listed listed' same).1 present)]

end

theorem find_of_reordered (listed : t.list directory = .ok names)
    (same : t'.workingDirectory = t.workingDirectory)
    (reordered : FileNode.Reordered t.root t'.root) : find t' directory = find t directory := by
  have node (path : String) : SameNode Eq (t.lookup path) (t'.lookup path) :=
    sameNode_of_kinds same (fun p _ => reordered.kind_at? p) (reordered.kind_at? _)
  cases listed' : t'.list directory with
  | error e => cases (((node directory).list_eq_error_iff e).2 listed').symm.trans listed
  | ok names' =>
    refine find_of_entries listed listed' (fun name => ?_) fun s index _ _ => ⟨?_, ?_⟩
    · rw [FileTree.mem_list_iff listed, FileTree.mem_list_iff listed',
        FileTree.placeOf_congr same, FileTree.kind?, reordered.kind_at?, FileTree.kind?]
    · rw [shards, shards, weightMap, weightMap, contentOf_congr (node _)]
    · exact fun _ _ name _ => (node _).exists?_eq

theorem inOrder_loose (names : List String) : InOrder
    (Text.sortDistinct (names.filter fun n => FilePath.extension? n == some "safetensors"))
    {name | name ∈ names ∧ ∃ stem, stem ≠ "" ∧ name = stem ++ ".safetensors"} := by
  obtain ⟨ascending, complete⟩ :=
    inOrder_sortDistinct (names.filter fun n => FilePath.extension? n == some "safetensors")
  refine ⟨ascending, fun name => (complete name).trans ?_⟩
  simp only [Set.mem_ofPred_eq, List.mem_filter, beq_iff_eq, ← isTensorFile_iff]
  rfl

/-- The shards of an index and the tensor files of a directory come in the strict order of their
names, none too few and none too many; an index is refused if it cannot be read or parsed, is empty,
or names a shard that is absent, the first of which is told. Neither the order of a directory nor
that of an index has any effect. -/
theorem find_canonical (t : FileTree) (directory : String) (names : List String)
    (listed : t.list directory = .ok names) :
    (∀ (s : Source) (index : String), s.Decides t directory → s.index? = some index →
      (∀ files, find t directory = .ok files ↔
        ∃ set shardNames, shards t directory index = .ok set ∧ InOrder shardNames set ∧
          shardNames ≠ [] ∧ (∀ name ∈ shardNames, t.exists? (join directory name) = true) ∧
            files = s.wrap (shardNames.map (join directory))) ∧
      (∀ f, find t directory = .error f ↔ Refuses t directory index f) ∧
      ∀ set name, shards t directory index = .ok set → FirstAbsent t directory set name →
        ∃ f, find t directory = .error f ∧
          f.message = "shard " ++ name ++ " listed in " ++ index ++ " is missing") ∧
    (Source.loose.Decides t directory → ∃ looseNames,
      find t directory = .ok (safetensors (looseNames.map (join directory))) ∧
        InOrder looseNames
          {name | name ∈ names ∧ ∃ stem, stem ≠ "" ∧ name = stem ++ ".safetensors"}) ∧
    (∀ t' names', t'.list directory = .ok names' → (∀ name, name ∈ names' ↔ name ∈ names) →
      (∀ (s : Source) (index : String), s.Decides t directory → s.index? = some index →
        shards t' directory index = shards t directory index ∧
          ∀ set, shards t directory index = .ok set → ∀ name ∈ set,
            t'.exists? (join directory name) = t.exists? (join directory name)) →
      find t' directory = find t directory) ∧
    ∀ t', t'.workingDirectory = t.workingDirectory → FileNode.Reordered t.root t'.root →
      find t' directory = find t directory := by
  refine ⟨fun s index decides by_index => ?_, fun decides => ?_,
    fun t' names' listed' same indexed => find_of_entries listed listed' same indexed,
    fun t' same reordered => find_of_reordered listed same reordered⟩
  · have found : find t directory = s.wrap <$> ofIndex t directory index := by
      rw [find_of_decides decides (.inr ⟨names, listed⟩), files_eq_of_index by_index]
    have refused (f : Failure) : find t directory = .error f ↔ Refuses t directory index f := by
      rw [found, map_eq_error, ofIndex_eq_error_iff]
    refine ⟨fun files => ?_, refused, fun set name listed first =>
      ⟨_, (refused _).2 (.absent listed first), rfl⟩⟩
    rw [found, map_eq_ok]
    constructor
    · rintro ⟨paths, located, rfl⟩
      obtain ⟨set, shardNames, listed, ordered, some, present, rfl⟩ := ofIndex_eq_ok_iff.1 located
      exact ⟨set, shardNames, listed, ordered, some, present, rfl⟩
    · rintro ⟨set, shardNames, listed, ordered, some, present, rfl⟩
      exact ⟨_, ofIndex_eq_ok_iff.2 ⟨set, shardNames, listed, ordered, some, present, rfl⟩, rfl⟩
  · refine ⟨_, ?_, inOrder_loose names⟩
    rw [find_of_decides decides (.inr ⟨names, listed⟩), files, loose_of_list listed]
    rfl

namespace Reversed

def index : Bytes := ("\x7b\"weight_map\":\x7b\"x\":\"b.safetensors\"," ++
  "\"y\":\"a.safetensors\"\x7d\x7d").toUTF8.data.toList

def index' : Bytes := ("\x7b\"weight_map\":\x7b\"y\":\"a.safetensors\"," ++
  "\"x\":\"b.safetensors\"\x7d\x7d").toUTF8.data.toList

def entries (index : Bytes) : List (String × FileNode) :=
  [("b.safetensors", .file []), ("a.safetensors", .file []), (safetensorsIndexName, .file index)]

def tree : FileTree where
  root := .directory [("m", .directory (entries index))]

def tree' : FileTree where
  root := .directory [("m", .directory (entries index').reverse)]

theorem weightMap_tree : weightMap tree "/m" safetensorsIndexName =
    .ok [("x", "b.safetensors"), ("y", "a.safetensors")] := by
  rfl

theorem shards_tree' :
    shards tree' "/m" safetensorsIndexName = shards tree "/m" safetensorsIndexName := by
  have turned : weightMap tree' "/m" safetensorsIndexName =
      .ok [("y", "a.safetensors"), ("x", "b.safetensors")] := by
    rfl
  exact shards_of_perm weightMap_tree turned (.swap ..) (by decide)

theorem exists?_tree' {set : Set String} {name : String}
    (listed : shards tree "/m" safetensorsIndexName = .ok set) (member : name ∈ set) :
    tree'.exists? (join "/m" name) = tree.exists? (join "/m" name) := by
  obtain rfl := Except.ok.inj ((shards_of_weightMap weightMap_tree).symm.trans listed)
  have either : name ∈ ["b.safetensors", "a.safetensors"] := member
  rcases List.mem_pair.1 either with rfl | rfl <;> rfl

end Reversed

/-- Two shards come in one order, whichever way round they are listed. -/
theorem find_reversed : find Reversed.tree' "/m" = find Reversed.tree "/m" ∧
    find Reversed.tree "/m" = .ok (safetensors ["/m/a.safetensors", "/m/b.safetensors"]) := by
  let names := ["b.safetensors", "a.safetensors", safetensorsIndexName]
  obtain ⟨-, -, same, -⟩ := find_canonical Reversed.tree "/m" names rfl
  refine ⟨same Reversed.tree' names.reverse rfl (fun name => List.mem_reverse)
    fun s index _ by_index => ?_, rfl⟩
  cases s <;> cases by_index
  · exact ⟨Reversed.shards_tree', fun set listed name member =>
      Reversed.exists?_tree' listed member⟩
  · have unread : shards Reversed.tree "/m" archiveIndexName =
        .error ⟨[.readFile "/m/pytorch_model.bin.index.json"], .os .noEntry⟩ := rfl
    exact ⟨rfl, fun set listed => nomatch unread.symm.trans listed⟩

end WeightFiles
end TextCompletion
