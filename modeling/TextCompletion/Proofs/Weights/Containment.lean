import TextCompletion.Proofs.Files.Descent
import TextCompletion.Proofs.Weights.Sources

/-!
Where the weight files are that a model directory leads to, in a tree without links. Main statement:
without an index they are entries of the directory; the shards of an index are wherever their names
lead. A relative name leads on from the directory, and stays in it as long as it never climbs above
its start; an absolute one leads from the root. No name is refused for that.
-/

namespace TextCompletion.WeightFiles

open FilePath (join IsName isAbsolute)
open FileTree (IsBelow)
open Source

variable {t : FileTree} {directory file : String} {s : Source} {w : WeightFiles}

theorem exists_decides_of_find (found : find t directory = .ok w) :
    ∃ s : Source, s.Decides t directory ∧ s.files t directory = .ok w := by
  cases listed : t.list directory with
  | ok names =>
    by_cases some : ∃ s : Source, s.Present t directory
    · obtain ⟨s, present⟩ := some
      obtain ⟨s', decides⟩ := exists_decides present
      exact ⟨s', decides, find_of_decides decides (.inr ⟨names, listed⟩) ▸ found⟩
    · cases (find_of_absent listed (not_exists.1 some)).symm.trans found
  | error e =>
    by_cases early : ∃ s : Source, s.rank < 2 ∧ s.Present t directory
    · obtain ⟨s, first, present⟩ := early
      obtain ⟨s', decides⟩ := exists_decides present
      have first' := (decides.rank_le present).trans_lt first
      exact ⟨s', decides, find_of_decides decides (.inl first') ▸ found⟩
    · have absent (s : Source) (first : s.rank < 2) : ¬ s.Present t directory :=
        fun present => early ⟨s, first, present⟩
      cases (find_of_unlisted listed absent).symm.trans found

theorem kind?_of_exists (plain : IsName file) (there : t.exists? (join directory file) = true) :
    t.kind? (t.placeOf directory ++ [file]) ≠ none := by
  rw [← FileTree.placeOf_join t directory plain]
  exact (FileTree.exists?_iff.1 there).2.2.2

theorem Source.entries_of_files (noIndex : s.index? = none) (present : s.Present t directory)
    (named : ∀ names, t.list directory = .ok names → ∀ name ∈ names, IsName name)
    (given : s.files t directory = .ok w) :
    ∃ names : List String, w = s.wrap (names.map (join directory)) ∧
      ∀ name ∈ names, s.Names name ∧ IsName name ∧
        t.kind? (t.placeOf directory ++ [name]) ≠ none := by
  cases fixed : s.fileName? with
  | some file =>
    have only : s.files t directory = .ok (s.wrap [join directory file]) := by
      cases s <;> cases fixed <;> first | rfl | cases noIndex
    obtain rfl := Except.ok.inj (only.symm.trans given)
    obtain ⟨plain, -⟩ := isName_of_fileName? fixed
    refine ⟨[file], rfl, List.forall_mem_singleton.2 ⟨?_, plain, ?_⟩⟩
    · rw [Names, fixed]
      rfl
    · exact kind?_of_exists plain ((present_iff fixed).1 present)
  | none =>
    obtain rfl : s = loose := by cases s <;> first | rfl | cases fixed
    obtain ⟨paths, listing, rfl⟩ := map_eq_ok.1 given
    cases listed : t.list directory with
    | error e =>
      rw [WeightFiles.loose, listed] at listing
      cases listing
    | ok names =>
      rw [loose_of_list listed] at listing
      obtain rfl := Except.ok.inj listing
      refine ⟨_, rfl, fun name member => ?_⟩
      obtain ⟨member, tensors⟩ := List.mem_filter.1 (Text.mem_sortDistinct.1 member)
      exact ⟨eq_of_beq tensors, named names listed name member,
        (FileTree.mem_list_iff listed).1 member⟩

theorem find_of_shards {index : String} {set : Set String} (decides : s.Decides t directory)
    (indexed : s.index? = some index)
    (readable : s.rank < 2 ∨ ∃ names, t.list directory = .ok names)
    (listed : shards t directory index = .ok set) (some : set.Nonempty)
    (present : ∀ name ∈ set, t.exists? (join directory name) = true) :
    ∃ names, InOrder names set ∧ find t directory = .ok (s.wrap (names.map (join directory))) := by
  obtain ⟨names, ordered, -⟩ := ofIndex_of_ok listed
  have located : ofIndex t directory index = .ok (names.map (join directory)) :=
    ofIndex_eq_ok_iff.2 ⟨set, names, listed, ordered, mt ordered.eq_nil_iff.1 some.ne_empty,
      fun name member => present name ((ordered.complete name).1 member), rfl⟩
  refine ⟨names, ordered, ?_⟩
  rw [find_of_decides decides readable, files_eq_of_index indexed, located]
  rfl

/-- The weight files of a directory, given by the first source that is present. Where the source has
no index they are entries of the directory. The shards of an index are where their names lead, in
the directory or not, and all that is asked of a name is that something is there. -/
theorem find_contained
    (named : ∀ names, t.list directory = .ok names → ∀ name ∈ names, IsName name) :
    (∀ w, find t directory = .ok w →
      ∃ (s : Source) (names : List String), s.Decides t directory ∧
        w = s.wrap (names.map (join directory)) ∧
        (s.index? = none → ∀ name ∈ names, s.Names name ∧ t.Stays directory name ∧
          t.placeOf (join directory name) = t.placeOf directory ++ [name] ∧
            t.kind? (t.placeOf directory ++ [name]) ≠ none) ∧
        ∀ index, s.index? = some index → ∃ set, shards t directory index = .ok set ∧
          InOrder names set ∧ ∀ name ∈ names,
            t.exists? (join directory name) = true ∧ t.IsPlaced directory name) ∧
    ∀ (s : Source) index set, s.Decides t directory → s.index? = some index →
      (s.rank < 2 ∨ ∃ names, t.list directory = .ok names) →
        shards t directory index = .ok set → set.Nonempty →
          (∀ name ∈ set, t.exists? (join directory name) = true) →
            ∃ names, InOrder names set ∧
              find t directory = .ok (s.wrap (names.map (join directory))) := by
  refine ⟨fun w found => ?_,
    fun s index set decides indexed readable listed some present =>
      find_of_shards decides indexed readable listed some present⟩
  obtain ⟨s, decides, given⟩ := exists_decides_of_find found
  by_cases noIndex : s.index? = none
  · obtain ⟨names, rfl, entries⟩ := s.entries_of_files noIndex decides.present named given
    refine ⟨s, names, decides, rfl, fun _ name member => ?_,
      fun index indexed => nomatch noIndex.symm.trans indexed⟩
    obtain ⟨own, plain, there⟩ := entries name member
    exact ⟨own, FileTree.stays_of_depth? (FileTree.depth?_of_isName plain),
      FileTree.placeOf_join t directory plain, there⟩
  · obtain ⟨index, indexed⟩ := Option.ne_none_iff_exists'.1 noIndex
    rw [files_eq_of_index indexed] at given
    obtain ⟨paths, located, rfl⟩ := map_eq_ok.1 given
    obtain ⟨set, names, listed, ordered, -, present, rfl⟩ := ofIndex_eq_ok_iff.1 located
    refine ⟨s, names, decides, rfl, fun none => absurd none noIndex, fun index' same => ?_⟩
    obtain rfl := Option.some.inj (indexed.symm.trans same)
    exact ⟨set, listed, ordered, fun name member =>
      ⟨present name member, FileTree.isPlaced t directory name⟩⟩

namespace Astray

def index : Bytes := ("\x7b\"weight_map\":\x7b\"w\":\"/m/parts/q\",\"x\":\"../s\"," ++
  "\"y\":\"/s\",\"z\":\"parts/q\"\x7d\x7d").toUTF8.data.toList

def tree : FileTree where
  root := .directory
    [("s", .file []),
     ("m", .directory
      [(safetensorsIndexName, .file index), ("parts", .directory [("q", .file [])])])]

theorem find_tree :
    find tree "/m" = .ok (safetensors ["/m/../s", "/m/parts/q", "/s", "/m/parts/q"]) := by
  rfl

theorem isName_of_list (names : List String) (listed : tree.list "/m" = .ok names) :
    ∀ name ∈ names, IsName name := by
  obtain rfl : [safetensorsIndexName, "parts"] = names := Except.ok.inj listed
  exact List.forall_mem_cons.2 ⟨⟨by decide, by decide, by decide, by decide⟩,
    List.forall_mem_singleton.2 ⟨by decide, by decide, by decide, by decide⟩⟩

theorem eq_index_of_decides {s : Source} (decides : s.Decides tree "/m") : s = Source.index := by
  have there : Source.index.Present tree "/m" := rfl
  have early := decides.rank_le there
  cases s with
  | whole => cases decides.present
  | index => rfl
  | _ => exact absurd early (by decide)

theorem shards_tree : shards tree "/m" safetensorsIndexName =
    .ok {name | name ∈ ["/m/parts/q", "../s", "/s", "parts/q"]} := by
  have read : weightMap tree "/m" safetensorsIndexName =
      .ok [("w", "/m/parts/q"), ("x", "../s"), ("y", "/s"), ("z", "parts/q")] := rfl
  exact shards_of_weightMap read

end Astray

/-- Of the relative names one stays in the directory, two names below it, and one leads out. The
absolute ones lead from the root, one of them back into the directory. -/
theorem find_contained_astray : Astray.tree.Stays "/m" "parts/q" ∧
    IsBelow (Astray.tree.placeOf "/m") 2 (Astray.tree.placeOf "/m/parts/q") ∧
    ¬ Astray.tree.Stays "/m" "../s" ∧ Astray.tree.placeOf "/s" = ["s"] ∧
    Astray.tree.placeOf (join "/m" "/m/parts/q") = ["m", "parts", "q"] := by
  obtain ⟨s, names, decides, -, -, indexed⟩ :=
    (find_contained Astray.isName_of_list).1 _ Astray.find_tree
  obtain rfl := Astray.eq_index_of_decides decides
  obtain ⟨set, listed, ordered, each⟩ := indexed safetensorsIndexName rfl
  obtain rfl := Except.ok.inj (Astray.shards_tree.symm.trans listed)
  have placed {name : String} (member : name ∈ ["/m/parts/q", "../s", "/s", "parts/q"]) :=
    (each name ((ordered.complete name).2 member)).2
  have inside := placed (by decide : "parts/q" ∈ _)
  have climbing := placed (by decide : "../s" ∈ _)
  have beside := placed (by decide : "/s" ∈ _)
  have back := placed (by decide : "/m/parts/q" ∈ _)
  obtain ⟨stays, below⟩ := inside.below rfl 2 rfl
  have place := beside.place
  rw [beside.absolute rfl] at place
  exact ⟨stays, below, climbing.climbs rfl rfl (by decide), place, back.place⟩

/-- Weights are found at places outside of the directory: one that a name climbs to, and one that a
name gives from the root. -/
theorem find_outside :
    find Astray.tree "/m" = .ok (safetensors ["/m/../s", "/m/parts/q", "/s", "/m/parts/q"]) ∧
    ¬ Astray.tree.placeOf "/m" <+: Astray.tree.placeOf "/m/../s" ∧
    ¬ Astray.tree.placeOf "/m" <+: Astray.tree.placeOf "/s" :=
  ⟨Astray.find_tree, by decide, by decide⟩

end TextCompletion.WeightFiles
