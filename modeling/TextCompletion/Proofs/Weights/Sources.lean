import TextCompletion.Proofs.Files.Places
import TextCompletion.Proofs.Weights.Index

/-!
Where the weights of a model directory may be. There are five sources, in a fixed order. Main
statements: the first one that is present decides alone what is found, and a directory has no
weights exactly if it can be listed and none of the sources is present.
-/

namespace TextCompletion.WeightFiles

open FilePath (join IsName)

/-- The sources, in the order in which they are looked for. -/
inductive Source where
  | whole
  | index
  | loose
  | archive
  | archiveIndex
  deriving DecidableEq, Repr

namespace Source

def rank : Source → Nat
  | whole => 0
  | index => 1
  | loose => 2
  | archive => 3
  | archiveIndex => 4

/-- The name of the file that is looked for; loose files have no name of their own. -/
def fileName? : Source → Option String
  | whole => some safetensorsName
  | index => some safetensorsIndexName
  | loose => none
  | archive => some archiveName
  | archiveIndex => some archiveIndexName

def index? : Source → Option String
  | whole => none
  | index => some safetensorsIndexName
  | loose => none
  | archive => none
  | archiveIndex => some archiveIndexName

def wrap : Source → List String → WeightFiles
  | whole => safetensors
  | index => safetensors
  | loose => safetensors
  | archive => archives
  | archiveIndex => archives

/-- An entry of the name is the source, or one of its files. -/
def Names (s : Source) (name : String) : Prop := s.fileName?.elim (isTensorFile name) (name = ·)

section

variable (t : FileTree) (directory : String)

def Present (s : Source) : Prop :=
  s.fileName?.elim (∃ names, t.list directory = .ok names ∧ ∃ name ∈ names, isTensorFile name)
    fun file => t.exists? (join directory file) = true

/-- The first source that is present. -/
structure Decides (s : Source) : Prop where
  present : s.Present t directory
  first : ∀ s' : Source, s'.rank < s.rank → ¬ s'.Present t directory

def files : Source → Except Failure WeightFiles
  | whole => .ok (safetensors [join directory safetensorsName])
  | index => safetensors <$> ofIndex t directory safetensorsIndexName
  | loose => safetensors <$> WeightFiles.loose t directory
  | archive => .ok (archives [join directory archiveName])
  | archiveIndex => archives <$> ofIndex t directory archiveIndexName

end

theorem isName_of_fileName? {s : Source} {file : String} (named : s.fileName? = some file) :
    IsName file ∧ file.utf8ByteSize ≤ FileTree.maxNameLength := by
  cases s <;> cases named <;>
    exact ⟨⟨by decide, by decide, by decide, by decide⟩, by decide⟩

end Source

open Source

variable {t : FileTree} {directory : String} {s s' : Source} {names : List String}

theorem Source.present_iff {file : String} (named : s.fileName? = some file) :
    s.Present t directory ↔ t.exists? (join directory file) = true := by
  rw [Present, named, Option.elim_some]

theorem Source.present_loose_iff (listed : t.list directory = .ok names) :
    loose.Present t directory ↔ ∃ name ∈ names, isTensorFile name := by
  simp [Present, fileName?, listed]

theorem Source.Decides.rank_le (decides : s.Decides t directory)
    (present : s'.Present t directory) : s.rank ≤ s'.rank :=
  Nat.not_lt.1 fun earlier => decides.first s' earlier present

theorem Source.exists_decides (present : s.Present t directory) :
    ∃ s' : Source, s'.Decides t directory := by
  -- if one of an earlier rank is present, that one is taken
  induction rank : s.rank using Nat.strong_induction_on generalizing s with
  | _ n ih =>
    by_cases earlier : ∃ s' : Source, s'.rank < n ∧ s'.Present t directory
    · obtain ⟨s', less, present'⟩ := earlier
      exact ih s'.rank less present' rfl
    · exact ⟨s, present, fun s' less present' => earlier ⟨s', rank ▸ less, present'⟩⟩

theorem Source.files_eq_of_index {index : String} (by_index : s.index? = some index) :
    s.files t directory = s.wrap <$> ofIndex t directory index := by
  cases s <;> cases by_index <;> rfl

theorem loose_of_list (listed : t.list directory = .ok names) :
    loose t directory = .ok ((Text.sortDistinct
      (names.filter fun n => FilePath.extension? n == some "safetensors")).map
        (join directory)) := by
  rw [loose, listed]
  rfl

theorem loose_eq_nil_iff (listed : t.list directory = .ok names) :
    loose t directory = .ok [] ↔ ¬ Source.loose.Present t directory := by
  rw [loose_of_list listed, Except.ok.injEq, List.map_eq_nil_iff, List.eq_nil_iff_forall_not_mem,
    present_loose_iff listed]
  simp only [Text.mem_sortDistinct, List.mem_filter, beq_iff_eq, isTensorFile, not_exists]

theorem find_of_no_index (absent : ∀ s : Source, s.rank < 2 → ¬ s.Present t directory) :
    find t directory = loose t directory >>= fun paths =>
      if paths = [] then fromArchives t directory else .ok (safetensors paths) := by
  have noWhole : ¬ t.exists? (join directory safetensorsName) = true := absent whole (by decide)
  have noIndex : ¬ t.exists? (join directory safetensorsIndexName) = true :=
    absent index (by decide)
  rw [find_eq, if_neg noWhole, if_neg noIndex]

theorem find_of_no_tensors (listed : t.list directory = .ok names)
    (absent : ∀ s : Source, s.rank < 3 → ¬ s.Present t directory) :
    find t directory = fromArchives t directory := by
  rw [find_of_no_index fun s early => absent s (early.trans (by decide)),
    (loose_eq_nil_iff listed).2 (absent Source.loose (by decide))]
  rfl

/-- The first source that is present decides alone. Tensor files and archives are only looked for
in a directory that can be listed. -/
theorem find_of_decides (decides : s.Decides t directory)
    (readable : s.rank < 2 ∨ ∃ names, t.list directory = .ok names) :
    find t directory = s.files t directory := by
  obtain ⟨present, absent⟩ := decides
  cases s with
  | whole =>
    have there : t.exists? (join directory safetensorsName) = true := present
    rw [find_eq, if_pos there, files]
  | index =>
    have noWhole : ¬ t.exists? (join directory safetensorsName) = true := absent whole (by decide)
    have there : t.exists? (join directory safetensorsIndexName) = true := present
    rw [find_eq, if_neg noWhole, if_pos there, files]
  | loose =>
    obtain ⟨names, listed⟩ := readable.resolve_left (by decide)
    have some : WeightFiles.loose t directory ≠ .ok [] := fun none =>
      (loose_eq_nil_iff listed).1 none present
    rw [find_of_no_index absent, files]
    rw [loose_of_list listed] at some ⊢
    exact if_neg fun none => some (congrArg _ none)
  | archive =>
    obtain ⟨names, listed⟩ := readable.resolve_left (by decide)
    have there : t.exists? (join directory archiveName) = true := present
    rw [find_of_no_tensors listed absent, fromArchives, if_pos there, files]
  | archiveIndex =>
    obtain ⟨names, listed⟩ := readable.resolve_left (by decide)
    have noArchive : ¬ t.exists? (join directory archiveName) = true := absent archive (by decide)
    have there : t.exists? (join directory archiveIndexName) = true := present
    rw [find_of_no_tensors listed fun s less => absent s (less.trans (by decide)), fromArchives,
      if_neg noArchive, if_pos there, files]

/-- A directory that cannot be listed gives the error about that, unless a source of the first two
is present. -/
theorem find_of_unlisted {e : OsError} (unlisted : t.list directory = .error e)
    (absent : ∀ s : Source, s.rank < 2 → ¬ s.Present t directory) :
    find t directory = .error ⟨[.listDirectory directory], .os e⟩ := by
  rw [find_of_no_index absent, loose, unlisted]
  rfl

theorem find_of_absent (listed : t.list directory = .ok names)
    (absent : ∀ s : Source, ¬ s.Present t directory) :
    find t directory = .error (.of (.noWeights directory)) := by
  have noArchive : ¬ t.exists? (join directory archiveName) = true := absent archive
  have noIndex : ¬ t.exists? (join directory archiveIndexName) = true := absent archiveIndex
  rw [find_of_no_tensors listed fun s _ => absent s, fromArchives, if_neg noArchive, if_neg noIndex]

theorem map_eq_error {ε α β : Type} {x : Except ε α} {wrap : α → β} {e : ε} :
    wrap <$> x = .error e ↔ x = .error e := by
  cases x <;> simp [Functor.map, Except.map]

theorem map_eq_ok {ε α β : Type} {x : Except ε α} {wrap : α → β} {b : β} :
    wrap <$> x = .ok b ↔ ∃ a, x = .ok a ∧ b = wrap a := by
  cases x <;> simp [Functor.map, Except.map, eq_comm]

theorem ofIndex_ne_noWeights {index : String} :
    ofIndex t directory index ≠ .error (.of (.noWeights directory)) := fun fails => by
  cases refuses_of_ofIndex fails

theorem Source.files_ne_noWeights : s.files t directory ≠ .error (.of (.noWeights directory)) := by
  cases s with
  | whole => nofun
  | index => exact fun fails => ofIndex_ne_noWeights (map_eq_error.1 fails)
  | loose =>
    intro fails
    have fails := map_eq_error.1 fails
    cases listed : t.list directory with
    | error e =>
      rw [WeightFiles.loose, listed] at fails
      cases fails
    | ok names =>
      rw [loose_of_list listed] at fails
      cases fails
  | archive => nofun
  | archiveIndex => exact fun fails => ofIndex_ne_noWeights (map_eq_error.1 fails)

variable {t' : FileTree}

theorem Source.present_congr (listing : s.fileName? = none → (Probe.listing directory).Same t t')
    (files : ∀ file, s.fileName? = some file →
      t'.exists? (join directory file) = t.exists? (join directory file)) :
    s.Present t' directory ↔ s.Present t directory := by
  cases named : s.fileName? with
  | some file => rw [present_iff named, present_iff named, files file named]
  | none =>
    cases s <;> cases named
    obtain ⟨failing, agree⟩ := listing rfl
    cases listed : t.list directory with
    | error e => simp [Present, fileName?, listed, (failing e).1 listed]
    | ok names =>
      cases listed' : t'.list directory with
      | error e => cases ((failing e).2 listed').symm.trans listed
      | ok names' =>
        rw [present_loose_iff listed, present_loose_iff listed']
        refine exists_congr fun name => and_congr_left fun tensors => ?_
        exact (agree names names' listed listed' name tensors).symm

theorem Source.Decides.congr (decides : s.Decides t directory)
    (same : ∀ s' : Source, s'.rank ≤ s.rank → (s'.Present t' directory ↔ s'.Present t directory)) :
    s.Decides t' directory where
  present := (same s (Nat.le_refl _)).2 decides.present
  first s' earlier present :=
    decides.first s' earlier ((same s' (Nat.le_of_lt earlier)).1 present)

theorem Source.files_congr (listing : s = loose → (Probe.listing directory).Same t t')
    (indexed : ∀ index, s.index? = some index →
      ofIndex t' directory index = ofIndex t directory index) :
    s.files t' directory = s.files t directory := by
  cases s with
  | whole => rfl
  | index => rw [files, files, indexed _ rfl]
  | loose => rw [files, files, loose_congr (listing rfl)]
  | archive => rfl
  | archiveIndex => rw [files, files, indexed _ rfl]

/-- What is found is the same where the same source decides and gives the same. -/
theorem find_congr_of_decides
    (failing : ∀ e, t.list directory = .error e ↔ t'.list directory = .error e)
    (decides : s.Decides t directory) (decides' : s.Decides t' directory)
    (same : s.files t' directory = s.files t directory) : find t' directory = find t directory := by
  cases listed : t.list directory with
  | ok names =>
    cases listed' : t'.list directory with
    | error e => cases ((failing e).2 listed').symm.trans listed
    | ok names' =>
      rw [find_of_decides decides (.inr ⟨names, listed⟩),
        find_of_decides decides' (.inr ⟨names', listed'⟩), same]
  | error e =>
    by_cases early : s.rank < 2
    · rw [find_of_decides decides (.inl early), find_of_decides decides' (.inl early), same]
    · have absent {t : FileTree} (decides : s.Decides t directory) (s' : Source)
          (first : s'.rank < 2) : ¬ s'.Present t directory :=
        decides.first s' (first.trans_le (Nat.not_lt.1 early))
      rw [find_of_unlisted listed (absent decides),
        find_of_unlisted ((failing e).1 listed) (absent decides')]

theorem find_eq_noWeights_iff : find t directory = .error (.of (.noWeights directory)) ↔
    (∃ names, t.list directory = .ok names) ∧ ∀ s : Source, ¬ s.Present t directory := by
  constructor
  · intro fails
    have undecided (s : Source) (decides : s.Decides t directory) :
        ¬ (s.rank < 2 ∨ ∃ names, t.list directory = .ok names) := fun readable =>
      files_ne_noWeights ((find_of_decides decides readable).symm.trans fails)
    cases listed : t.list directory with
    | ok names =>
      refine ⟨⟨names, rfl⟩, fun s present => ?_⟩
      obtain ⟨s', decides⟩ := exists_decides present
      exact undecided s' decides (.inr ⟨names, listed⟩)
    | error e =>
      have absent (s : Source) (early : s.rank < 2) : ¬ s.Present t directory := fun present => by
        obtain ⟨s', decides⟩ := exists_decides present
        exact undecided s' decides (.inl ((decides.rank_le present).trans_lt early))
      cases (find_of_unlisted listed absent).symm.trans fails
  · rintro ⟨⟨names, listed⟩, absent⟩
    exact find_of_absent listed absent

end TextCompletion.WeightFiles
