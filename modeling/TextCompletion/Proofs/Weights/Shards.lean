import TextCompletion.Proofs.Pipeline.Loading
import TextCompletion.Proofs.Text.Bytes
import TextCompletion.Proofs.Weights.Archives
import Mathlib.Data.List.Forall2

/-!
Tensors that are spread over several files. What a file holds is a table, the tensors by name, and
what several files hold together is the table in which the last file with a name counts. Main
statement: loading gives the answers of that table, in both formats, so a table answers the same
from one file as from any files it is distributed over.
-/

namespace TextCompletion

namespace Weights

abbrev Table := String → Option Stored

namespace Store

variable {s : Store}

theorem find?_append (a b : List (String × Stored)) (name : String) :
    (⟨a ++ b⟩ : Store).find? name = ((⟨b⟩ : Store).find? name).or ((⟨a⟩ : Store).find? name) := by
  simp only [find?, List.reverse_append, List.find?_append]
  cases List.find? (fun e => e.1 == name) b.reverse <;> rfl

theorem find?_join (stores : List Store) (name : String) :
    (join stores).find? name = stores.reverse.findSome? fun s => s.find? name := by
  -- the first store comes last in the search, so it only counts where the rest has nothing
  induction stores with
  | nil => rfl
  | cons s rest ih =>
    have first : join (s :: rest) = ⟨s.entries ++ (join rest).entries⟩ := rfl
    rw [first, find?_append, ih, List.reverse_cons, List.findSome?_append]
    congr 1
    simp only [List.findSome?_cons, List.findSome?_nil]
    cases s.find? name <;> rfl

theorem fault?_eq_none (usable : ∀ name f, s.find? name ≠ some (.error f)) : s.fault? = none := by
  rw [fault?, List.findSome?_eq_none_iff]
  intro e _
  cases found : s.find? e.1 with
  | none => rfl
  | some x =>
    cases x with
    | ok tensor => rfl
    | error f => exact absurd found (usable e.1 f)

end Store

structure Answers (s : Store) (table : Table) : Prop where
  absent : ∀ name, table name = none →
    s.contains name = false ∧ ∀ shape, s.get name shape = .error (.notFound name)
  present : ∀ name tensor, table name = some (.ok tensor) →
    s.contains name = true ∧ s.get name tensor.shape = .ok tensor ∧
      ∀ shape, tensor.shape ≠ shape →
        s.get name shape = .error (.wrongShape name shape tensor.shape)
  refused : ∀ name f, table name = some (.error f) → ∀ shape, s.get name shape = .error f

theorem answers_of_find? {s : Store} {table : Table}
    (finds : ∀ name, s.find? name = table name) : Answers s table := by
  refine ⟨fun name absent => ?_, fun name tensor present => ?_, fun name f refused shape => ?_⟩
  · simp only [Store.contains, Store.get, finds, absent, implies_true, and_self]
  · simp only [Store.contains, Store.get, finds, present, if_true, true_and]
    exact fun shape other => if_neg other
  · simp only [Store.get, finds, refused]

theorem get_eq_of_find? {s s' : Store} (same : ∀ name, s.find? name = s'.find? name)
    (name : String) (shape : List Nat) : s.get name shape = s'.get name shape := by
  simp only [Store.get, same]

theorem contains_eq_of_find? {s s' : Store} (same : ∀ name, s.find? name = s'.find? name)
    (name : String) : s.contains name = s'.contains name := by
  simp only [Store.contains, same]

inductive FileFormat where
  | safetensors
  | archive
  deriving DecidableEq, Repr

namespace FileFormat

def files : FileFormat → List String → WeightFiles
  | safetensors => .safetensors
  | archive => .archives

def read (t : FileTree) : FileFormat → String → Except Failure Store
  | safetensors, path => (inspect t path).map Header.store
  | archive, path => readArchive t path

/-- The tensors of an archive must all be readable; those of other files are read when asked for. -/
def Admits : FileFormat → Table → Prop
  | safetensors, _ => True
  | archive, table => ∀ name f, table name ≠ some (.error f)

end FileFormat

/-- The file at a path is one of the format and holds the tensors of a table. -/
structure Holds (t : FileTree) (format : FileFormat) (path : String) (table : Table) : Prop where
  reads : ∃ s, format.read t path = .ok s ∧ ∀ name, s.find? name = table name
  admitted : format.Admits table

/-- The table of several files: of tensors with the same name that of the last file counts. -/
def lastOf (tables : List Table) : Table := fun name =>
  tables.reverse.findSome? fun table => table name

/-- Each tensor of the whole is in exactly one part, and the parts have no other tensors. -/
def Distributes (whole : Table) (parts : List Table) : Prop :=
  ∀ name, match whole name with
    | none => ∀ part ∈ parts, part name = none
    | some x => ∃ before part after, parts = before ++ part :: after ∧ part name = some x ∧
        ∀ other ∈ before ++ after, other name = none

theorem lastOf_eq_some {before after : List Table} {part : Table} {name : String} {x : Stored}
    (here : part name = some x) (later : ∀ other ∈ after, other name = none) :
    lastOf (before ++ part :: after) name = some x := by
  have none : after.reverse.findSome? (fun table => table name) = none := by
    simpa using later
  simp [lastOf, List.findSome?_append, none, here]

theorem lastOf_eq_whole {whole : Table} {parts : List Table} (distributed : Distributes whole parts)
    (name : String) : lastOf parts name = whole name := by
  have placed := distributed name
  cases tensor : whole name with
  | none =>
    rw [tensor] at placed
    simpa [lastOf] using placed
  | some x =>
    rw [tensor] at placed
    obtain ⟨before, part, after, rfl, here, alone⟩ := placed
    exact lastOf_eq_some here fun other member => alone other (List.mem_append_right _ member)

theorem lastOf_single (table : Table) (name : String) : lastOf [table] name = table name := by
  cases tensor : table name <;> simp [lastOf, tensor]

theorem distributes_append {a b : Store}
    (apart : ∀ name, a.find? name = none ∨ b.find? name = none) :
    Distributes (⟨a.entries ++ b.entries⟩ : Store).find? [a.find?, b.find?] := by
  intro name
  rw [Store.find?_append]
  rcases apart name with none | none
  · cases found : b.find? name with
    | none => simp [none, found]
    | some x =>
      refine ⟨[a.find?], b.find?, [], rfl, found, ?_⟩
      simpa using none
  · cases found : a.find? name with
    | none => simp [none, found]
    | some x =>
      rw [none]
      refine ⟨[], a.find?, [b.find?], rfl, found, ?_⟩
      simpa using none

theorem find?_join_of_tables {stores : List Store} {tables : List Table}
    (held : List.Forall₂ (fun s table => ∀ name, s.find? name = table name) stores tables)
    (name : String) : (Store.join stores).find? name = lastOf tables name := by
  rw [Store.find?_join, lastOf]
  induction held with
  | nil => rfl
  | cons head _ ih =>
    simp only [List.reverse_cons, List.findSome?_append, ih, List.findSome?_cons,
      List.findSome?_nil, head name]

theorem mapM_eq_ok_of_forall₂ {α β γ ε : Type} {f : α → Except ε β} {P : β → γ → Prop}
    {as : List α} {cs : List γ} (each : List.Forall₂ (fun a c => ∃ b, f a = .ok b ∧ P b c) as cs) :
    ∃ bs, as.mapM f = .ok bs ∧ List.Forall₂ P bs cs := by
  induction each with
  | nil => exact ⟨[], rfl, .nil⟩
  | cons head _ ih =>
    obtain ⟨b, made, fits⟩ := head
    obtain ⟨bs, others, rest⟩ := ih
    refine ⟨b :: bs, ?_, .cons fits rest⟩
    rw [List.mapM_cons, made, others]
    rfl

section

variable {t : FileTree} {path : String} {table : Table} {paths : List String}
  {tables : List Table}

theorem Holds.inspect (held : Holds t .safetensors path table) :
    ∃ h, inspect t path = .ok h ∧ ∀ name, h.store.find? name = table name := by
  obtain ⟨s, reads, finds⟩ := held.reads
  cases inspected : Weights.inspect t path with
  | error f => simp [FileFormat.read, inspected, Except.map] at reads
  | ok h =>
    have same : h.store = s := by simpa [FileFormat.read, inspected, Except.map] using reads
    exact ⟨h, rfl, same ▸ finds⟩

theorem Holds.readWholeArchive (held : Holds t .archive path table) :
    ∃ s, readWholeArchive t path = .ok s ∧ ∀ name, s.find? name = table name := by
  obtain ⟨s, reads, finds⟩ := held.reads
  have usable : ∀ name f, s.find? name ≠ some (.error f) := by
    intro name f
    rw [finds name]
    exact held.admitted name f
  refine ⟨s, ?_, finds⟩
  have read : readArchive t path = .ok s := reads
  rw [Weights.readWholeArchive, read]
  simp only [bind, Except.bind, Store.fault?_eq_none usable]

theorem load_safetensors {headers : List Header}
    (made : paths.mapM (Weights.inspect t) = .ok headers) :
    (load t (.safetensors paths)).result = .ok (Store.join (headers.map Header.store)) := by
  simp only [load, Logged.result_bind, Logged.result_lift, made]
  rfl

theorem readArchive_of_whole {s : Store} (made : Weights.readWholeArchive t path = .ok s) :
    Weights.readArchive t path = .ok s := by
  obtain ⟨s', read, whole⟩ := bind_eq_ok.1 made
  cases fault : s'.fault? with
  | some f => simp [fault] at whole
  | none =>
    have same : s' = s := by simpa [fault] using whole
    rw [read, same]

/-- One archive alone is read without its tensors; where these can be read, that is no different. -/
theorem load_archives {stores : List Store}
    (made : paths.mapM (Weights.readWholeArchive t) = .ok stores) :
    (load t (.archives paths)).result = .ok (Store.join stores) := by
  rcases paths with _ | ⟨first, _ | ⟨second, rest⟩⟩
  · simp only [load, Logged.result_bind, Logged.result_lift, made]
    rfl
  · rw [List.mapM_cons] at made
    obtain ⟨s, read, others⟩ := bind_eq_ok.1 made
    have single : stores = [s] := (Except.ok.inj others).symm
    have joined : Store.join [s] = s := by simp [Store.join]
    rw [single, joined, ← readArchive_of_whole read]
    simp only [load, Logged.result_bind, Logged.result_lift]
    rfl
  · simp only [load, Logged.result_bind, Logged.result_lift, made]
    rfl

/-- Files that can be read are loaded, whatever their format and number. -/
theorem load_of_holds {format : FileFormat} (held : List.Forall₂ (Holds t format) paths tables) :
    ∃ s, (load t (format.files paths)).result = .ok s ∧
      ∀ name, s.find? name = lastOf tables name := by
  cases format with
  | safetensors =>
    obtain ⟨headers, made, each⟩ := mapM_eq_ok_of_forall₂ (held.imp fun _ _ h => h.inspect)
    exact ⟨_, load_safetensors made, find?_join_of_tables (List.forall₂_map_left_iff.2 each)⟩
  | archive =>
    obtain ⟨stores, made, each⟩ :=
      mapM_eq_ok_of_forall₂ (held.imp fun _ _ h => h.readWholeArchive)
    exact ⟨_, load_archives made, find?_join_of_tables each⟩

end

end Weights

namespace WeightFiles

def Ascending (directory : String) (paths : List String) : Prop :=
  ∃ names : List String, paths = names.map (FilePath.join directory) ∧ names.Pairwise (· < ·)

variable {t : FileTree} {directory : String} {files : WeightFiles}

theorem ascending_single (name : String) : Ascending directory [FilePath.join directory name] :=
  ⟨[name], rfl, List.pairwise_singleton _ _⟩

theorem locateShards_eq_ok {index : String} {names paths : List String}
    (located : locateShards t directory index names = .ok paths) :
    paths = names.map (FilePath.join directory) := by
  induction names generalizing paths with
  | nil => simpa [locateShards] using located.symm
  | cons name rest ih =>
    rw [locateShards] at located
    split at located
    · cases further : locateShards t directory index rest with
      | error f => simp [further, Except.map] at located
      | ok more =>
        have whole : FilePath.join directory name :: more = paths := by
          simpa [further, Except.map] using located
        rw [← whole, ih further, List.map_cons]
    · simp at located

theorem ofIndex_ascending {index : String} {paths : List String}
    (made : ofIndex t directory index = .ok paths) : Ascending directory paths := by
  obtain ⟨content, -, made⟩ := bind_eq_ok.1 made
  obtain ⟨members, -, made⟩ := bind_eq_ok.1 made
  have sorted := Text.sortDistinct_pairwise (lastValues members)
  split at made
  · cases made
  · exact ⟨_, locateShards_eq_ok made, sorted⟩

theorem loose_ascending {paths : List String} (made : loose t directory = .ok paths) :
    Ascending directory paths := by
  obtain ⟨names, -, made⟩ := bind_eq_ok.1 made
  exact ⟨_, (Except.ok.inj made).symm, Text.sortDistinct_pairwise _⟩

theorem find_ascending (found : find t directory = .ok files) :
    Ascending directory files.paths := by
  unfold find at found
  simp only [] at found
  split at found
  · cases found
    exact ascending_single _
  split at found
  · obtain ⟨paths, made, done⟩ := bind_eq_ok.1 found
    cases done
    exact ofIndex_ascending made
  obtain ⟨paths, made, found⟩ := bind_eq_ok.1 found
  split at found
  · cases found
    exact loose_ascending made
  split at found
  · cases found
    exact ascending_single _
  split at found
  · obtain ⟨paths, made, done⟩ := bind_eq_ok.1 found
    cases done
    exact ofIndex_ascending made
  · cases found

end WeightFiles

namespace Weights

/-- Files that are found are read in the order of their names, and together they answer as the table
in which the last of them counts; so whatever files a table is distributed over, they answer as one
file with the whole table. -/
theorem load_shards (t : FileTree) (format : FileFormat) (shards : List String)
    (parts : List Table) (held : List.Forall₂ (Holds t format) shards parts) :
    (∀ directory files, WeightFiles.find t directory = .ok files →
      WeightFiles.Ascending directory files.paths) ∧
    ∃ sharded, (load t (format.files shards)).result = .ok sharded ∧
      Answers sharded (lastOf parts) ∧
      ∀ path whole, Holds t format path whole → Distributes whole parts →
        ∃ single, (load t (format.files [path])).result = .ok single ∧ Answers sharded whole ∧
          (∀ name shape, sharded.get name shape = single.get name shape) ∧
          ∀ name, sharded.contains name = single.contains name := by
  refine ⟨fun directory files found => WeightFiles.find_ascending found, ?_⟩
  obtain ⟨sharded, loaded, finds⟩ := load_of_holds held
  refine ⟨sharded, loaded, answers_of_find? finds, fun path whole holds distributed => ?_⟩
  obtain ⟨single, alone, finds'⟩ := load_of_holds (.cons holds .nil)
  have table : ∀ name, sharded.find? name = whole name := fun name =>
    (finds name).trans (lastOf_eq_whole distributed name)
  have same : ∀ name, sharded.find? name = single.find? name := by
    intro name
    rw [table name, finds' name, lastOf_single]
  exact ⟨single, alone, answers_of_find? table, get_eq_of_find? same, contains_eq_of_find? same⟩

theorem Header.parse_of_layout {lead document content : Bytes}
    {tensors : List (String × TensorInfo)}
    (words : lead.length = 8) (counts : littleEndian lead = document.length)
    (short : document.length ≤ maxLength) (text : (Text.Utf8.decode? document).isSome)
    (described : (Json.parse document).toOption.bind tensors? = some tensors)
    (sorted : tensors.Pairwise fun a b => TensorInfo.startsBefore a b = true)
    (covered : check 0 tensors = .ok content.length) :
    parse (lead ++ (document ++ content)) = .ok ⟨tensors, content⟩ := by
  have head : (lead ++ (document ++ content)).take 8 = lead := by
    rw [← words, List.take_left]
  have rest : (lead ++ (document ++ content)).drop 8 = document ++ content := by
    rw [← words, List.drop_left]
  have enough : ¬ (lead ++ (document ++ content)).length < 8 := by
    rw [List.length_append]
    omega
  have fits : ¬ (lead ++ (document ++ content)).length < document.length + 8 := by
    simp only [List.length_append]
    omega
  have readable : (Text.Utf8.decode? document).isNone = false := by
    rw [Option.isNone_eq_false_iff]
    exact text
  have fitting : ¬ maxLength < document.length := Nat.not_lt.2 short
  unfold parse
  simp only [head, rest, counts, if_neg enough, if_neg fitting, if_neg fits, readable,
    List.take_left, List.drop_left, described, List.mergeSort_of_pairwise sorted, covered]
  rw [if_neg Bool.false_ne_true]
  simp only [bind, Except.bind, ne_eq, not_true, if_false]
  rfl

theorem inspect_of_parse {t : FileTree} {path : String} {content : Bytes} {h : Header}
    (file : t.lookup path = .ok (.file content)) (parsed : Header.parse content = .ok h) :
    inspect t path = .ok h := by
  simp [Weights.inspect, file, parsed, accessing, bind, Except.bind]

theorem holds_of_parse {t : FileTree} {path : String} {content : Bytes} {h : Header}
    (file : t.lookup path = .ok (.file content)) (parsed : Header.parse content = .ok h) :
    Holds t .safetensors path h.store.find? := by
  refine ⟨⟨h.store, ?_, fun _ => rfl⟩, trivial⟩
  simp [FileFormat.read, inspect_of_parse file parsed, Except.map]

theorem holds_of_tensors {t : FileTree} {path : String} {content : Bytes} {s : Store}
    (file : t.lookup path = .ok (.file content)) (read : Archive.tensors content = .ok s.entries)
    (usable : ∀ e ∈ s.entries, ∃ tensor, e.2 = .ok tensor) : Holds t .archive path s.find? := by
  refine ⟨⟨s, ?_, fun _ => rfl⟩, fun name f found => ?_⟩
  · simp [FileFormat.read, readArchive, file, read, accessing, bind, Except.bind]
  · obtain ⟨e, member, same⟩ := Option.map_eq_some_iff.1 found
    obtain ⟨tensor, made⟩ := usable e (List.mem_reverse.1 (List.mem_of_find?_eq_some member))
    cases made.symm.trans same

namespace Halves

open Archive (Packed pack word)

def letters (s : String) : Bytes := s.toUTF8.data.toList

def file (document : String) (content : Bytes) : Bytes :=
  [UInt8.ofNat document.length, 0, 0, 0, 0, 0, 0, 0] ++ (letters document ++ content)

def left : Header := ⟨[("a", ⟨.f32, [1], 0, 4⟩)], [0, 0, 128, 63]⟩
def right : Header := ⟨[("b", ⟨.f32, [1], 0, 4⟩)], [0, 0, 0, 64]⟩
def both : Header :=
  ⟨[("a", ⟨.f32, [1], 0, 4⟩), ("b", ⟨.f32, [1], 4, 8⟩)], left.content ++ right.content⟩

def leftFile : Bytes :=
  file "\x7b\"a\":\x7b\"dtype\":\"F32\",\"shape\":[1],\"data_offsets\":[0,4]\x7d\x7d" left.content
def rightFile : Bytes :=
  file "\x7b\"b\":\x7b\"dtype\":\"F32\",\"shape\":[1],\"data_offsets\":[0,4]\x7d\x7d" right.content
def bothFile : Bytes := file
  ("\x7b\"a\":\x7b\"dtype\":\"F32\",\"shape\":[1],\"data_offsets\":[0,4]\x7d," ++
    "\"b\":\x7b\"dtype\":\"F32\",\"shape\":[1],\"data_offsets\":[4,8]\x7d\x7d") both.content

def pushText (s : String) : Bytes := 0x58 :: (word 4 s.length ++ letters s)

def pushGlobal (module name : String) : Bytes := 0x63 :: letters (module ++ "\n" ++ name ++ "\n")

def pushTensor (name storage : String) : Bytes :=
  pushText name ++ pushGlobal "torch._utils" "_rebuild_tensor_v2" ++ [0x28, 0x28] ++
    pushText "storage" ++ pushGlobal "torch" "FloatStorage" ++ pushText storage ++ pushText "cpu" ++
    [0x4B, 1, 0x74, 0x51, 0x4B, 0, 0x4B, 1, 0x85, 0x4B, 1, 0x85, 0x89] ++
    pushGlobal "collections" "OrderedDict" ++ [0x29, 0x52, 0x74, 0x52]

def dictionary (check : Nat) (items : Bytes) : Packed :=
  ⟨letters "m/data.pkl", check, [0x80, 2, 0x7D, 0x28] ++ items ++ [0x75, 0x2E]⟩

def leftFiles : List Packed :=
  [dictionary 0x5B4DF073 (pushTensor "a" "0"), ⟨letters "m/data/0", 0xACA16A6A, left.content⟩]
def rightFiles : List Packed :=
  [dictionary 0xA8AFC39E (pushTensor "b" "0"), ⟨letters "m/data/0", 0x57989E8C, right.content⟩]
def bothFiles : List Packed :=
  [dictionary 0xB97265D3 (pushTensor "b" "1" ++ pushTensor "a" "0"),
    ⟨letters "m/data/0", 0xACA16A6A, left.content⟩, ⟨letters "m/data/1", 0x57989E8C, right.content⟩]

def tree : FileTree where
  root := .directory
    [("1.safetensors", .file leftFile), ("2.safetensors", .file rightFile),
      ("whole.safetensors", .file bothFile), ("1.bin", .file (pack leftFiles)),
      ("2.bin", .file (pack rightFiles)), ("whole.bin", .file (pack bothFiles))]

theorem parse_left : Header.parse leftFile = .ok left :=
  Header.parse_of_layout rfl (by decide +kernel) (by decide +kernel)
    (Text.Utf8.isSome_decode?_toUTF8 _) (by decide +kernel) (by decide) rfl

theorem parse_right : Header.parse rightFile = .ok right :=
  Header.parse_of_layout rfl (by decide +kernel) (by decide +kernel)
    (Text.Utf8.isSome_decode?_toUTF8 _) (by decide +kernel) (by decide) rfl

theorem parse_both : Header.parse bothFile = .ok both :=
  Header.parse_of_layout rfl (by decide +kernel) (by decide +kernel)
    (Text.Utf8.isSome_decode?_toUTF8 _) (by decide +kernel) (by decide) rfl

def place (storage : String) : Archive.Layout := ⟨storage, .f32, 0, [1], [1]⟩

theorem tensors_left : Archive.tensors (pack leftFiles) = .ok left.store.entries :=
  have described : (Pickle.load (dictionary 0x5B4DF073 (pushTensor "a" "0")).content).toOption.map
      Archive.layouts = some [("a", place "0")] := by decide +kernel
  Archive.tensors_pack (by decide +kernel) (by decide) (by decide +kernel) (by decide +kernel)
    described

theorem tensors_right : Archive.tensors (pack rightFiles) = .ok right.store.entries :=
  have described : (Pickle.load (dictionary 0xA8AFC39E (pushTensor "b" "0")).content).toOption.map
      Archive.layouts = some [("b", place "0")] := by decide +kernel
  Archive.tensors_pack (by decide +kernel) (by decide) (by decide +kernel) (by decide +kernel)
    described

theorem tensors_both : Archive.tensors (pack bothFiles) = .ok both.store.entries :=
  have described : (Pickle.load (dictionary 0xB97265D3
      (pushTensor "b" "1" ++ pushTensor "a" "0")).content).toOption.map Archive.layouts =
        some [("a", place "0"), ("b", place "1")] := by decide +kernel
  Archive.tensors_pack (by decide +kernel) (by decide) (by decide +kernel) (by decide +kernel)
    described

theorem both_store : both.store = ⟨left.store.entries ++ right.store.entries⟩ := by rfl

theorem distributes : Distributes both.store.find? [left.store.find?, right.store.find?] := by
  rw [both_store]
  refine distributes_append fun name => ?_
  by_cases a : name = "a"
  · subst a
    exact .inr rfl
  · have other : ("a" == name) = false := beq_false_of_ne (Ne.symm a)
    exact .inl (by simp [Header.store, left, Store.find?, other])

theorem usable_left : ∀ e ∈ left.store.entries, ∃ tensor, e.2 = .ok tensor :=
  List.forall_mem_singleton.2 ⟨_, rfl⟩

theorem usable_right : ∀ e ∈ right.store.entries, ∃ tensor, e.2 = .ok tensor :=
  List.forall_mem_singleton.2 ⟨_, rfl⟩

theorem usable_both : ∀ e ∈ both.store.entries, ∃ tensor, e.2 = .ok tensor := by
  rw [both_store]
  exact List.forall_mem_append.2 ⟨usable_left, usable_right⟩

def Answered (files whole : WeightFiles) : Prop :=
  ∃ sharded single, (load tree files).result = .ok sharded ∧
    (load tree whole).result = .ok single ∧
    sharded.get "a" [1] = .ok ⟨[1], [Float32.ofBits 0x3F800000]⟩ ∧
    sharded.get "b" [1] = .ok ⟨[1], [Float32.ofBits 0x40000000]⟩ ∧
    sharded.get "b" [2] = .error (.wrongShape "b" [2] [1]) ∧
    sharded.get "c" [1] = .error (.notFound "c") ∧
    ∀ name shape, sharded.get name shape = single.get name shape

end Halves

/-- In both formats, two files with a tensor each answer as the one with both. -/
theorem load_shards_of_halves :
    Halves.Answered (.safetensors ["/1.safetensors", "/2.safetensors"])
      (.safetensors ["/whole.safetensors"]) ∧
    Halves.Answered (.archives ["/1.bin", "/2.bin"]) (.archives ["/whole.bin"]) := by
  have answered (format : FileFormat) {shards : List String} {path : String}
      (held : List.Forall₂ (Holds Halves.tree format) shards
        [Halves.left.store.find?, Halves.right.store.find?])
      (whole : Holds Halves.tree format path Halves.both.store.find?) :
      Halves.Answered (format.files shards) (format.files [path]) := by
    obtain ⟨-, sharded, loaded, answers, together⟩ :=
      load_shards Halves.tree format shards _ held
    obtain ⟨single, alone, -, same, -⟩ := together path _ whole Halves.distributes
    obtain ⟨-, first, -⟩ := answers.present "a" ⟨[1], [Float32.ofBits 0x3F800000]⟩ rfl
    obtain ⟨-, second, shapes⟩ := answers.present "b" ⟨[1], [Float32.ofBits 0x40000000]⟩ rfl
    obtain ⟨-, absent⟩ := answers.absent "c" rfl
    exact ⟨sharded, single, loaded, alone, first, second, shapes [2] (by decide), absent [1], same⟩
  exact ⟨answered .safetensors
      (.cons (holds_of_parse rfl Halves.parse_left)
        (.cons (holds_of_parse rfl Halves.parse_right) .nil))
      (holds_of_parse rfl Halves.parse_both),
    answered .archive
      (.cons (holds_of_tensors rfl Halves.tensors_left Halves.usable_left)
        (.cons (holds_of_tensors rfl Halves.tensors_right Halves.usable_right) .nil))
      (holds_of_tensors rfl Halves.tensors_both Halves.usable_both)⟩

end Weights
end TextCompletion
