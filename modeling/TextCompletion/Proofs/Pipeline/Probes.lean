import TextCompletion.Proofs.Pipeline.Loading

/-!
What a loading function asks of the file tree. It asks whether something is at a path, for the
content of a file or for its head alone, and which tensor files a directory lists; what it asks next
depends on the answers. Main statements: two trees that answer these questions alike give the same
result, whatever else is in them.
-/

namespace TextCompletion

/-- What is found at a path in two trees is of the same kind, and files are related. Directories
hide what is in them. -/
inductive SameNode (related : Bytes → Bytes → Prop) :
    Except OsError FileNode → Except OsError FileNode → Prop
  | error (e : OsError) : SameNode related (.error e) (.error e)
  | directory (entries entries' : List (String × FileNode)) :
      SameNode related (.ok (.directory entries)) (.ok (.directory entries'))
  | file {content content' : Bytes} (same : related content content') :
      SameNode related (.ok (.file content)) (.ok (.file content'))

theorem SameNode.eq_or_directory {node node' : Except OsError FileNode}
    (same : SameNode Eq node node') :
    node' = node ∨ ∃ entries entries', node = .ok (.directory entries) ∧
      node' = .ok (.directory entries') := by
  cases same with
  | error e => exact .inl rfl
  | directory entries entries' => exact .inr ⟨entries, entries', rfl, rfl⟩
  | file same => exact .inl (same ▸ rfl)

namespace Weights.Header

/-- The head of a tensor file: the length of the document, and the document. -/
def headOf (file : Bytes) : Bytes := file.take (littleEndian (file.take 8) + 8)

/-- Files that differ in the bytes of their tensors at most. -/
structure SameHead (file file' : Bytes) : Prop where
  length : file.length = file'.length
  head : headOf file = headOf file'

end Weights.Header

def isTensorFile (name : String) : Prop := FilePath.extension? name = some "safetensors"

/-- A question about a file tree. -/
inductive Probe where
  | present (path : String)
  | content (path : String)
  /-- The head of a tensor file, and how long the file is. -/
  | head (path : String)
  /-- The names of tensor files in a directory. -/
  | listing (path : String)

namespace Probe

variable (t t' : FileTree)

def Same : Probe → Prop
  | present path => t.exists? path = t'.exists? path
  | content path => SameNode Eq (t.lookup path) (t'.lookup path)
  | head path => SameNode Weights.Header.SameHead (t.lookup path) (t'.lookup path)
  | listing path =>
    (∀ e, t.list path = .error e ↔ t'.list path = .error e) ∧
      ∀ names names', t.list path = .ok names → t'.list path = .ok names' →
        ∀ name, isTensorFile name → (name ∈ names ↔ name ∈ names')

def Agree (probes : List Probe) : Prop := ∀ p ∈ probes, p.Same t t'

variable {t t'}

@[simp] theorem agree_nil : Agree t t' [] := by simp [Agree]

@[simp] theorem agree_cons {p : Probe} {probes : List Probe} :
    Agree t t' (p :: probes) ↔ p.Same t t' ∧ Agree t t' probes := by
  simp [Agree]

theorem agree_present {path : String} {yes no : List Probe}
    (agree : Agree t t' (present path :: if t.exists? path then yes else no)) :
    t'.exists? path = t.exists? path ∧ (t.exists? path = true → Agree t t' yes) ∧
      (t.exists? path = false → Agree t t' no) := by
  obtain ⟨here, further⟩ := agree_cons.1 agree
  refine ⟨Eq.symm here, fun there => ?_, fun absent => ?_⟩
  · rwa [if_pos there] at further
  · rwa [absent, if_neg Bool.false_ne_true] at further

end Probe

/-- A list up to its first element with the property, that one included. -/
def upToFirst {α : Type} (p : α → Bool) : List α → List α
  | [] => []
  | a :: rest => a :: if p a then [] else upToFirst p rest

theorem upToFirst_of_false {α : Type} {p : α → Bool} {a : α} (passes : p a = false)
    (rest : List α) : upToFirst p (a :: rest) = a :: upToFirst p rest := by
  simp [upToFirst, passes]

/-- What a computation comes to, but for its value. -/
def settled {ε α : Type} (x : Except ε α) : Except ε Unit := x.map fun _ => ()

section

variable {ε α β : Type} {x : Except ε α} {e : ε}

@[simp] theorem settled_ok (a : α) : settled (.ok a : Except ε α) = .ok () := rfl

@[simp] theorem settled_error (e : ε) : settled (.error e : Except ε α) = .error e := rfl

@[simp] theorem settled_eq_ok : settled x = .ok () ↔ ∃ a, x = .ok a := by
  cases x <;> simp

@[simp] theorem settled_eq_error : settled x = .error e ↔ x = .error e := by
  cases x <;> simp

theorem settled_bind_pure (x : Except ε α) (f : α → β) :
    settled (x >>= fun a => pure (f a)) = settled x := by
  cases x <;> rfl

end

variable {t t' : FileTree} {path directory : String}

/-! Reading one file. -/

theorem read_congr (same : SameNode Eq (t.lookup path) (t'.lookup path)) :
    t'.read path = t.read path := by
  rcases same.eq_or_directory with same | ⟨_, _, here, there⟩
  · rw [FileTree.read, FileTree.read, same]
  · rw [FileTree.read, FileTree.read, here, there]
    rfl

theorem contentOf_congr (same : (Probe.content path).Same t t') :
    t'.contentOf path = t.contentOf path := by
  rw [FileTree.contentOf, FileTree.contentOf, read_congr same]

namespace ModelConfig

def probes (directory : String) : List Probe := [.content (FilePath.join directory fileName)]

theorem load_congr (agree : Probe.Agree t t' (probes directory)) :
    load t' directory = load t directory := by
  have same := contentOf_congr (Probe.agree_cons.1 agree).1
  simp only [load, same]

end ModelConfig

def optionalProbes (t : FileTree) (path : String) : List Probe :=
  .present path :: if t.exists? path then [.content path] else []

theorem optional_congr (agree : Probe.Agree t t' (optionalProbes t path)) :
    t'.exists? path = t.exists? path ∧ (t.exists? path = true → t'.read path = t.read path) := by
  obtain ⟨present, content, -⟩ := Probe.agree_present agree
  exact ⟨present, fun there => read_congr (Probe.agree_cons.1 (content there)).1⟩

namespace GenerationConfig

def probes (t : FileTree) (directory : String) : List Probe :=
  optionalProbes t (FilePath.join directory fileName)

theorem load_congr (agree : Probe.Agree t t' (probes t directory)) :
    load t' directory = load t directory := by
  obtain ⟨present, content⟩ := optional_congr agree
  simp only [load, present]
  split
  · rename_i there
    rw [FileTree.contentOf, FileTree.contentOf, content there]
  · rfl

end GenerationConfig

namespace Tokenizer

def probes (t : FileTree) (directory : String) : List Probe :=
  optionalProbes t (FilePath.join directory fileName)

theorem loadBy_congr {τ : Type} {make : Except OsError Bytes → Except Cause τ}
    (agree : Probe.Agree t t' (probes t directory)) :
    loadBy make t' directory = loadBy make t directory := by
  obtain ⟨present, content⟩ := optional_congr agree
  simp only [loadBy, present]
  cases there : t.exists? (FilePath.join directory fileName) with
  | false => rfl
  | true => rw [content there]

end Tokenizer

theorem Builder.make_congr {μ : Type} {b : Builder μ} {store : Weights.Store}
    (agree : Probe.Agree t t' (ModelConfig.probes directory)) :
    b.make t' directory store = b.make t directory store := by
  have same := contentOf_congr (Probe.agree_cons.1 agree).1
  simp only [make, Settings.load, same]

/-! Finding the weight files. -/

namespace WeightFiles

def indexNames (t : FileTree) (directory index : String) : Except Failure (List String) := do
  let path := FilePath.join directory index
  let members ← (Json.Reader.record indexSchema).ofFile path (← t.contentOf path)
  pure (Text.sortDistinct (lastValues members))

def shardProbes (t : FileTree) (directory : String) (names : List String) : List Probe :=
  (upToFirst (fun name => !t.exists? (FilePath.join directory name)) names).map fun name =>
    .present (FilePath.join directory name)

def indexProbes (t : FileTree) (directory index : String) : List Probe :=
  .content (FilePath.join directory index) ::
    match indexNames t directory index with
    | .ok names => shardProbes t directory names
    | .error _ => []

def archiveProbes (t : FileTree) (directory : String) : List Probe :=
  .present (FilePath.join directory archiveName) ::
    if t.exists? (FilePath.join directory archiveName) then []
    else
      .present (FilePath.join directory archiveIndexName) ::
        if t.exists? (FilePath.join directory archiveIndexName) then
          indexProbes t directory archiveIndexName
        else []

def probes (t : FileTree) (directory : String) : List Probe :=
  .present (FilePath.join directory safetensorsName) ::
    if t.exists? (FilePath.join directory safetensorsName) then []
    else
      .present (FilePath.join directory safetensorsIndexName) ::
        if t.exists? (FilePath.join directory safetensorsIndexName) then
          indexProbes t directory safetensorsIndexName
        else
          .listing directory ::
            match loose t directory with
            | .ok [] => archiveProbes t directory
            | _ => []

theorem ofIndex_eq (t : FileTree) (directory index : String) :
    ofIndex t directory index = indexNames t directory index >>= fun names =>
      if names = [] then .error (.of (.noShards index))
      else locateShards t directory index names := by
  unfold ofIndex indexNames
  simp only [bind_assoc, pure_bind]
  congr 2
  funext content
  congr 1
  funext members
  cases Text.sortDistinct (lastValues members) <;> rfl

theorem locateShards_congr {index : String} {names : List String}
    (agree : Probe.Agree t t' (shardProbes t directory names)) :
    locateShards t' directory index names = locateShards t directory index names := by
  induction names with
  | nil => rfl
  | cons name rest ih =>
    have present : t'.exists? (FilePath.join directory name) =
        t.exists? (FilePath.join directory name) := Eq.symm (Probe.agree_cons.1 agree).1
    simp only [locateShards, present]
    cases there : t.exists? (FilePath.join directory name) with
    | false => rfl
    | true =>
      rw [shardProbes, upToFirst_of_false (by rw [there]; rfl), List.map_cons] at agree
      rw [ih (Probe.agree_cons.1 agree).2]

theorem indexNames_congr {index : String}
    (same : (Probe.content (FilePath.join directory index)).Same t t') :
    indexNames t' directory index = indexNames t directory index := by
  simp only [indexNames, contentOf_congr same]

theorem ofIndex_congr {index : String}
    (agree : Probe.Agree t t' (indexProbes t directory index)) :
    ofIndex t' directory index = ofIndex t directory index := by
  obtain ⟨content, shards⟩ := Probe.agree_cons.1 agree
  rw [ofIndex_eq, ofIndex_eq, indexNames_congr content]
  cases listed : indexNames t directory index with
  | error f => rfl
  | ok names =>
    rw [listed] at shards
    show ite _ _ _ = ite _ _ _
    rw [locateShards_congr shards]

theorem loose_congr (same : (Probe.listing directory).Same t t') :
    loose t' directory = loose t directory := by
  obtain ⟨failing, names⟩ := same
  unfold loose
  cases listed : t.list directory with
  | error e => rw [(failing e).1 listed]
  | ok all =>
    cases listed' : t'.list directory with
    | error e => cases ((failing e).2 listed').symm.trans listed
    | ok all' =>
      have sorted :
          Text.sortDistinct (all.filter fun n => FilePath.extension? n == some "safetensors") =
            Text.sortDistinct
              (all'.filter fun n => FilePath.extension? n == some "safetensors") := by
        refine Text.sortDistinct_congr fun name => ?_
        simp only [List.mem_filter, beq_iff_eq]
        exact and_congr_left fun tensors => names all all' listed listed' name tensors
      simp only [accessing, bind, Except.bind, sorted]

def fromArchives (t : FileTree) (directory : String) : Except Failure WeightFiles :=
  if t.exists? (FilePath.join directory archiveName) then
    .ok (archives [FilePath.join directory archiveName])
  else if t.exists? (FilePath.join directory archiveIndexName) then
    archives <$> ofIndex t directory archiveIndexName
  else .error (.of (.noWeights directory))

theorem find_eq (t : FileTree) (directory : String) :
    find t directory =
      if t.exists? (FilePath.join directory safetensorsName) then
        .ok (safetensors [FilePath.join directory safetensorsName])
      else if t.exists? (FilePath.join directory safetensorsIndexName) then
        safetensors <$> ofIndex t directory safetensorsIndexName
      else loose t directory >>= fun paths =>
        if paths = [] then fromArchives t directory else .ok (safetensors paths) := by
  unfold find fromArchives
  dsimp only
  split
  · rfl
  split
  · rfl
  congr 1
  funext paths
  cases paths with
  | nil => rfl
  | cons path paths => rfl

theorem fromArchives_congr (agree : Probe.Agree t t' (archiveProbes t directory)) :
    fromArchives t' directory = fromArchives t directory := by
  obtain ⟨whole, -, further⟩ := Probe.agree_present agree
  rw [fromArchives, fromArchives, whole]
  cases there : t.exists? (FilePath.join directory archiveName) with
  | true => rfl
  | false =>
    obtain ⟨index, shards, -⟩ := Probe.agree_present (further there)
    rw [index]
    cases there : t.exists? (FilePath.join directory archiveIndexName) with
    | true => rw [ofIndex_congr (shards there)]
    | false => rfl

theorem find_congr (agree : Probe.Agree t t' (probes t directory)) :
    find t' directory = find t directory := by
  obtain ⟨whole, -, further⟩ := Probe.agree_present agree
  rw [find_eq, find_eq, whole]
  cases there : t.exists? (FilePath.join directory safetensorsName) with
  | true => rfl
  | false =>
    obtain ⟨index, shards, further⟩ := Probe.agree_present (further there)
    rw [index]
    cases there : t.exists? (FilePath.join directory safetensorsIndexName) with
    | true =>
      rw [ofIndex_congr (shards there)]
      rfl
    | false =>
      obtain ⟨listing, archives⟩ := Probe.agree_cons.1 (further there)
      rw [loose_congr listing]
      rcases listed : loose t directory with f | _ | ⟨path, paths⟩
      · rfl
      · rw [listed] at archives
        rw [fromArchives_congr archives]
        rfl
      · rfl

end WeightFiles

/-! Reading the weight files. -/

theorem mapM_congr {ε α β : Type} {f g : α → Except ε β} {as : List α}
    (same : ∀ a ∈ as, g a = f a) : as.mapM g = as.mapM f := by
  induction as with
  | nil => rfl
  | cons a rest ih =>
    obtain ⟨here, others⟩ := List.forall_mem_cons.1 same
    rw [List.mapM_cons, List.mapM_cons, here, ih others]

theorem settled_mapM_congr {ε α β : Type} {f g : α → Except ε β} {as : List α}
    (same : ∀ a ∈ upToFirst (fun a => !(f a).isOk) as, settled (g a) = settled (f a)) :
    settled (as.mapM g) = settled (as.mapM f) := by
  induction as with
  | nil => rfl
  | cons a rest ih =>
    have here : settled (g a) = settled (f a) := same a (List.mem_cons_self ..)
    rw [List.mapM_cons, List.mapM_cons]
    cases first : f a with
    | error e =>
      rw [first, settled_error, settled_eq_error] at here
      rw [here]
      rfl
    | ok b =>
      rw [first, settled_ok, settled_eq_ok] at here
      obtain ⟨b', here⟩ := here
      -- the element passes both times, though what it gives may differ
      rw [upToFirst_of_false (by rw [first]; rfl)] at same
      rw [here]
      show settled (rest.mapM g >>= fun bs => pure (b' :: bs)) =
        settled (rest.mapM f >>= fun bs => pure (b :: bs))
      rw [settled_bind_pure, settled_bind_pure]
      exact ih (List.forall_mem_cons.1 same).2

namespace Weights

namespace Header

variable {file file' : Bytes}

theorem SameHead.lead (same : SameHead file file') : file.take 8 = file'.take 8 := by
  have head := congrArg (List.take 8) same.head
  rwa [headOf, headOf, List.take_take, List.take_take, Nat.min_eq_left (Nat.le_add_left 8 _),
    Nat.min_eq_left (Nat.le_add_left 8 _)] at head

theorem SameHead.document (same : SameHead file file') :
    (file.drop 8).take (littleEndian (file.take 8)) =
      (file'.drop 8).take (littleEndian (file.take 8)) := by
  have head := congrArg (List.drop 8) same.head
  rwa [headOf, headOf, ← same.lead, List.drop_take, List.drop_take, Nat.add_sub_cancel] at head

/-- Whether a header can be read is settled by the head and the length of its file. -/
theorem SameHead.parse (same : SameHead file file') :
    settled (Header.parse file') = settled (Header.parse file) := by
  have tail : ((file'.drop 8).drop (littleEndian (file.take 8))).length =
      ((file.drop 8).drop (littleEndian (file.take 8))).length := by
    simp only [List.length_drop, same.length]
  unfold Header.parse
  dsimp only
  rw [← same.length, ← same.lead, ← same.document]
  by_cases small : file.length < 8
  · simp only [small, ↓reduceIte]
    rfl
  by_cases large : maxLength < littleEndian (file.take 8)
  · simp only [small, large, ↓reduceIte]
    rfl
  by_cases beyond : file.length < littleEndian (file.take 8) + 8
  · simp only [small, large, beyond, ↓reduceIte]
    rfl
  simp only [small, large, beyond, ↓reduceIte]
  generalize (file.drop 8).take (littleEndian (file.take 8)) = document
  generalize (file.drop 8).drop (littleEndian (file.take 8)) = content at tail ⊢
  generalize (file'.drop 8).drop (littleEndian (file.take 8)) = content' at tail ⊢
  cases (Text.Utf8.decode? document).isNone with
  | true => rfl
  | false =>
    rcases (Json.parse document).toOption.bind tensors? with _ | tensors
    · rfl
    cases counted : check 0 (tensors.mergeSort TensorInfo.startsBefore) with
    | error f =>
      simp only [Bool.false_eq_true, ↓reduceIte, counted]
      rfl
    | ok count =>
      simp only [Bool.false_eq_true, ↓reduceIte, counted]
      show settled (ite _ _ _) = settled (ite _ _ _)
      rw [tail]
      split <;> rfl

end Header

theorem settled_inspect (same : SameNode Header.SameHead (t.lookup path) (t'.lookup path)) :
    settled (inspect t' path) = settled (inspect t path) := by
  unfold inspect
  generalize t.lookup path = node at same
  generalize t'.lookup path = node' at same
  cases same with
  | error e => rfl
  | directory _ _ => rfl
  | @file content content' same =>
    simp only [accessing, bind, Except.bind]
    have parsed := same.parse
    cases first : Header.parse content with
    | error f =>
      rw [first, settled_error, settled_eq_error] at parsed
      rw [parsed]
    | ok h =>
      rw [first, settled_ok, settled_eq_ok] at parsed
      obtain ⟨h', parsed⟩ := parsed
      rw [parsed]
      rfl

theorem inspect_congr (same : SameNode Eq (t.lookup path) (t'.lookup path)) :
    inspect t' path = inspect t path := by
  rcases same.eq_or_directory with same | ⟨_, _, here, there⟩
  · rw [inspect, inspect, same]
  · rw [inspect, inspect, here, there]
    rfl

theorem readArchive_congr (same : SameNode Eq (t.lookup path) (t'.lookup path)) :
    readArchive t' path = readArchive t path := by
  rcases same.eq_or_directory with same | ⟨_, _, here, there⟩
  · rw [readArchive, readArchive, same]
  · rw [readArchive, readArchive, here, there]
    rfl

theorem readWholeArchive_congr (same : SameNode Eq (t.lookup path) (t'.lookup path)) :
    readWholeArchive t' path = readWholeArchive t path := by
  rw [readWholeArchive, readWholeArchive, readArchive_congr same]

/-- Of tensor files only the heads are read before the model is built. Several files are read up to
the first one that fails. -/
def probes (t : FileTree) : WeightFiles → List Probe
  | .safetensors paths => (upToFirst (fun path => !(inspect t path).isOk) paths).map .head
  | .archives [path] => [.content path]
  | .archives paths => (upToFirst (fun path => !(readWholeArchive t path).isOk) paths).map .content

theorem settled_load_safetensors (t : FileTree) (paths : List String) :
    settled (load t (.safetensors paths)).result = settled (paths.mapM (inspect t)) := by
  simp only [load, Logged.result_bind, Logged.result_lift, Logged.result_report,
    Logged.result_pure]
  cases paths.mapM (inspect t) <;> rfl

theorem settled_load_archives (t : FileTree) (first second : String) (rest : List String) :
    settled (load t (.archives (first :: second :: rest))).result =
      settled ((first :: second :: rest).mapM (readWholeArchive t)) := by
  simp only [load, Logged.result_bind, Logged.result_lift, Logged.result_report,
    Logged.result_pure]
  cases (first :: second :: rest).mapM (readWholeArchive t) <;> rfl

theorem settled_load_congr {files : WeightFiles} (agree : Probe.Agree t t' (probes t files)) :
    settled (load t' files).result = settled (load t files).result := by
  rcases files with paths | _ | ⟨first, _ | ⟨second, rest⟩⟩
  · rw [settled_load_safetensors, settled_load_safetensors]
    exact settled_mapM_congr fun path member =>
      settled_inspect (agree (.head path) (List.mem_map_of_mem member))
  · rfl
  · simp only [load, readArchive_congr (Probe.agree_cons.1 agree).1]
  · rw [settled_load_archives, settled_load_archives]
    refine settled_mapM_congr fun path member => ?_
    rw [readWholeArchive_congr (agree (.content path) (List.mem_map_of_mem member))]

/-- The content of all weight files settles the store. -/
theorem load_congr {files : WeightFiles}
    (agree : Probe.Agree t t' (files.paths.map .content)) : load t' files = load t files := by
  have same : ∀ path ∈ files.paths, SameNode Eq (t.lookup path) (t'.lookup path) :=
    fun path member => agree (.content path) (List.mem_map_of_mem member)
  rcases files with paths | _ | ⟨first, _ | ⟨second, rest⟩⟩
  · have each : paths.mapM (inspect t') = paths.mapM (inspect t) :=
      mapM_congr fun path member => inspect_congr (same path member)
    simp only [load, each]
  · rfl
  · simp only [load, readArchive_congr (same first (List.mem_singleton_self first))]
  · have each : (first :: second :: rest).mapM (readWholeArchive t') =
        (first :: second :: rest).mapM (readWholeArchive t) :=
      mapM_congr fun path member => readWholeArchive_congr (same path member)
    simp only [load, each]

end Weights
end TextCompletion
