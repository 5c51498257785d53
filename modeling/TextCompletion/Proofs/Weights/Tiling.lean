import TextCompletion.Proofs.Pipeline.Probes
import TextCompletion.Proofs.Weights.Shards
import Mathlib.Algebra.BigOperators.Group.List.Basic

/-!
What the header of a tensor file accounts for. In a file that is accepted every byte belongs to the
length, to the document or to exactly one tensor, and the ranges of the tensors are as long as their
shapes and types say. Main statement: no accepted file begins another one, so every truncation and
every extension is refused, and the first file that is refused ends the loading and is named.
-/

namespace TextCompletion.Weights

namespace Header

/-- Ranges that follow each other from one byte to another. -/
inductive Tiles : Nat → List (String × TensorInfo) → Nat → Prop
  | nil (stop : Nat) : Tiles stop [] stop
  | cons {name : String} {info : TensorInfo} {rest : List (String × TensorInfo)}
      {start stop : Nat} (begins : info.first = start) (forward : info.first ≤ info.last)
      (others : Tiles info.last rest stop) : Tiles start ((name, info) :: rest) stop

/-- A range of as many bytes as there are elements of the type in the shape. No product on the way
exceeds 64 bits. -/
structure Fits (info : TensorInfo) : Prop where
  steps : ∀ dims, dims <+: info.shape → dims.prod < 2 ^ 64
  total : info.shape.prod * info.type.size < 2 ^ 64
  length : info.last - info.first = info.shape.prod * info.type.size

section

variable {start stop i : Nat} {tensors : List (String × TensorInfo)}

theorem Tiles.bounds (tiles : Tiles start tensors stop) :
    start ≤ stop ∧ ∀ tensor ∈ tensors, start ≤ tensor.2.first ∧ tensor.2.last ≤ stop := by
  induction tiles with
  | nil => simp
  | @cons name info rest start stop begins forward _ ih =>
    subst begins
    obtain ⟨further, inside⟩ := ih
    refine ⟨forward.trans further, List.forall_mem_cons.2 ⟨⟨Nat.le_refl _, further⟩, ?_⟩⟩
    exact fun tensor member => ⟨forward.trans (inside tensor member).1, (inside tensor member).2⟩

/-- Every byte is in the range of exactly one tensor. -/
theorem Tiles.existsUnique (tiles : Tiles start tensors stop) (low : start ≤ i) (high : i < stop) :
    ∃! tensor, tensor ∈ tensors ∧ tensor.2.first ≤ i ∧ i < tensor.2.last := by
  induction tiles with
  | nil => omega
  | @cons name info rest start stop begins forward others ih =>
    subst begins
    by_cases here : i < info.last
    · refine ⟨(name, info), ⟨List.mem_cons_self, low, here⟩, ?_⟩
      rintro tensor ⟨member, begun, -⟩
      rcases List.mem_cons.1 member with same | later
      · exact same
      · have after := (others.bounds.2 tensor later).1
        omega
    · obtain ⟨tensor, ⟨member, inside⟩, unique⟩ := ih (Nat.not_lt.1 here) high
      refine ⟨tensor, ⟨List.mem_cons_of_mem _ member, inside⟩, ?_⟩
      rintro other ⟨member', inside'⟩
      rcases List.mem_cons.1 member' with rfl | later
      · exact absurd inside'.2 here
      · exact unique other ⟨later, inside'⟩

end

theorem product?_eq_some_iff {n m : Nat} {dims : List Nat} (fits : n < 2 ^ 64) :
    product? n dims = some m ↔
      (∀ front, front <+: dims → n * front.prod < 2 ^ 64) ∧ m = n * dims.prod := by
  induction dims generalizing n with
  | nil => simpa [product?, eq_comm] using fun _ => fits
  | cons k dims ih =>
    -- the fronts are the empty one, and those of the rest with the first dimension put before
    have fronts : (∀ front, front <+: k :: dims → n * front.prod < 2 ^ 64) ↔
        ∀ front, front <+: dims → n * k * front.prod < 2 ^ 64 := by
      constructor
      · intro small front start
        have longer := small (k :: front) ((List.prefix_cons_inj k).2 start)
        rwa [List.prod_cons, ← Nat.mul_assoc] at longer
      · intro small front start
        rcases List.prefix_cons_iff.1 start with rfl | ⟨others, rfl, before⟩
        · simpa using fits
        · rw [List.prod_cons, ← Nat.mul_assoc]
          exact small others before
    rw [fronts, List.prod_cons, ← Nat.mul_assoc, product?]
    split
    · rename_i next
      exact ih next
    · rename_i large
      constructor
      · nofun
      · rintro ⟨small, -⟩
        have first := small [] List.nil_prefix
        rw [List.prod_nil, Nat.mul_one] at first
        exact absurd first large

theorem bytes_eq_some_iff {info : TensorInfo} {m : Nat} :
    ((product? 1 info.shape).bind fun n => product? n [info.type.size]) = some m ↔
      (∀ dims, dims <+: info.shape → dims.prod < 2 ^ 64) ∧
        info.shape.prod * info.type.size < 2 ^ 64 ∧ m = info.shape.prod * info.type.size := by
  have single (n : Nat) : product? n [info.type.size] = some m ↔
      n * info.type.size < 2 ^ 64 ∧ m = n * info.type.size := by
    have step : product? n [info.type.size] =
        if n * info.type.size < 2 ^ 64 then some (n * info.type.size) else none := rfl
    rw [step]
    split <;> simp_all [eq_comm]
  have whole (n : Nat) : product? 1 info.shape = some n ↔
      (∀ dims, dims <+: info.shape → dims.prod < 2 ^ 64) ∧ n = info.shape.prod := by
    simpa only [Nat.one_mul] using product?_eq_some_iff (show 1 < 2 ^ 64 by decide)
  rw [Option.bind_eq_some_iff]
  constructor
  · rintro ⟨n, elements, bytes⟩
    obtain ⟨steps, rfl⟩ := (whole n).1 elements
    exact ⟨steps, (single _).1 bytes⟩
  · rintro ⟨steps, bytes⟩
    exact ⟨_, (whole _).2 ⟨steps, rfl⟩, (single _).2 bytes⟩

theorem check_eq_ok_iff {start stop : Nat} {tensors : List (String × TensorInfo)} :
    check start tensors = .ok stop ↔
      Tiles start tensors stop ∧ ∀ tensor ∈ tensors, Fits tensor.2 := by
  induction tensors generalizing start with
  | nil =>
    constructor
    · rintro ⟨rfl⟩
      exact ⟨.nil _, by simp⟩
    · rintro ⟨tiles, -⟩
      cases tiles
      rfl
  | cons tensor tensors ih =>
    obtain ⟨name, info⟩ := tensor
    rw [List.forall_mem_cons, check]
    constructor
    · intro passed
      split at passed
      · cases passed
      rename_i placed
      split at passed
      · cases passed
      rename_i bytes counted
      split at passed
      · cases passed
      rename_i length
      obtain ⟨steps, total, rfl⟩ := bytes_eq_some_iff.1 counted
      obtain ⟨others, fit⟩ := ih.1 passed
      have begins : info.first = start ∧ info.first ≤ info.last := by omega
      exact ⟨.cons begins.1 begins.2 others, ⟨steps, total, not_not.1 length⟩, fit⟩
    · rintro ⟨tiles, ⟨steps, total, length⟩, fit⟩
      cases tiles with
      | cons begins forward others =>
        have placed : ¬ (info.first ≠ start ∨ info.last < info.first) := by omega
        rw [if_neg placed, bytes_eq_some_iff.2 ⟨steps, total, rfl⟩]
        dsimp only
        rw [if_neg (not_not.2 length), ih]
        exact ⟨others, fit⟩

section

variable {infos : List (String × TensorInfo)} {name : String}

theorem mem_names_lastMembers :
    name ∈ (lastMembers infos).map Prod.fst ↔ name ∈ infos.map Prod.fst := by
  induction infos with
  | nil => rfl
  | cons m infos ih =>
    rw [lastMembers]
    split
    · rename_i later
      obtain ⟨n, member, same⟩ := List.any_eq_true.1 later
      rw [ih, List.map_cons, List.mem_cons, iff_or_self]
      rintro rfl
      exact List.mem_map.2 ⟨n, member, eq_of_beq same⟩
    · rw [List.map_cons, List.map_cons, List.mem_cons, List.mem_cons, ih]

theorem mem_of_mem_lastMembers {tensor : String × TensorInfo}
    (member : tensor ∈ lastMembers infos) : tensor ∈ infos := by
  induction infos with
  | nil => exact member
  | cons m infos ih =>
    rw [lastMembers] at member
    split at member
    · exact List.mem_cons_of_mem _ (ih member)
    · rcases List.mem_cons.1 member with rfl | member
      · exact List.mem_cons_self
      · exact List.mem_cons_of_mem _ (ih member)

theorem nodup_names_lastMembers : ((lastMembers infos).map Prod.fst).Nodup := by
  induction infos with
  | nil => exact List.nodup_nil
  | cons m infos ih =>
    rw [lastMembers]
    split
    · exact ih
    · rename_i last
      rw [List.map_cons, List.nodup_cons, mem_names_lastMembers]
      refine ⟨fun later => last ?_, ih⟩
      obtain ⟨n, member, same⟩ := List.mem_map.1 later
      exact List.any_eq_true.2 ⟨n, member, beq_of_eq same⟩

end

def Tells (m : String × Json) (tensor : String × TensorInfo) : Prop :=
  m.1 = tensor.1 ∧ info? m.2 = some tensor.2

section

variable {members : List (String × Json)} {infos : List (String × TensorInfo)}

theorem tells_of_mapM (read : (members.mapM fun m => do pure (m.1, ← info? m.2)) = some infos) :
    List.Forall₂ Tells members infos := by
  induction members generalizing infos with
  | nil => cases read; exact .nil
  | cons m members ih =>
    rw [List.mapM_cons] at read
    simp only [Option.bind_eq_bind, Option.pure_def, Option.bind_eq_some_iff,
      Option.some.injEq] at read
    obtain ⟨_, ⟨info, told, rfl⟩, rest, others, rfl⟩ := read
    exact .cons ⟨rfl, told⟩ (ih others)

theorem names_of_tells (each : List.Forall₂ Tells members infos) :
    infos.map Prod.fst = members.map Prod.fst := by
  induction each with
  | nil => rfl
  | cons tells _ ih => rw [List.map_cons, List.map_cons, tells.1, ih]

theorem exists_member_of_tells (each : List.Forall₂ Tells members infos) :
    ∀ tensor ∈ infos, ∃ v, (tensor.1, v) ∈ members ∧ info? v = some tensor.2 := by
  induction each with
  | nil => nofun
  | @cons m tensor members infos tells _ ih =>
    obtain ⟨name, v⟩ := m
    obtain ⟨rfl, told⟩ := tells
    refine List.forall_mem_cons.2 ⟨⟨v, List.mem_cons_self, told⟩, fun other later => ?_⟩
    obtain ⟨w, member, told⟩ := ih other later
    exact ⟨w, List.mem_cons_of_mem _ member, told⟩

end

/-- What the members of a header document say: each is a tensor, but for the notes. -/
structure Describes (members : List (String × Json)) (tensors : List (String × TensorInfo)) :
    Prop where
  names : ∀ name, name ∈ tensors.map Prod.fst ↔ name ∈ members.map Prod.fst ∧ name ≠ notesKey
  distinct : (tensors.map Prod.fst).Nodup
  told : ∀ tensor ∈ tensors, ∃ v, (tensor.1, v) ∈ members ∧ info? v = some tensor.2

theorem Describes.perm {members : List (String × Json)}
    {tensors tensors' : List (String × TensorInfo)} (describes : Describes members tensors)
    (perm : tensors'.Perm tensors) : Describes members tensors' where
  names name := by rw [(perm.map Prod.fst).mem_iff, describes.names]
  distinct := (perm.map Prod.fst).nodup_iff.2 describes.distinct
  told tensor member := describes.told tensor (perm.mem_iff.1 member)

theorem describes_of_tensors? {document : Json} {tensors : List (String × TensorInfo)}
    (described : tensors? document = some tensors) :
    ∃ members, document = .object members ∧ Describes members tensors := by
  cases document with
  | object members =>
    rw [tensors?] at described
    obtain ⟨-, -, described⟩ := Option.bind_eq_some_iff.1 described
    obtain ⟨infos, read, rfl⟩ := bind_pure_eq_some.1 described
    have each := tells_of_mapM read
    refine ⟨members, rfl, fun name => ?_, nodup_names_lastMembers, fun tensor member => ?_⟩
    · rw [mem_names_lastMembers, names_of_tells each, List.mem_map, List.mem_map]
      constructor
      · rintro ⟨m, member, rfl⟩
        obtain ⟨member, other⟩ := List.mem_filter.1 member
        exact ⟨⟨m, member, rfl⟩, by simpa using other⟩
      · rintro ⟨⟨m, member, rfl⟩, other⟩
        exact ⟨m, List.mem_filter.2 ⟨member, by simpa using other⟩, rfl⟩
    · obtain ⟨v, kept, told⟩ :=
        exists_member_of_tells each tensor (mem_of_mem_lastMembers member)
      exact ⟨v, (List.mem_filter.1 kept).1, told⟩
  | _ => cases described

theorem layout_of_parse {file : Bytes} {h : Header} (parsed : parse file = .ok h) :
    ∃ lead document tensors, file = lead ++ (document ++ h.content) ∧ lead.length = 8 ∧
      littleEndian lead = document.length ∧
      (Json.parse document).toOption.bind tensors? = some tensors ∧
      h.tensors = tensors.mergeSort TensorInfo.startsBefore ∧
      check 0 h.tensors = .ok h.content.length := by
  unfold parse at parsed
  dsimp only at parsed
  by_cases small : file.length < 8
  · rw [if_pos small] at parsed
    cases parsed
  by_cases large : maxLength < littleEndian (file.take 8)
  · rw [if_neg small, if_pos large] at parsed
    cases parsed
  by_cases beyond : file.length < littleEndian (file.take 8) + 8
  · rw [if_neg small, if_neg large, if_pos beyond] at parsed
    cases parsed
  rw [if_neg small, if_neg large, if_neg beyond] at parsed
  -- what is left are the document's text, its tensors, and the bytes that these take
  split at parsed
  · cases parsed
  split at parsed
  · cases parsed
  rename_i tensors described
  obtain ⟨stop, counted, finished⟩ := bind_eq_ok.1 parsed
  split at finished
  · cases finished
  rename_i whole
  obtain rfl := Except.ok.inj finished
  refine ⟨file.take 8, (file.drop 8).take (littleEndian (file.take 8)), tensors, ?_, ?_, ?_,
    described, rfl, ?_⟩
  · rw [List.take_append_drop, List.take_append_drop]
  · rw [List.length_take]
    omega
  · rw [List.length_take, List.length_drop]
    omega
  · rwa [not_not.1 whole] at counted

/-- What a header accounts for. -/
structure Accounts (file : Bytes) (h : Header) : Prop where
  layout : ∃ lead document members, file = lead ++ (document ++ h.content) ∧ lead.length = 8 ∧
    littleEndian lead = document.length ∧ Json.parse document = .ok (.object members) ∧
    Describes members h.tensors
  tiled : Tiles 0 h.tensors h.content.length
  each : ∀ i < h.content.length,
    ∃! tensor, tensor ∈ h.tensors ∧ tensor.2.first ≤ i ∧ i < tensor.2.last
  fits : ∀ tensor ∈ h.tensors, Fits tensor.2

theorem accounts_of_parse {file : Bytes} {h : Header} (parsed : parse file = .ok h) :
    Accounts file h := by
  obtain ⟨lead, document, tensors, whole, words, counts, described, sorted, counted⟩ :=
    layout_of_parse parsed
  obtain ⟨tiled, fits⟩ := check_eq_ok_iff.1 counted
  obtain ⟨json, read, described⟩ := Option.bind_eq_some_iff.1 described
  obtain ⟨members, rfl, describes⟩ := describes_of_tensors? described
  have perm : h.tensors.Perm tensors := sorted ▸ List.mergeSort_perm _ _
  refine ⟨⟨lead, document, members, whole, words, counts, ?_, describes.perm perm⟩, tiled,
    fun i inside => tiled.existsUnique (Nat.zero_le i) inside, fits⟩
  cases parsed : Json.parse document with
  | error f => simp [parsed, Except.toOption] at read
  | ok json => simpa [parsed, Except.toOption] using read

/-- No accepted file begins another one: the document says where the file ends. -/
theorem eq_of_begins {file file' : Bytes} {h h' : Header} (parsed : parse file = .ok h)
    (parsed' : parse file' = .ok h') (begins : file <+: file') : file = file' := by
  obtain ⟨lead, document, tensors, rfl, words, counts, described, sorted, counted⟩ :=
    layout_of_parse parsed
  obtain ⟨lead', document', tensors', rfl, words', counts', described', sorted', counted'⟩ :=
    layout_of_parse parsed'
  obtain ⟨more, same⟩ := begins
  rw [List.append_assoc, List.append_assoc] at same
  -- the lead tells the length of the document, and the document that of the content
  obtain ⟨rfl, rest⟩ := List.append_inj same (words.trans words'.symm)
  obtain ⟨rfl, ends⟩ := List.append_inj rest (counts.symm.trans counts')
  obtain rfl := Option.some.inj (described.symm.trans described')
  have length : h.content.length = h'.content.length := by
    rw [sorted] at counted
    rw [sorted'] at counted'
    exact Except.ok.inj (counted.symm.trans counted')
  obtain rfl : more = [] := by
    have lengths := congrArg List.length ends
    rw [List.length_append] at lengths
    exact List.length_eq_zero_iff.1 (by omega)
  rw [← ends, List.append_nil]

theorem refused_of_longer {file more : Bytes} {h : Header} (parsed : parse file = .ok h)
    (some : more ≠ []) : ∃ f, parse (file ++ more) = .error f := by
  cases longer : parse (file ++ more) with
  | error f => exact ⟨f, rfl⟩
  | ok h' =>
    have same := eq_of_begins parsed longer (List.prefix_append file more)
    exact absurd (List.append_right_eq_self.1 same.symm) some

theorem refused_of_shorter {file : Bytes} {h : Header} {k : Nat} (parsed : parse file = .ok h)
    (shorter : k < file.length) : ∃ f, parse (file.take k) = .error f := by
  cases begun : parse (file.take k) with
  | error f => exact ⟨f, rfl⟩
  | ok h' =>
    have same := congrArg List.length (eq_of_begins begun parsed (List.take_prefix k file))
    rw [List.length_take] at same
    omega

end Header

variable {t : FileTree} {path : String} {paths : List String} {f : Failure} {h : Header}

/-- What is told of a file that is refused. -/
inductive Rejects (t : FileTree) (path : String) : Failure → Prop
  | unopened {e : OsError} (fails : t.lookup path = .error e) :
      Rejects t path ⟨[.openFile path], .os e⟩
  | unmapped {entries : List (String × FileNode)}
      (found : t.lookup path = .ok (.directory entries)) :
      Rejects t path ⟨[.mapFile path], .os .noDevice⟩
  | corrupt {file : Bytes} {fault : HeaderFault} (found : t.lookup path = .ok (.file file))
      (fails : Header.parse file = .error fault) :
      Rejects t path ⟨[.readHeader path], .header fault⟩

theorem Rejects.inspect (rejects : Rejects t path f) : Weights.inspect t path = .error f := by
  cases rejects with
  | unopened fails => rw [Weights.inspect, fails]; rfl
  | unmapped found => rw [Weights.inspect, found]; rfl
  | corrupt found fails =>
    rw [Weights.inspect, found]
    simp only [accessing, bind, Except.bind, fails]

theorem inspect_cases (t : FileTree) (path : String) :
    (∃ file h, t.lookup path = .ok (.file file) ∧ Header.parse file = .ok h) ∨
      ∃ f, Rejects t path f := by
  cases found : t.lookup path with
  | error e => exact .inr ⟨_, .unopened found⟩
  | ok node =>
    cases node with
    | directory entries => exact .inr ⟨_, .unmapped found⟩
    | file file =>
      cases parsed : Header.parse file with
      | error fault => exact .inr ⟨_, .corrupt found parsed⟩
      | ok h => exact .inl ⟨file, h, rfl, parsed⟩

theorem inspect_eq_ok_iff : inspect t path = .ok h ↔
    ∃ file, t.lookup path = .ok (.file file) ∧ Header.parse file = .ok h := by
  refine ⟨fun inspected => ?_, fun ⟨file, found, parsed⟩ => inspect_of_parse found parsed⟩
  rcases inspect_cases t path with ⟨file, h', found, parsed⟩ | ⟨f, rejects⟩
  · obtain rfl := eq_of_eq_ok (inspect_of_parse found parsed) inspected
    exact ⟨file, found, parsed⟩
  · cases rejects.inspect.symm.trans inspected

theorem inspect_eq_error_iff : inspect t path = .error f ↔ Rejects t path f := by
  refine ⟨fun fails => ?_, Rejects.inspect⟩
  rcases inspect_cases t path with ⟨file, h', found, parsed⟩ | ⟨f', rejects⟩
  · cases (inspect_of_parse found parsed).symm.trans fails
  · obtain rfl := Except.error.inj (rejects.inspect.symm.trans fails)
    exact rejects

theorem Rejects.message (rejects : Rejects t path f) : ∃ verb ∈ ["open ", "mmap ", "deserialize "],
    ∃ reason, f.message = verb ++ Text.quote path ++ ": " ++ reason := by
  have told (s : Step) (cause : Cause) :
      (⟨[s], cause⟩ : Failure).message = s.message ++ ": " ++ cause.message := by
    simp [Failure.message, Failure.lines]
  cases rejects with
  | unopened => exact ⟨"open ", by simp, _, told _ _⟩
  | unmapped => exact ⟨"mmap ", by simp, _, told _ _⟩
  | corrupt => exact ⟨"deserialize ", by simp, _, told _ _⟩

theorem load_eq_error_iff : (load t (.safetensors paths)).result = .error f ↔
    ∃ before path after, paths = before ++ path :: after ∧
      (∀ earlier ∈ before, ∃ h, inspect t earlier = .ok h) ∧ Rejects t path f := by
  rw [← settled_eq_error, settled_load_safetensors, settled_eq_error, mapM_eq_error]
  simp only [inspect_eq_error_iff]

/-- A tensor file is accepted only if its header accounts for every byte, so none that was cut short
or lengthened is; and the first file of a list that is refused ends the loading and is named. -/
theorem inspect_accounts :
    (∀ t path h, inspect t path = .ok h →
      ∃ file, t.lookup path = .ok (.file file) ∧ Header.parse file = .ok h) ∧
    (∀ file h, Header.parse file = .ok h → Header.Accounts file h ∧
      (∀ more, more ≠ [] → ∃ f, Header.parse (file ++ more) = .error f) ∧
      ∀ k < file.length, ∃ f, Header.parse (file.take k) = .error f) ∧
    ∀ t paths, (∃ path ∈ paths, ∃ f, inspect t path = .error f) →
      ∃ before path after f, paths = before ++ path :: after ∧
        (∀ earlier ∈ before, ∃ h, inspect t earlier = .ok h) ∧ inspect t path = .error f ∧
        (load t (.safetensors paths)).result = .error f ∧
        ∃ verb ∈ ["open ", "mmap ", "deserialize "], ∃ reason,
          f.message = verb ++ Text.quote path ++ ": " ++ reason := by
  refine ⟨fun t path h inspected => inspect_eq_ok_iff.1 inspected, fun file h parsed =>
    ⟨Header.accounts_of_parse parsed, fun more some => Header.refused_of_longer parsed some,
      fun k shorter => Header.refused_of_shorter parsed shorter⟩, ?_⟩
  rintro t paths ⟨refused, member, f, fails⟩
  cases worked : paths.mapM (inspect t) with
  | ok headers =>
    obtain ⟨h, accepted⟩ := exists_ok_of_mapM_eq_ok worked member
    cases accepted.symm.trans fails
  | error f' =>
    obtain ⟨before, path, after, whole, accepted, fails'⟩ := mapM_eq_error.1 worked
    have rejects := inspect_eq_error_iff.1 fails'
    exact ⟨before, path, after, f', whole, accepted, fails',
      load_eq_error_iff.2 ⟨before, path, after, whole, accepted, rejects⟩, rejects.message⟩

/-- A file with two tensors is accounted for, and refused without its last byte. -/
theorem inspect_accounts_both : Header.Accounts Halves.bothFile Halves.both ∧
    ∃ f, Header.parse (Halves.bothFile.take (Halves.bothFile.length - 1)) = .error f := by
  obtain ⟨-, accounts, -⟩ := inspect_accounts
  obtain ⟨accounts, -, shorter⟩ := accounts _ _ Halves.parse_both
  exact ⟨accounts, shorter _ (by decide +kernel)⟩

end TextCompletion.Weights
