import TextCompletion.FileTree
import Mathlib.Data.List.Basic

/-!
Places in a file tree. Every entry has a place, the names on the way to it from the root, and the
parts of a path lead from place to place whatever the tree holds. Main statements: a path leads to
something exactly if the places before its last one are directories and something is at the last;
and a look-up gives what is at the place, so it depends on nothing that is not on the way.
-/

namespace TextCompletion

/-- The names on the way to an entry from the root. -/
abbrev Place := List String

inductive EntryKind where
  | file (content : Bytes)
  | directory
  deriving DecidableEq

namespace FileNode

def kind : FileNode → EntryKind
  | file content => .file content
  | directory _ => .directory

def child? : FileNode → String → Option FileNode
  | file _, _ => none
  | directory entries, name => (entries.find? fun e => e.1 == name).map Prod.snd

def at? (node : FileNode) (p : Place) : Option FileNode := p.foldlM child? node

@[simp] theorem at?_nil (node : FileNode) : node.at? [] = some node := rfl

@[simp] theorem at?_concat (node : FileNode) (p : Place) (name : String) :
    node.at? (p ++ [name]) = (node.at? p).bind fun n => n.child? name := by
  simp [at?, List.foldlM_append]

theorem mem_entries_iff {entries : List (String × FileNode)} {name : String} :
    name ∈ entries.map Prod.fst ↔ ((directory entries).child? name).isSome := by
  simp [child?]

end FileNode

namespace FilePath

def onward (here : Place) (part : String) : Place :=
  if part = "" ∨ part = "." then here else if part = ".." then here.dropLast else here ++ [part]

/-- A part that is the name of an entry. -/
structure IsName (part : String) : Prop where
  whole : '/' ∉ part.toList
  nonempty : part ≠ ""
  other : part ≠ "."
  down : part ≠ ".."

theorem onward_of_isName {part : String} (name : IsName part) (here : Place) :
    onward here part = here ++ [part] := by
  simp [onward, name.nonempty, name.other, name.down]

theorem parts_append_slash (cs ds current : List Char) :
    parts (cs ++ '/' :: ds) current = parts cs current ++ parts ds [] := by
  induction cs generalizing current with
  | nil => simp [parts]
  | cons c cs ih =>
    simp only [List.cons_append, parts]
    split
    · rw [ih, List.cons_append]
    · rw [ih]

theorem parts_of_whole {cs : List Char} (whole : '/' ∉ cs) (current : List Char) :
    parts cs current = [String.ofList (current.reverse ++ cs)] := by
  induction cs generalizing current with
  | nil => simp [parts]
  | cons c cs ih =>
    simp only [List.mem_cons, not_or] at whole
    rw [parts, if_neg (Ne.symm whole.1), ih whole.2]
    simp

theorem parts_ne_nil (cs current : List Char) : parts cs current ≠ [] := by
  induction cs generalizing current with
  | nil => simp [parts]
  | cons c cs ih =>
    rw [parts]
    split
    · exact List.cons_ne_nil _ _
    · exact ih _

end FilePath

namespace FileTree

open FilePath

def kind? (t : FileTree) (p : Place) : Option EntryKind := (t.root.at? p).map FileNode.kind

/-- The place that some parts lead to, where it is known what is at each place. -/
def walk (kinds : Place → Option EntryKind) : Place → List String → Except OsError Place
  | here, [] => .ok here
  | here, part :: rest =>
    if kinds here ≠ some .directory then .error .notDirectory
    else if maxNameLength < part.utf8ByteSize then .error .nameTooLong
    else if kinds (onward here part) = none then .error .noEntry
    else walk kinds (onward here part) rest

/-- The parts of a path from the root on. -/
def route (t : FileTree) (path : String) : List String :=
  if isAbsolute path then parts path.toList []
  else parts t.workingDirectory.toList [] ++ parts path.toList []

/-- The places from which the parts lead on. -/
def through : Place → List String → List Place
  | _, [] => []
  | here, part :: rest => here :: through (onward here part) rest

def above (t : FileTree) (path : String) : List Place := through [] (t.route path)

def placeOf (t : FileTree) (path : String) : Place := fromRoot t.workingDirectory path

theorem placeOf_eq_foldl (t : FileTree) (path : String) :
    t.placeOf path = (t.route path).foldl onward [] := rfl

/-- A path that the operating system takes. -/
structure Admissible (path : String) : Prop where
  nonempty : path ≠ ""
  short : path.utf8ByteSize ≤ maxPathLength
  clean : '\x00' ∉ path.toList

def place? (t : FileTree) (path : String) : Except OsError Place :=
  if path.toList.contains '\x00' then .error .nulInName
  else if path.isEmpty then .error .noEntry
  else if maxPathLength < path.utf8ByteSize then .error .nameTooLong
  else walk t.kind? [] (t.route path)

section

variable {kinds kinds' : Place → Option EntryKind} {here p : Place} {parts : List String}

theorem walk_append (here : Place) (parts more : List String) :
    walk kinds here (parts ++ more) = walk kinds here parts >>= fun p => walk kinds p more := by
  induction parts generalizing here with
  | nil => rfl
  | cons part rest ih =>
    simp only [List.cons_append, walk]
    split
    · rfl
    split
    · rfl
    split
    · rfl
    · exact ih _

theorem eq_foldl_of_walk (arrives : walk kinds here parts = .ok p) :
    p = parts.foldl onward here := by
  induction parts generalizing here with
  | nil => exact (Except.ok.inj arrives).symm
  | cons part rest ih =>
    simp only [walk] at arrives
    split at arrives
    · cases arrives
    split at arrives
    · cases arrives
    split at arrives
    · cases arrives
    · exact ih arrives

/-- Parts lead somewhere exactly if the places on the way are directories, no name is too long, and
something is at the last place. -/
theorem walk_isOk_iff : (walk kinds here parts).isOk = true ↔
    (∀ p ∈ through here parts, kinds p = some .directory) ∧
      (∀ part ∈ parts, part.utf8ByteSize ≤ maxNameLength) ∧
        (parts ≠ [] → kinds (parts.foldl onward here) ≠ none) := by
  induction parts generalizing here with
  | nil => simp [walk, through, Except.isOk, Except.toBool]
  | cons part rest ih =>
    by_cases inside : kinds here = some .directory
    case neg => simp [walk, through, inside, Except.isOk, Except.toBool]
    by_cases long : maxNameLength < part.utf8ByteSize
    case pos => simp [walk, long, inside, Except.isOk, Except.toBool, Nat.not_le.2 long]
    by_cases absent : kinds (onward here part) = none
    case pos =>
      -- nothing is there, neither as the last place nor as one on the way
      cases rest with
      | nil => simp [walk, through, inside, long, absent, Except.isOk, Except.toBool]
      | cons part' rest =>
        simp [walk, through, inside, long, absent, Except.isOk, Except.toBool]
    have arrived : rest = [] → kinds (rest.foldl onward (onward here part)) ≠ none := by
      rintro rfl
      exact absent
    have further : walk kinds here (part :: rest) = walk kinds (onward here part) rest := by
      rw [walk, if_neg (not_not.2 inside), if_neg long, if_neg absent]
    rw [further, ih, through, List.forall_mem_cons, List.forall_mem_cons, List.foldl_cons]
    constructor
    · rintro ⟨directories, short, last⟩
      refine ⟨⟨inside, directories⟩, ⟨Nat.not_lt.1 long, short⟩, fun _ => ?_⟩
      exact if none : rest = [] then arrived none else last none
    · rintro ⟨⟨-, directories⟩, ⟨-, short⟩, last⟩
      exact ⟨directories, short, fun _ => last (List.cons_ne_nil _ _)⟩

theorem through_append (here : Place) (parts more : List String) :
    through here (parts ++ more) =
      through here parts ++ through (parts.foldl onward here) more := by
  induction parts generalizing here with
  | nil => rfl
  | cons part rest ih =>
    rw [List.cons_append, through, through, ih, List.foldl_cons, List.cons_append]

theorem walk_congr (onTheWay : ∀ p ∈ through here parts, kinds' p = kinds p)
    (last : kinds' (parts.foldl onward here) = kinds (parts.foldl onward here)) :
    walk kinds' here parts = walk kinds here parts := by
  induction parts generalizing here with
  | nil => rfl
  | cons part rest ih =>
    obtain ⟨first, others⟩ := List.forall_mem_cons.1 onTheWay
    have next : kinds' (onward here part) = kinds (onward here part) := by
      cases rest with
      | nil => exact last
      | cons part' rest => exact others _ List.mem_cons_self
    simp only [walk, first, next, ih others last]

end

/-! Look-ups follow the nodes of the tree, and the place goes along. -/

inductive Stands (root : FileNode) : FileNode → List FileNode → Place → Prop
  | root : Stands root root [] []
  | entry {entries : List (String × FileNode)} {parents : List FileNode} {p : Place}
      {name : String} {node : FileNode} (above : Stands root (.directory entries) parents p)
      (here : (FileNode.directory entries).child? name = some node) :
      Stands root node (.directory entries :: parents) (p ++ [name])

section

variable {root here : FileNode} {parents : List FileNode} {p : Place}

theorem Stands.at?_eq (stands : Stands root here parents p) : root.at? p = some here := by
  induction stands with
  | root => rfl
  | entry _ here ih => rw [FileNode.at?_concat, ih, Option.bind_some, here]

/-- A look-up and the walk along its places end alike. -/
inductive EndsAt (root : FileNode) :
    Except OsError (FileNode × List FileNode) → Except OsError Place → Prop
  | error (e : OsError) : EndsAt root (.error e) (.error e)
  | ok {here : FileNode} {parents : List FileNode} {p : Place}
      (stands : Stands root here parents p) : EndsAt root (.ok (here, parents)) (.ok p)

theorem Stands.follow (stands : Stands root here parents p) (parts : List String) :
    EndsAt root (follow here parents parts)
      (walk (fun q => (root.at? q).map FileNode.kind) p parts) := by
  induction parts generalizing here parents p with
  | nil => exact .ok stands
  | cons part rest ih =>
    cases here with
    | file content =>
      have kind : (root.at? p).map FileNode.kind = some (.file content) := by
        rw [stands.at?_eq]
        rfl
      rw [walk, if_pos (by simp [kind])]
      exact .error _
    | directory entries =>
      have kind : (root.at? p).map FileNode.kind = some .directory := by
        rw [stands.at?_eq]
        rfl
      rw [walk, if_neg (not_not.2 kind), FileTree.follow.eq_def]
      dsimp only
      by_cases stay : part = "" ∨ part = "."
      · have short : ¬ maxNameLength < part.utf8ByteSize := by
          rcases stay with rfl | rfl <;> decide
        have same : onward p part = p := if_pos stay
        rw [if_pos stay, if_neg short, same, if_neg (by simp [kind])]
        exact ih stands
      rw [if_neg stay]
      by_cases back : part = ".."
      · subst back
        have short : ¬ maxNameLength < "..".utf8ByteSize := by decide
        have same : onward p ".." = p.dropLast := by simp [onward]
        rw [if_pos rfl, if_neg short, same]
        cases stands with
        | root =>
          rw [if_neg (by simp)]
          exact ih .root
        | entry above here =>
          rw [List.dropLast_concat, if_neg (by simp [above.at?_eq])]
          exact ih above
      have name : onward p part = p ++ [part] := by simp [onward, stay, back]
      rw [if_neg back, name]
      split
      · exact .error _
      · cases found : entries.find? fun e => e.1 == part with
        | none =>
          have absent : (FileNode.directory entries).child? part = none := by
            simp only [FileNode.child?, found, Option.map_none]
          rw [if_pos (by simp [stands.at?_eq, absent])]
          exact .error _
        | some e =>
          have child : (FileNode.directory entries).child? part = some e.2 := by
            simp only [FileNode.child?, found, Option.map_some]
          rw [if_neg (by simp [stands.at?_eq, child])]
          exact ih (stands.entry child)

end

inductive Finds (t : FileTree) : Except OsError FileNode → Except OsError Place → Prop
  | error (e : OsError) : Finds t (.error e) (.error e)
  | ok {node : FileNode} {p : Place} (there : t.root.at? p = some node) : Finds t (.ok node) (.ok p)

theorem Finds.of_node {t : FileTree} {node : FileNode} {y : Except OsError Place}
    (finds : Finds t (.ok node) y) : ∃ p, y = .ok p ∧ t.root.at? p = some node := by
  cases finds with
  | ok there => exact ⟨_, rfl, there⟩

theorem Finds.of_place {t : FileTree} {x : Except OsError FileNode} {p : Place}
    (finds : Finds t x (.ok p)) : ∃ node, x = .ok node ∧ t.root.at? p = some node := by
  cases finds with
  | ok there => exact ⟨_, rfl, there⟩

theorem Finds.error_iff {t : FileTree} {x : Except OsError FileNode} {y : Except OsError Place}
    (finds : Finds t x y) (e : OsError) : x = .error e ↔ y = .error e := by
  cases finds with
  | error e' => rw [Except.error.injEq, Except.error.injEq]
  | ok there => simp

def start (t : FileTree) (path : String) : Except OsError (FileNode × List FileNode) :=
  if isAbsolute path then .ok (t.root, [])
  else follow t.root [] (parts t.workingDirectory.toList [])

theorem start_endsAt (t : FileTree) (path : String) :
    EndsAt t.root (t.start path >>= fun s => follow s.1 s.2 (parts path.toList []))
      (walk t.kind? [] (t.route path)) := by
  unfold start route
  split
  · exact Stands.root.follow _
  · rw [walk_append]
    have directory := (Stands.root : Stands t.root t.root [] []).follow
      (parts t.workingDirectory.toList [])
    generalize follow t.root [] (parts t.workingDirectory.toList []) = x at directory
    have same : (fun q => (t.root.at? q).map FileNode.kind) = t.kind? := rfl
    rw [same] at directory
    generalize walk t.kind? [] (parts t.workingDirectory.toList []) = y at directory
    cases directory with
    | error e => exact .error e
    | ok stands => exact stands.follow _

theorem lookup_eq (t : FileTree) (path : String) : t.lookup path =
    if path.toList.contains '\x00' then .error .nulInName
    else if path.isEmpty then .error .noEntry
    else if maxPathLength < path.utf8ByteSize then .error .nameTooLong
    else (t.start path >>= fun s => follow s.1 s.2 (parts path.toList [])).map Prod.fst := by
  unfold lookup start
  split
  · rfl
  split
  · rfl
  split
  · rfl
  split <;> cases follow t.root [] _ <;> rfl

theorem lookup_finds (t : FileTree) (path : String) : Finds t (t.lookup path) (t.place? path) := by
  rw [lookup_eq, place?]
  split
  · exact .error _
  split
  · exact .error _
  split
  · exact .error _
  · have ends := start_endsAt t path
    generalize walk t.kind? [] (t.route path) = y at ends
    generalize (t.start path >>= fun s => follow s.1 s.2 (parts path.toList [])) = x at ends
    cases ends with
    | error e => exact .error e
    | ok stands => exact .ok stands.at?_eq

variable {t t' : FileTree} {path directory name : String}

theorem route_congr (same : t'.workingDirectory = t.workingDirectory) (path : String) :
    t'.route path = t.route path := by
  rw [route, route, same]

theorem above_congr (same : t'.workingDirectory = t.workingDirectory) (path : String) :
    t'.above path = t.above path := by
  rw [above, above, route_congr same]

theorem placeOf_congr (same : t'.workingDirectory = t.workingDirectory) (path : String) :
    t'.placeOf path = t.placeOf path := by
  rw [placeOf, placeOf, same]

theorem route_ne_nil (t : FileTree) (path : String) : t.route path ≠ [] := by
  unfold route
  split
  · exact parts_ne_nil _ _
  · exact List.append_ne_nil_of_right_ne_nil _ (parts_ne_nil _ _)

theorem lookup_of_place? {p : Place} (place : t.place? path = .ok p) :
    ∃ node, t.lookup path = .ok node ∧ t.root.at? p = some node :=
  Finds.of_place (place ▸ lookup_finds t path)

theorem eq_placeOf {p : Place} (place : t.place? path = .ok p) : p = t.placeOf path := by
  rw [place?] at place
  split at place
  · cases place
  split at place
  · cases place
  split at place
  · cases place
  · exact eq_foldl_of_walk place

theorem place?_of_lookup {node : FileNode} (found : t.lookup path = .ok node) :
    t.place? path = .ok (t.placeOf path) ∧ t.root.at? (t.placeOf path) = some node := by
  obtain ⟨p, place, there⟩ := Finds.of_node (found ▸ lookup_finds t path)
  exact ⟨eq_placeOf place ▸ place, eq_placeOf place ▸ there⟩

theorem exists?_eq_isOk (t : FileTree) (path : String) :
    t.exists? path = (t.place? path).isOk := by
  have finds := lookup_finds t path
  unfold exists?
  generalize t.lookup path = node at finds
  generalize t.place? path = p at finds
  cases finds <;> rfl

theorem place?_of_admissible (admissible : Admissible path) :
    t.place? path = walk t.kind? [] (t.route path) := by
  have clean : ¬ path.toList.contains '\x00' = true := by simpa using admissible.clean
  have nonempty : ¬ path.isEmpty = true := by simpa using admissible.nonempty
  rw [place?, if_neg clean, if_neg nonempty, if_neg (Nat.not_lt.2 admissible.short)]

theorem admissible_of_isOk (arrives : (t.place? path).isOk = true) : Admissible path := by
  rw [place?] at arrives
  split at arrives
  · cases arrives
  split at arrives
  · cases arrives
  split at arrives
  · cases arrives
  · rename_i clean nonempty short
    exact ⟨by simpa using nonempty, Nat.not_lt.1 short, by simpa using clean⟩

/-- Something is at a path exactly if the system takes the path, the places on the way are
directories, and something is at the place it leads to. -/
theorem exists?_iff : t.exists? path = true ↔ Admissible path ∧
    (∀ p ∈ t.above path, t.kind? p = some .directory) ∧
      (∀ part ∈ t.route path, part.utf8ByteSize ≤ maxNameLength) ∧
        t.kind? (t.placeOf path) ≠ none := by
  have arrives : (walk t.kind? [] (t.route path)).isOk = true ↔ _ := walk_isOk_iff
  rw [imp_iff_right (route_ne_nil t path)] at arrives
  rw [exists?_eq_isOk]
  constructor
  · intro there
    have admissible := admissible_of_isOk there
    rw [place?_of_admissible admissible] at there
    exact ⟨admissible, arrives.1 there⟩
  · rintro ⟨admissible, onTheWay⟩
    rw [place?_of_admissible admissible]
    exact arrives.2 onTheWay

/-- What is at a path stays as long as what is at its place, and the directories on the way, do. -/
theorem exists?_congr (same : t'.workingDirectory = t.workingDirectory)
    (onTheWay : ∀ p ∈ t.above path, t.kind? p = some .directory ↔ t'.kind? p = some .directory)
    (last : t.kind? (t.placeOf path) = none ↔ t'.kind? (t.placeOf path) = none) :
    t.exists? path = t'.exists? path := by
  rw [Bool.eq_iff_iff, exists?_iff, exists?_iff, above_congr same, route_congr same,
    placeOf_congr same, ne_eq, ne_eq, last]
  exact and_congr_right fun _ => and_congr_left fun _ => forall₂_congr onTheWay

theorem place?_congr (same : t'.workingDirectory = t.workingDirectory)
    (onTheWay : ∀ p ∈ t.above path, t'.kind? p = t.kind? p)
    (last : t'.kind? (t.placeOf path) = t.kind? (t.placeOf path)) :
    t'.place? path = t.place? path := by
  rw [place?, place?, route_congr same, walk_congr onTheWay last]

theorem lookup_error_congr (same : t.place? path = t'.place? path) (e : OsError) :
    t.lookup path = .error e ↔ t'.lookup path = .error e := by
  rw [(lookup_finds t path).error_iff, (lookup_finds t' path).error_iff, same]

/-! What a directory lists. -/

theorem list_of_lookup {entries : List (String × FileNode)}
    (found : t.lookup path = .ok (.directory entries)) :
    t.list path = .ok (entries.map Prod.fst) := by
  rw [list, found]
  rfl

theorem exists_of_list {names : List String} (listed : t.list path = .ok names) :
    ∃ entries, t.lookup path = .ok (.directory entries) ∧ names = entries.map Prod.fst := by
  cases found : t.lookup path with
  | error e =>
    rw [list, found] at listed
    cases listed
  | ok node =>
    cases node with
    | file content =>
      rw [list, found] at listed
      cases listed
    | directory entries =>
      rw [list_of_lookup found] at listed
      exact ⟨entries, rfl, (Except.ok.inj listed).symm⟩

theorem isDirectory_iff : t.isDirectory path = true ↔ ∃ names, t.list path = .ok names := by
  constructor
  · intro directory
    unfold isDirectory at directory
    split at directory
    · rename_i entries found
      exact ⟨_, list_of_lookup found⟩
    · cases directory
  · rintro ⟨names, listed⟩
    obtain ⟨entries, found, -⟩ := exists_of_list listed
    rw [isDirectory, found]

theorem mem_list_iff {names : List String} (listed : t.list path = .ok names) :
    name ∈ names ↔ t.kind? (t.placeOf path ++ [name]) ≠ none := by
  obtain ⟨entries, found, rfl⟩ := exists_of_list listed
  obtain ⟨-, there⟩ := place?_of_lookup found
  rw [FileNode.mem_entries_iff, kind?, FileNode.at?_concat, there, Option.bind_some, ne_eq,
    Option.map_eq_none_iff, ← ne_eq, Option.isSome_iff_ne_none]

theorem kind?_of_list {names : List String} (listed : t.list path = .ok names) :
    t.kind? (t.placeOf path) = some .directory := by
  obtain ⟨entries, found, -⟩ := exists_of_list listed
  obtain ⟨-, there⟩ := place?_of_lookup found
  rw [kind?, there]
  rfl

theorem kind?_of_entry {p : Place} (entry : t.kind? (p ++ [name]) ≠ none) :
    t.kind? p = some .directory := by
  rw [kind?, FileNode.at?_concat] at entry
  rw [kind?]
  cases found : t.root.at? p with
  | none => simp [found] at entry
  | some node =>
    cases node with
    | file content => simp [found, FileNode.child?] at entry
    | directory entries => rfl

/-! Paths of entries in a directory. -/

theorem isAbsolute_of_isName (plain : IsName name) : isAbsolute name = false := by
  unfold isAbsolute
  rw [beq_eq_false_iff_ne]
  intro first
  exact plain.whole (List.mem_of_mem_head? first)

theorem isAbsolute_of_toList {path path' : String} {rest : List Char} (some : path ≠ "")
    (whole : path'.toList = path.toList ++ rest) : isAbsolute path' = isAbsolute path := by
  have nonempty : path.toList ≠ [] := by simpa using some
  rw [isAbsolute, isAbsolute, whole, List.head?_append_of_ne_nil _ nonempty]

theorem join_cases (directory : String) (relative : isAbsolute name = false) :
    (directory = "" ∧ join directory name = name) ∨
    (∃ ds, directory.toList = ds ++ ['/'] ∧
      (join directory name).toList = ds ++ '/' :: name.toList) ∨
    directory ≠ "" ∧ (join directory name).toList = directory.toList ++ '/' :: name.toList := by
  rw [join, if_neg (by simp [relative])]
  by_cases empty : directory = ""
  · subst empty
    exact .inl ⟨rfl, by simp⟩
  by_cases slash : directory.toList.getLast? = some '/'
  · obtain ⟨ds, ends⟩ := List.getLast?_eq_some_iff.1 slash
    refine .inr (.inl ⟨ds, ends, ?_⟩)
    rw [if_pos (by simp [slash]), String.toList_append, ends, List.append_assoc]
    rfl
  · refine .inr (.inr ⟨empty, ?_⟩)
    rw [if_neg (by simp [slash, empty]), String.toList_append, String.toList_append,
      List.append_assoc]
    rfl

theorem route_join_relative (t : FileTree) (directory : String)
    (relative : isAbsolute name = false) :
    ∃ front, t.route (join directory name) = front ++ parts name.toList [] ∧
      (t.route directory = front ∨ t.route directory = front ++ [""]) := by
  rcases join_cases directory relative with ⟨rfl, whole⟩ | ⟨ds, ends, whole⟩ | ⟨nonempty, whole⟩
  · rw [whole]
    refine ⟨parts t.workingDirectory.toList [], ?_, .inr rfl⟩
    rw [route, relative]
    rfl
  · have first : parts directory.toList [] = parts ds [] ++ [""] := by
      rw [ends, parts_append_slash]
      rfl
    have second : parts (join directory name).toList [] = parts ds [] ++ parts name.toList [] := by
      rw [whole, parts_append_slash]
    have same : isAbsolute (join directory name) = isAbsolute directory := by
      have further : (join directory name).toList = directory.toList ++ name.toList := by
        rw [whole, ends, List.append_assoc]
        rfl
      refine isAbsolute_of_toList ?_ further
      rintro rfl
      simp at ends
    rw [route, route, same, first, second]
    split
    · exact ⟨_, rfl, .inr rfl⟩
    · rw [← List.append_assoc, ← List.append_assoc]
      exact ⟨_, rfl, .inr rfl⟩
  · refine ⟨t.route directory, ?_, .inl rfl⟩
    rw [route, route, isAbsolute_of_toList nonempty whole, whole, parts_append_slash]
    split
    · rfl
    · rw [List.append_assoc]

theorem route_join (t : FileTree) (directory : String) (plain : IsName name) :
    ∃ front, t.route (join directory name) = front ++ [name] ∧
      (t.route directory = front ∨ t.route directory = front ++ [""]) := by
  obtain ⟨front, whole, way⟩ := route_join_relative t directory (isAbsolute_of_isName plain)
  rw [parts_of_whole plain.whole, List.reverse_nil, List.nil_append, String.ofList_toList] at whole
  exact ⟨front, whole, way⟩

theorem onward_empty (here : Place) : onward here "" = here := rfl

theorem placeOf_eq_of_route {front : List String}
    (way : t.route directory = front ∨ t.route directory = front ++ [""]) :
    t.placeOf directory = front.foldl onward [] := by
  rw [placeOf_eq_foldl]
  rcases way with way | way <;> rw [way]
  rw [List.foldl_concat, onward_empty]

theorem placeOf_join (t : FileTree) (directory : String) (plain : IsName name) :
    t.placeOf (join directory name) = t.placeOf directory ++ [name] := by
  obtain ⟨front, whole, way⟩ := route_join t directory plain
  rw [placeOf_eq_foldl, whole, List.foldl_concat, onward_of_isName plain, placeOf_eq_of_route way]

theorem above_join (t : FileTree) (directory : String) (plain : IsName name) :
    ∀ p ∈ t.above (join directory name), p ∈ t.above directory ∨ p = t.placeOf directory := by
  obtain ⟨front, whole, way⟩ := route_join t directory plain
  intro p member
  rw [above, whole, through_append, List.mem_append] at member
  rcases member with inside | last
  · refine .inl ?_
    rcases way with way | way <;> rw [above, way]
    · exact inside
    · rw [through_append]
      exact List.mem_append_left _ inside
  · refine .inr ?_
    rw [through, through, List.mem_singleton] at last
    rw [placeOf_eq_of_route way, last]

/-- In a directory that can be listed, something is at the path of a name exactly if the name is
listed, as long as the system takes the path and the name. -/
theorem exists?_join_iff {names : List String} (listed : t.list directory = .ok names)
    (plain : IsName name) (admissible : Admissible (join directory name))
    (short : name.utf8ByteSize ≤ maxNameLength) :
    t.exists? (join directory name) = true ↔ name ∈ names := by
  obtain ⟨entries, found, -⟩ := exists_of_list listed
  obtain ⟨place, there⟩ := place?_of_lookup found
  have arrives : t.exists? directory = true := by
    rw [exists?_eq_isOk, place]
    rfl
  obtain ⟨-, onTheWay, parts, -⟩ := exists?_iff.1 arrives
  rw [mem_list_iff listed, ← placeOf_join t directory plain]
  refine ⟨fun present => (exists?_iff.1 present).2.2.2, fun present => ?_⟩
  refine exists?_iff.2 ⟨admissible, fun p member => ?_, fun part member => ?_, present⟩
  · rcases above_join t directory plain p member with member | rfl
    · exact onTheWay p member
    · exact kind?_of_list listed
  · obtain ⟨front, whole, way⟩ := route_join t directory plain
    rw [whole, List.mem_append, List.mem_singleton] at member
    rcases member with member | rfl
    · refine parts part ?_
      rcases way with way | way <;> rw [way]
      · exact member
      · exact List.mem_append_left _ member
    · exact short

end FileTree
end TextCompletion
