import TextCompletion.Proofs.Pipeline.Probes
import TextCompletion.Proofs.Text.Bytes
import Mathlib.Data.List.Find
import Mathlib.Data.Set.Basic

/-!
What an index of shards comes to. Its map gives every tensor the name of a shard, and of members
with the same key the last counts; only the set of these names matters. Main statement: the shards
are the names in the order of their bytes, each once and all of them present, and the index is
refused exactly if it cannot be read, names none, or names one that is absent, of which the first is
told.
-/

namespace TextCompletion.WeightFiles

open FilePath (join)

def weightMap (t : FileTree) (directory index : String) :
    Except Failure (List (String × String)) := do
  let path := join directory index
  (Json.Reader.record indexSchema).ofFile path (← t.contentOf path)

def valueOf? (members : List (String × String)) (key : String) : Option String :=
  (members.reverse.find? fun m => m.1 == key).map Prod.snd

/-- The names that an index gives to shards. -/
def shards (t : FileTree) (directory index : String) : Except Failure (Set String) :=
  (weightMap t directory index).map fun members => {name | ∃ key, valueOf? members key = some name}

/-- The list has the members of the set, in the strict order of their bytes. -/
structure InOrder (names : List String) (set : Set String) : Prop where
  ascending : names.Pairwise fun a b => Text.Utf8.encode a < Text.Utf8.encode b
  complete : ∀ name, name ∈ names ↔ name ∈ set

section

variable {members : List (String × String)} {k v key name : String}

theorem valueOf?_cons : valueOf? ((k, v) :: members) key =
    (valueOf? members key).or (if k = key then some v else none) := by
  unfold valueOf?
  rw [List.reverse_cons, List.find?_append]
  by_cases same : k = key
  · cases members.reverse.find? (fun m => m.1 == key) <;> simp [same]
  · cases members.reverse.find? (fun m => m.1 == key) <;> simp [same]

theorem valueOf?_isSome : (valueOf? members key).isSome = members.any fun m => m.1 == key := by
  rw [valueOf?, Option.isSome_map, List.isSome_find?, List.any_reverse]

/-- A map has the values that its keys have. -/
theorem mem_lastValues : name ∈ lastValues members ↔ ∃ key, valueOf? members key = some name := by
  induction members with
  | nil => simp [lastValues, valueOf?]
  | cons m members ih =>
    obtain ⟨k, v⟩ := m
    simp only [valueOf?_cons]
    rw [lastValues]
    split
    · -- the member is replaced by a later one with its key
      rename_i later
      rw [ih]
      refine exists_congr fun key => ?_
      by_cases same : k = key
      · subst same
        obtain ⟨w, found⟩ := Option.isSome_iff_exists.1 (valueOf?_isSome.trans later)
        rw [found, Option.some_or]
      · rw [if_neg same, Option.or_none]
    · rename_i last
      have none : valueOf? members k = none := by
        rw [← Option.not_isSome_iff_eq_none, valueOf?_isSome]
        exact last
      rw [List.mem_cons, ih]
      constructor
      · rintro (rfl | ⟨key, found⟩)
        · exact ⟨k, by simp [none]⟩
        · exact ⟨key, by rw [found, Option.some_or]⟩
      · rintro ⟨key, found⟩
        by_cases same : k = key
        · subst same
          rw [none, Option.none_or, if_pos rfl] at found
          exact .inl (Option.some.inj found).symm
        · rw [if_neg same, Option.or_none] at found
          exact .inr ⟨key, found⟩

theorem lastValues_of_distinct (distinct : (members.map Prod.fst).Nodup) :
    lastValues members = members.map Prod.snd := by
  induction members with
  | nil => rfl
  | cons m members ih =>
    obtain ⟨k, v⟩ := m
    obtain ⟨fresh, distinct⟩ := List.nodup_cons.1 distinct
    have last : ¬ (members.any fun m => m.1 == k) = true := by
      rw [List.any_eq_true]
      rintro ⟨m, member, same⟩
      exact fresh (List.mem_map.2 ⟨m, member, eq_of_beq same⟩)
    rw [lastValues, if_neg last, ih distinct, List.map_cons]

end

variable {t t' : FileTree} {directory index name : String} {names paths : List String}
  {set : Set String} {f : Failure}

theorem InOrder.unique {names' : List String} (first : InOrder names set)
    (second : InOrder names' set) : names = names' := by
  have strict {l : List String} (ordered : InOrder l set) : l.Pairwise (· < ·) :=
    ordered.ascending.imp Text.Utf8.encode_lt_iff.1
  have nodup {l : List String} (ordered : InOrder l set) : l.Nodup :=
    (strict ordered).imp fun less => ne_of_lt less
  refine List.Perm.eq_of_pairwise (fun a b _ _ less less' => absurd less' (lt_asymm less))
    (strict first) (strict second) ?_
  rw [List.perm_ext_iff_of_nodup (nodup first) (nodup second)]
  exact fun name => (first.complete name).trans (second.complete name).symm

theorem inOrder_sortDistinct (texts : List String) :
    InOrder (Text.sortDistinct texts) {text | text ∈ texts} where
  ascending := (Text.sortDistinct_pairwise texts).imp Text.Utf8.encode_lt_iff.2
  complete _ := Text.mem_sortDistinct

theorem shards_of_weightMap {members : List (String × String)}
    (read : weightMap t directory index = .ok members) :
    shards t directory index = .ok {name | name ∈ lastValues members} := by
  rw [shards, read, Except.map, Except.ok.injEq]
  ext name
  exact mem_lastValues.symm

theorem shards_of_perm {members members' : List (String × String)}
    (read : weightMap t directory index = .ok members)
    (read' : weightMap t' directory index = .ok members') (perm : members.Perm members')
    (distinct : (members.map Prod.fst).Nodup) :
    shards t' directory index = shards t directory index := by
  have distinct' := (perm.map Prod.fst).nodup_iff.1 distinct
  rw [shards_of_weightMap read, shards_of_weightMap read', lastValues_of_distinct distinct,
    lastValues_of_distinct distinct', Except.ok.injEq]
  ext name
  exact (perm.map Prod.snd).mem_iff.symm

theorem shards_eq_ok_iff : shards t directory index = .ok set ↔
    ∃ members, weightMap t directory index = .ok members ∧
      InOrder (Text.sortDistinct (lastValues members)) set := by
  constructor
  · intro listed
    cases read : weightMap t directory index with
    | error f =>
      rw [shards, read] at listed
      cases listed
    | ok members =>
      obtain rfl := Except.ok.inj ((shards_of_weightMap read).symm.trans listed)
      exact ⟨members, rfl, inOrder_sortDistinct _⟩
  · rintro ⟨members, read, ordered⟩
    rw [shards_of_weightMap read, Except.ok.injEq]
    ext name
    rw [← ordered.complete, Text.mem_sortDistinct]
    rfl

theorem shards_eq_error_iff :
    shards t directory index = .error f ↔ weightMap t directory index = .error f := by
  unfold shards
  cases weightMap t directory index <;> simp [Except.map]

theorem weightMap_eq_error_iff : weightMap t directory index = .error f ↔
    (∃ e, t.read (join directory index) = .error e ∧
      f = ⟨[.readFile (join directory index)], .os e⟩) ∨
    ∃ content fault, t.read (join directory index) = .ok content ∧
      (Json.Reader.record indexSchema).run content = .error fault ∧
        f = ⟨[.parseFile (join directory index)], .document fault⟩ := by
  rw [weightMap, FileTree.contentOf]
  cases t.read (join directory index) with
  | error e => simp [accessing, bind, Except.bind, eq_comm]
  | ok content =>
    simp only [accessing, bind, Except.bind, Json.Reader.ofFile]
    cases parsed : (Json.Reader.record indexSchema).run content <;> simp [parsed, eq_comm]

/-- Shards are located unless one is absent, and then the first absent one is told. -/
theorem locateShards_eq (t : FileTree) (directory index : String) (names : List String) :
    locateShards t directory index names =
      (names.find? fun name => !t.exists? (join directory name)).elim
        (.ok (names.map (join directory))) fun name => .error (.of (.missingShard name index)) := by
  induction names with
  | nil => rfl
  | cons name rest ih =>
    rw [locateShards, List.find?_cons]
    cases t.exists? (join directory name) with
    | false => rfl
    | true =>
      rw [ih]
      cases rest.find? fun name => !t.exists? (join directory name) <;> rfl

structure FirstAbsent (t : FileTree) (directory : String) (set : Set String) (name : String) :
    Prop where
  listed : name ∈ set
  absent : t.exists? (join directory name) = false
  first : ∀ other ∈ set, t.exists? (join directory other) = false → other ≠ name →
    Text.Utf8.encode name < Text.Utf8.encode other

theorem InOrder.find?_eq_none (ordered : InOrder names set) :
    (names.find? fun name => !t.exists? (join directory name)) = none ↔
      ∀ name ∈ set, t.exists? (join directory name) = true := by
  simp [← ordered.complete]

theorem InOrder.find?_eq_some (ordered : InOrder names set) :
    (names.find? fun name => !t.exists? (join directory name)) = some name ↔
      FirstAbsent t directory set name := by
  rw [List.find?_eq_some_iff_append]
  constructor
  · rintro ⟨absent, before, after, rfl, present⟩
    refine ⟨(ordered.complete name).1 (by simp), by simpa using absent, ?_⟩
    intro other listed missing different
    have rest := (List.pairwise_append.1 ordered.ascending).2.1
    have member : other ∈ before ++ name :: after := (ordered.complete other).2 listed
    rw [List.mem_append, List.mem_cons] at member
    rcases member with member | same | member
    · have there := present other member
      simp [missing] at there
    · exact absurd same different
    · exact (List.pairwise_cons.1 rest).1 other member
  · intro first
    refine ⟨by simp [first.absent], ?_⟩
    obtain ⟨before, after, whole⟩ := List.append_of_mem ((ordered.complete name).2 first.listed)
    refine ⟨before, after, whole, fun other member => ?_⟩
    have ascending := ordered.ascending
    rw [whole] at ascending
    have less := (List.pairwise_append.1 ascending).2.2 other member name List.mem_cons_self
    cases missing : t.exists? (join directory other) with
    | true => rfl
    | false =>
      have listed : other ∈ set :=
        (ordered.complete other).1 (whole ▸ List.mem_append_left _ member)
      have different : other ≠ name := by
        rintro rfl
        exact List.lt_irrefl _ less
      exact absurd (first.first other listed missing different) (List.lt_asymm less)

theorem ofIndex_eq_weightMap (t : FileTree) (directory index : String) :
    ofIndex t directory index = weightMap t directory index >>= fun members =>
      if Text.sortDistinct (lastValues members) = [] then .error (.of (.noShards index))
      else locateShards t directory index (Text.sortDistinct (lastValues members)) := by
  rw [ofIndex_eq]
  unfold indexNames weightMap
  simp only [bind_assoc, pure_bind]

theorem ofIndex_of_error (fails : shards t directory index = .error f) :
    ofIndex t directory index = .error f := by
  rw [ofIndex_eq_weightMap, shards_eq_error_iff.1 fails]
  rfl

theorem ofIndex_of_ok (listed : shards t directory index = .ok set) :
    ∃ names, InOrder names set ∧ ofIndex t directory index =
      if names = [] then .error (.of (.noShards index))
      else (names.find? fun name => !t.exists? (join directory name)).elim
        (.ok (names.map (join directory))) fun name => .error (.of (.missingShard name index)) := by
  obtain ⟨members, read, ordered⟩ := shards_eq_ok_iff.1 listed
  refine ⟨_, ordered, ?_⟩
  rw [ofIndex_eq_weightMap, read, ← locateShards_eq]
  rfl

theorem InOrder.eq_nil_iff (ordered : InOrder names set) : names = [] ↔ set = ∅ := by
  rw [List.eq_nil_iff_forall_not_mem, Set.eq_empty_iff_forall_notMem]
  exact forall_congr' fun name => not_congr (ordered.complete name)

theorem ofIndex_eq_ok_iff : ofIndex t directory index = .ok paths ↔
    ∃ set names, shards t directory index = .ok set ∧ InOrder names set ∧ names ≠ [] ∧
      (∀ name ∈ names, t.exists? (join directory name) = true) ∧
        paths = names.map (join directory) := by
  constructor
  · intro located
    cases listed : shards t directory index with
    | error f => cases (ofIndex_of_error listed).symm.trans located
    | ok set =>
      obtain ⟨names, ordered, made⟩ := ofIndex_of_ok listed
      rw [made] at located
      split at located
      · cases located
      · rename_i some
        cases missing : names.find? fun name => !t.exists? (join directory name) with
        | some name => simp [missing] at located
        | none =>
          rw [missing] at located
          refine ⟨set, names, rfl, ordered, some, fun name member => ?_,
            (Except.ok.inj located).symm⟩
          exact ordered.find?_eq_none.1 missing name ((ordered.complete name).1 member)
  · rintro ⟨set, names, listed, ordered, some, present, rfl⟩
    obtain ⟨names', ordered', made⟩ := ofIndex_of_ok listed
    obtain rfl := ordered.unique ordered'
    have none := ordered.find?_eq_none.2 fun name member =>
      present name ((ordered.complete name).2 member)
    rw [made, if_neg some, none]
    rfl

/-- Why an index gives no files, and what is told of it. -/
inductive Refuses (t : FileTree) (directory index : String) : Failure → Prop
  | unread {e : OsError} (fails : t.read (join directory index) = .error e) :
      Refuses t directory index ⟨[.readFile (join directory index)], .os e⟩
  | unparsed {content : Bytes} {fault : Json.Fault}
      (read : t.read (join directory index) = .ok content)
      (fails : (Json.Reader.record indexSchema).run content = .error fault) :
      Refuses t directory index ⟨[.parseFile (join directory index)], .document fault⟩
  | empty (none : shards t directory index = .ok ∅) :
      Refuses t directory index (.of (.noShards index))
  | absent {set : Set String} {name : String} (listed : shards t directory index = .ok set)
      (first : FirstAbsent t directory set name) :
      Refuses t directory index (.of (.missingShard name index))

theorem Refuses.ofIndex (refuses : Refuses t directory index f) :
    WeightFiles.ofIndex t directory index = .error f := by
  cases refuses with
  | unread fails =>
    exact ofIndex_of_error (shards_eq_error_iff.2 (weightMap_eq_error_iff.2 (.inl ⟨_, fails, rfl⟩)))
  | unparsed read fails =>
    exact ofIndex_of_error
      (shards_eq_error_iff.2 (weightMap_eq_error_iff.2 (.inr ⟨_, _, read, fails, rfl⟩)))
  | empty none =>
    obtain ⟨names, ordered, made⟩ := ofIndex_of_ok none
    rw [made, if_pos (ordered.eq_nil_iff.2 rfl)]
  | absent listed first =>
    obtain ⟨names, ordered, made⟩ := ofIndex_of_ok listed
    have some : names ≠ [] := List.ne_nil_of_mem ((ordered.complete _).2 first.listed)
    rw [made, if_neg some, ordered.find?_eq_some.2 first]
    rfl

theorem refuses_of_ofIndex (fails : ofIndex t directory index = .error f) :
    Refuses t directory index f := by
  cases listed : shards t directory index with
  | error f' =>
    obtain rfl := Except.error.inj ((ofIndex_of_error listed).symm.trans fails)
    rcases weightMap_eq_error_iff.1 (shards_eq_error_iff.1 listed) with
      ⟨e, unread, rfl⟩ | ⟨content, fault, read, unparsed, rfl⟩
    · exact .unread unread
    · exact .unparsed read unparsed
  | ok set =>
    obtain ⟨names, ordered, made⟩ := ofIndex_of_ok listed
    rw [made] at fails
    split at fails
    · rename_i none
      cases fails
      rw [ordered.eq_nil_iff.1 none] at listed
      exact .empty listed
    · cases missing : names.find? fun name => !t.exists? (join directory name) with
      | none => simp [missing] at fails
      | some name =>
        rw [missing] at fails
        cases fails
        exact .absent listed (ordered.find?_eq_some.1 missing)

theorem ofIndex_eq_error_iff :
    ofIndex t directory index = .error f ↔ Refuses t directory index f :=
  ⟨refuses_of_ofIndex, Refuses.ofIndex⟩

/-- An index matters only through the set of shards, and these only through whether they are
there. -/
theorem ofIndex_congr_shards (same : shards t' directory index = shards t directory index)
    (present : ∀ set, shards t directory index = .ok set → ∀ name ∈ set,
      t'.exists? (join directory name) = t.exists? (join directory name)) :
    ofIndex t' directory index = ofIndex t directory index := by
  cases listed : shards t directory index with
  | error f => rw [ofIndex_of_error listed, ofIndex_of_error (same.trans listed)]
  | ok set =>
    obtain ⟨names, ordered, made⟩ := ofIndex_of_ok listed
    obtain ⟨names', ordered', made'⟩ := ofIndex_of_ok (same.trans listed)
    obtain rfl := ordered.unique ordered'
    have absent : (names.find? fun name => !t'.exists? (join directory name)) =
        names.find? fun name => !t.exists? (join directory name) := by
      refine List.find?_congr fun name member => ?_
      rw [present set listed name ((ordered.complete name).1 member)]
    rw [made, made', absent]

end TextCompletion.WeightFiles
