import TextCompletion.Proofs.Files.Places
import TextCompletion.Proofs.Pipeline.Probes

/-!
Look-ups in two file trees. They find the same where the same is at their place and on the way. A
directory lists its entries in an order of its own, and no place tells of it. Main statement: trees
whose directories list their entries in other orders have the same at every place.
-/

namespace TextCompletion

section

variable {related : Bytes → Bytes → Prop} {t t' : FileTree} {path : String}

theorem SameNode.exists?_eq (same : SameNode related (t.lookup path) (t'.lookup path)) :
    t'.exists? path = t.exists? path := by
  unfold FileTree.exists?
  generalize t.lookup path = node at same
  generalize t'.lookup path = node' at same
  cases same <;> rfl

theorem SameNode.list_eq_error_iff (same : SameNode related (t.lookup path) (t'.lookup path))
    (e : OsError) : t.list path = .error e ↔ t'.list path = .error e := by
  unfold FileTree.list
  generalize t.lookup path = node at same
  generalize t'.lookup path = node' at same
  cases same with
  | error e' => rfl
  | directory entries entries' => simp [bind, Except.bind, pure, Except.pure]
  | file same => rfl

theorem sameNode_of_kinds (same : t'.workingDirectory = t.workingDirectory)
    (onTheWay : ∀ p ∈ t.above path, t'.kind? p = t.kind? p)
    (last : t'.kind? (t.placeOf path) = t.kind? (t.placeOf path)) :
    SameNode Eq (t.lookup path) (t'.lookup path) := by
  have arrives : t'.place? path = t.place? path := FileTree.place?_congr same onTheWay last
  cases found : t.lookup path with
  | error e =>
    rw [(FileTree.lookup_error_congr arrives.symm e).1 found]
    exact .error e
  | ok node =>
    obtain ⟨place, there⟩ := FileTree.place?_of_lookup found
    obtain ⟨node', found', there'⟩ := FileTree.lookup_of_place? (arrives.trans place)
    rw [FileTree.kind?, FileTree.kind?, there, there'] at last
    rw [found']
    cases node <;> cases node' <;> cases last
    · exact .file rfl
    · exact .directory _ _

end

namespace FileNode

/-- The entries of directories in another order. -/
inductive Reordered : FileNode → FileNode → Prop
  | refl (node : FileNode) : Reordered node node
  | trans {a b c : FileNode} (first : Reordered a b) (second : Reordered b c) : Reordered a c
  | entries {entries entries' : List (String × FileNode)} (perm : entries.Perm entries')
      (distinct : (entries.map Prod.fst).Nodup) :
      Reordered (.directory entries) (.directory entries')
  | inside {before after : List (String × FileNode)} {name : String} {node node' : FileNode}
      (inner : Reordered node node') :
      Reordered (.directory (before ++ (name, node) :: after))
        (.directory (before ++ (name, node') :: after))

theorem at?_cons (node : FileNode) (name : String) (p : Place) :
    node.at? (name :: p) = (node.child? name).bind fun n => n.at? p := rfl

theorem child?_append (before after : List (String × FileNode)) (name : String) :
    (directory (before ++ after)).child? name =
      ((directory before).child? name).or ((directory after).child? name) := by
  simp only [child?, List.find?_append]
  cases before.find? fun e => e.1 == name <;> rfl

theorem child?_cons (name other : String) (node : FileNode) (after : List (String × FileNode)) :
    (directory ((name, node) :: after)).child? other =
      if name = other then some node else (directory after).child? other := by
  by_cases same : name = other <;> simp [child?, same]

theorem child?_eq_some_iff {entries : List (String × FileNode)} {name : String} {node : FileNode}
    (distinct : (entries.map Prod.fst).Nodup) :
    (directory entries).child? name = some node ↔ (name, node) ∈ entries := by
  induction entries with
  | nil => simp [child?]
  | cons e entries ih =>
    obtain ⟨name', node'⟩ := e
    obtain ⟨fresh, distinct⟩ := List.nodup_cons.1 distinct
    rw [child?_cons, List.mem_cons, Prod.mk.injEq]
    by_cases same : name' = name
    · subst same
      have absent : (name', node) ∉ entries := fun member =>
        fresh (List.mem_map.2 ⟨_, member, rfl⟩)
      simp [absent, eq_comm]
    · simp [same, ih distinct, Ne.symm same]

theorem child?_of_perm {entries entries' : List (String × FileNode)}
    (perm : entries.Perm entries') (distinct : (entries.map Prod.fst).Nodup) (name : String) :
    (directory entries).child? name = (directory entries').child? name := by
  have distinct' := (perm.map Prod.fst).nodup_iff.1 distinct
  ext node
  rw [child?_eq_some_iff distinct, child?_eq_some_iff distinct', perm.mem_iff]

theorem Reordered.kind_at? {node node' : FileNode} (same : Reordered node node') (p : Place) :
    (node'.at? p).map kind = (node.at? p).map kind := by
  induction same generalizing p with
  | refl => rfl
  | trans _ _ first second => exact (second p).trans (first p)
  | entries perm distinct =>
    cases p with
    | nil => rfl
    | cons name p => rw [at?_cons, at?_cons, child?_of_perm perm distinct]
  | @inside before after name node node' _ ih =>
    cases p with
    | nil => rfl
    | cons other p =>
      rw [at?_cons, at?_cons, child?_append, child?_append, child?_cons, child?_cons]
      cases (directory before).child? other with
      | some found => rfl
      | none =>
        by_cases here : name = other
        · simpa [here] using ih p
        · simp [here]

end FileNode
end TextCompletion
