import TextCompletion.Proofs.Files.Places

/-!
Names that stay below a directory, in a tree without links. A part of a name leads down to an entry,
up again, or nowhere. Main statements: seen from a directory that is not the root, a relative name
leads through nothing outside of the directory exactly if in no beginning of it are there more parts
that lead up than parts that lead down; what it denotes is then as far below the directory as the
one count exceeds the other. An absolute name leads from the root, whatever the directory is.
-/

namespace TextCompletion.FileTree

open FilePath

def deeper? (depth : Nat) (part : String) : Option Nat :=
  if part = "" ∨ part = "." then some depth
  else if part = ".." then if depth = 0 then none else some (depth - 1)
  else some (depth + 1)

/-- How far below its start a way ends that never climbs above it, from so far below on. -/
def depth? (depth : Nat) (parts : List String) : Option Nat := parts.foldlM deeper? depth

/-- The second place is so many names below the first. -/
def IsBelow (base : Place) (depth : Nat) (here : Place) : Prop :=
  ∃ rest, here = base ++ rest ∧ rest.length = depth

def visited (here : Place) (parts : List String) : List Place :=
  through here parts ++ [parts.foldl onward here]

variable {base here : Place} {depth n : Nat} {parts : List String} {part : String}

theorem visited_cons : visited here (part :: parts) = here :: visited (onward here part) parts :=
  rfl

theorem mem_visited (here : Place) (parts : List String) : here ∈ visited here parts := by
  cases parts with
  | nil => exact List.mem_singleton_self here
  | cons part parts => exact List.mem_cons_self

theorem IsBelow.refl (base : Place) : IsBelow base 0 base := ⟨[], by simp, rfl⟩

theorem IsBelow.starts (below : IsBelow base depth here) : base <+: here := by
  obtain ⟨rest, rfl, -⟩ := below
  exact List.prefix_append base rest

theorem IsBelow.down (below : IsBelow base depth here) (name : String) :
    IsBelow base (depth + 1) (here ++ [name]) := by
  obtain ⟨rest, rfl, rfl⟩ := below
  exact ⟨rest ++ [name], List.append_assoc .., by simp⟩

theorem IsBelow.up (below : IsBelow base depth here) (deep : depth ≠ 0) :
    IsBelow base (depth - 1) here.dropLast := by
  obtain ⟨rest, rfl, rfl⟩ := below
  have some : rest ≠ [] := mt List.length_eq_zero_iff.2 deep
  exact ⟨rest.dropLast, List.dropLast_append_of_ne_nil some, List.length_dropLast⟩

theorem not_prefix_dropLast (some : base ≠ []) : ¬ base <+: base.dropLast := by
  intro inside
  have longer := inside.length_le
  have positive := List.length_pos_iff.2 some
  rw [List.length_dropLast] at longer
  omega

theorem IsBelow.further (below : IsBelow base depth here) (next : deeper? depth part = some n) :
    IsBelow base n (onward here part) := by
  rw [deeper?] at next
  rw [onward]
  split at next
  · rename_i stay
    rw [if_pos stay]
    exact Option.some.inj next ▸ below
  · rename_i other
    rw [if_neg other]
    split at next
    · rename_i up
      rw [if_pos up]
      split at next
      · cases next
      · rename_i deep
        exact Option.some.inj next ▸ below.up deep
    · rename_i down
      rw [if_neg down]
      exact Option.some.inj next ▸ below.down part

theorem deeper?_eq_none : deeper? depth part = none ↔ part = ".." ∧ depth = 0 := by
  rw [deeper?]
  split
  · rename_i stay
    refine iff_of_false nofun ?_
    rintro ⟨rfl, -⟩
    exact absurd stay (by decide)
  · split <;> simp_all

theorem IsBelow.outside (below : IsBelow base depth here) (some : base ≠ [])
    (climbs : deeper? depth part = none) : ¬ base <+: onward here part := by
  obtain ⟨rfl, rfl⟩ := deeper?_eq_none.1 climbs
  obtain ⟨rest, rfl, length⟩ := below
  obtain rfl := List.length_eq_zero_iff.1 length
  rw [List.append_nil]
  exact not_prefix_dropLast some

theorem isBelow_of_depth? (below : IsBelow base depth here) (ends : depth? depth parts = some n) :
    (∀ p ∈ visited here parts, base <+: p) ∧ IsBelow base n (parts.foldl onward here) := by
  induction parts generalizing here depth with
  | nil =>
    obtain rfl := Option.some.inj ends
    exact ⟨List.forall_mem_singleton.2 below.starts, below⟩
  | cons part parts ih =>
    rw [depth?, List.foldlM_cons] at ends
    obtain ⟨d, next, ends⟩ := Option.bind_eq_some_iff.1 ends
    obtain ⟨later, last⟩ := ih (below.further next) ends
    exact ⟨List.forall_mem_cons.2 ⟨below.starts, later⟩, last⟩

theorem exists_outside_of_depth? (some : base ≠ []) (below : IsBelow base depth here)
    (climbs : depth? depth parts = none) : ∃ p ∈ visited here parts, ¬ base <+: p := by
  induction parts generalizing here depth with
  | nil => cases climbs
  | cons part parts ih =>
    rw [visited_cons, List.exists_mem_cons_iff]
    refine .inr ?_
    cases next : deeper? depth part with
    | none => exact ⟨_, mem_visited _ _, below.outside some next⟩
    | some d =>
      rw [depth?, List.foldlM_cons, next] at climbs
      exact ih (below.further next) climbs

/-! Names seen from a directory. -/

variable {t : FileTree} {directory name : String}

/-- Where a name leads, seen from a directory: an absolute one leads from the root. -/
def leadsTo (t : FileTree) (directory name : String) : Place :=
  (FilePath.parts name.toList []).foldl onward (if isAbsolute name then [] else t.placeOf directory)

/-- The places that a relative name leads through, seen from a directory. -/
def trail (t : FileTree) (directory name : String) : List Place :=
  visited (t.placeOf directory) (FilePath.parts name.toList [])

/-- Nothing that the relative name leads through is outside of the directory. -/
def Stays (t : FileTree) (directory name : String) : Prop :=
  ∀ p ∈ t.trail directory name, t.placeOf directory <+: p

theorem placeOf_join_relative (t : FileTree) (directory : String)
    (relative : isAbsolute name = false) : t.placeOf (join directory name) =
      (FilePath.parts name.toList []).foldl onward (t.placeOf directory) := by
  obtain ⟨front, whole, way⟩ := route_join_relative t directory relative
  rw [placeOf_eq_foldl, whole, List.foldl_append, placeOf_eq_of_route way]

theorem placeOf_join_eq_leadsTo (t : FileTree) (directory name : String) :
    t.placeOf (join directory name) = t.leadsTo directory name := by
  rw [leadsTo]
  cases absolute : isAbsolute name with
  | true =>
    have whole : join directory name = name := if_pos absolute
    have way : t.route name = FilePath.parts name.toList [] := if_pos absolute
    rw [whole, placeOf_eq_foldl, way]
    rfl
  | false => exact placeOf_join_relative t directory absolute

theorem stays_of_depth? (ends : depth? 0 (FilePath.parts name.toList []) = some n) :
    t.Stays directory name :=
  (isBelow_of_depth? (.refl _) ends).1

theorem not_stays_of_depth? (inside : t.placeOf directory ≠ [])
    (climbs : depth? 0 (FilePath.parts name.toList []) = none) : ¬ t.Stays directory name := by
  intro stays
  obtain ⟨p, member, outside⟩ := exists_outside_of_depth? inside (.refl _) climbs
  exact outside (stays p member)

theorem isBelow_join (relative : isAbsolute name = false)
    (ends : depth? 0 (FilePath.parts name.toList []) = some n) :
    IsBelow (t.placeOf directory) n (t.placeOf (join directory name)) := by
  rw [placeOf_join_relative t directory relative]
  exact (isBelow_of_depth? (.refl _) ends).2

/-- Where the path of a name is, seen from a directory. A relative name that never climbs above its
start stays in the directory and denotes what is so many names below it; one that climbs leads out,
unless the directory is the root. -/
structure IsPlaced (t : FileTree) (directory name : String) : Prop where
  place : t.placeOf (join directory name) = t.leadsTo directory name
  absolute : isAbsolute name = true → join directory name = name
  below : isAbsolute name = false → ∀ n, depth? 0 (FilePath.parts name.toList []) = some n →
    t.Stays directory name ∧ IsBelow (t.placeOf directory) n (t.placeOf (join directory name))
  climbs : isAbsolute name = false → depth? 0 (FilePath.parts name.toList []) = none →
    t.placeOf directory ≠ [] → ¬ t.Stays directory name

theorem isPlaced (t : FileTree) (directory name : String) : t.IsPlaced directory name where
  place := placeOf_join_eq_leadsTo t directory name
  absolute absolute := if_pos absolute
  below relative _ ends := ⟨stays_of_depth? ends, isBelow_join relative ends⟩
  climbs _ climbs inside := not_stays_of_depth? inside climbs

theorem depth?_of_isName (plain : IsName name) :
    depth? 0 (FilePath.parts name.toList []) = some 1 := by
  rw [parts_of_whole plain.whole, List.reverse_nil, List.nil_append, String.ofList_toList]
  simp [depth?, deeper?, plain.nonempty, plain.other, plain.down]

end TextCompletion.FileTree
