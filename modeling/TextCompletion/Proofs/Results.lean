import Mathlib.Logic.Basic

/-!
Results that succeed or fail. What comes from a result, or from working through a list, comes about
exactly if the steps on the way do.
-/

namespace TextCompletion

theorem map_eq_ok {ε α β : Type} {x : Except ε α} {f : α → β} {b : β} :
    x.map f = .ok b ↔ ∃ a, x = .ok a ∧ b = f a := by
  cases x <;> simp [Except.map, eq_comm]

theorem bind_eq_ok {ε α β : Type} {x : Except ε α} {f : α → Except ε β} {b : β} :
    x >>= f = .ok b ↔ ∃ a, x = .ok a ∧ f a = .ok b := by
  cases x <;> simp [bind, Except.bind]

theorem bind_pure_eq_ok {ε α β γ : Type} {x : Except ε α} {f : α → Except ε β} {g : α → β → γ}
    {c : γ} :
    (do let a ← x; let b ← f a; pure (g a b)) = .ok c ↔
      ∃ a b, x = .ok a ∧ f a = .ok b ∧ c = g a b := by
  simp only [bind_eq_ok, pure, Except.pure, Except.ok.injEq]
  constructor
  · rintro ⟨a, first, b, second, rfl⟩
    exact ⟨a, b, first, second, rfl⟩
  · rintro ⟨a, b, first, second, rfl⟩
    exact ⟨a, first, b, second, rfl⟩

theorem bind_pure_eq_some {α β : Type} {x : Option α} {g : α → β} {b : β} :
    (do pure (g (← x))) = some b ↔ ∃ a, x = some a ∧ g a = b := by
  cases x <;> simp

theorem eq_of_eq_ok {ε α : Type} {x : Except ε α} {a b : α} (first : x = .ok a)
    (second : x = .ok b) : a = b :=
  Except.ok.inj (first.symm.trans second)

theorem eq_ok_of_toOption {ε α : Type} {x : Except ε α} {a : α} (made : x.toOption = some a) :
    x = .ok a := by
  cases x <;> simp_all [Except.toOption]

theorem mapM_eq_ok {ε α β : Type} {f : α → Except ε β} {as : List α} {bs : List β} :
    as.mapM f = .ok bs ↔ as.map f = bs.map .ok := by
  induction as generalizing bs with
  | nil => cases bs <;> simp [pure, Except.pure]
  | cons a as ih =>
    rw [List.mapM_cons, bind_pure_eq_ok, List.map_cons]
    constructor
    · rintro ⟨b, rest, first, others, rfl⟩
      rw [first, ih.1 others, List.map_cons]
    · intro same
      cases bs with
      | nil => cases same
      | cons b rest =>
        obtain ⟨first, others⟩ := List.cons.inj same
        exact ⟨b, rest, first, ih.2 others, rfl⟩

/-- Working through a list fails with its first element that fails. -/
theorem mapM_eq_error {ε α β : Type} {f : α → Except ε β} {as : List α} {e : ε} :
    as.mapM f = .error e ↔ ∃ before a after, as = before ++ a :: after ∧
      (∀ b ∈ before, ∃ c, f b = .ok c) ∧ f a = .error e := by
  induction as with
  | nil => simp [pure, Except.pure]
  | cons a as ih =>
    rw [List.mapM_cons]
    cases first : f a with
    | error e' =>
      show (.error e' : Except ε (List β)) = .error e ↔ _
      rw [Except.error.injEq]
      constructor
      · rintro rfl
        exact ⟨[], a, as, rfl, by simp, first⟩
      · rintro ⟨before, b, after, whole, passed, fails⟩
        cases before with
        | nil =>
          obtain ⟨rfl, rfl⟩ := List.cons.inj whole
          exact Except.error.inj (first.symm.trans fails)
        | cons b' before =>
          obtain ⟨rfl, -⟩ := List.cons.inj whole
          obtain ⟨c, passes⟩ := passed a List.mem_cons_self
          cases first.symm.trans passes
    | ok c =>
      have later : (do let b ← Except.ok c; let bs ← as.mapM f; pure (b :: bs)) = .error e ↔
          as.mapM f = .error e := by
        cases as.mapM f <;> simp [bind, Except.bind, pure, Except.pure]
      rw [later, ih]
      constructor
      · rintro ⟨before, b, after, rfl, passed, fails⟩
        exact ⟨a :: before, b, after, rfl, List.forall_mem_cons.2 ⟨⟨c, first⟩, passed⟩, fails⟩
      · rintro ⟨before, b, after, whole, passed, fails⟩
        cases before with
        | nil =>
          obtain ⟨rfl, -⟩ := List.cons.inj whole
          cases first.symm.trans fails
        | cons b' before =>
          obtain ⟨rfl, rfl⟩ := List.cons.inj whole
          exact ⟨before, b, after, rfl, (List.forall_mem_cons.1 passed).2, fails⟩

theorem exists_of_mapM_eq_ok {ε α β : Type} {f : α → Except ε β} {as : List α} {bs : List β}
    (made : as.mapM f = .ok bs) {b : β} (member : b ∈ bs) : ∃ a ∈ as, f a = .ok b :=
  List.mem_map.1 (mapM_eq_ok.1 made ▸ List.mem_map_of_mem member)

theorem exists_ok_of_mapM_eq_ok {ε α β : Type} {f : α → Except ε β} {as : List α} {bs : List β}
    (made : as.mapM f = .ok bs) {a : α} (member : a ∈ as) : ∃ b, f a = .ok b := by
  have listed : f a ∈ bs.map .ok := mapM_eq_ok.1 made ▸ List.mem_map_of_mem member
  obtain ⟨b, -, same⟩ := List.mem_map.1 listed
  exact ⟨b, same.symm⟩

end TextCompletion
