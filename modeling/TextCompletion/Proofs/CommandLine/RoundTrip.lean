import TextCompletion.Proofs.CommandLine.Lines

/-!
Every invocation can be asked for. Main statement: the line that gives each value once, in any order
and but for values that are the defaults, asks for exactly the invocation that has the values; the
prompt may stand apart whatever it looks like; and a line that gives an option twice or leaves out a
required one is refused.
-/

namespace TextCompletion.CommandLine

theorem Setting.isTaken_of_form {r : Setting} (written : r.form = .joined ∨ r.flag = .prompt) :
    r.IsTaken := by
  intro apart
  have prompt := written.resolve_left (by rw [apart]; nofun)
  rw [prompt]
  unfold Flag.takes
  split <;> rfl

/-- A line of settings, each written with an equals sign or else a prompt, asks for exactly the
invocation that they describe, and is refused if an option is given twice or a required one is not
given. Where each value is read, nothing else is refused. Any other line that asks for an invocation
is one of settings too, some of them written as two arguments, or has two dashes at its end. -/
theorem parse_line_roundTrip (settings : List Setting)
    (written : ∀ r ∈ settings, r.form = .joined ∨ r.flag = .prompt) :
    (∀ i, Describes settings i → parse (line settings) = .ok (.invoke i)) ∧
    (∀ request, parse (line settings) = .ok request →
      ∃ i, Describes settings i ∧ request = .invoke i) ∧
    (∀ f, 1 < (flags settings).count f → ∃ e, parse (line settings) = .error e) ∧
    (∀ f : Flag, f.isRequired = true → f ∉ flags settings → ∃ e, parse (line settings) = .error e) ∧
    ((∀ r ∈ settings, ∃ i, r.flag.Spells r.value i) → ∀ e, parse (line settings) = .error e →
      (∃ f, e = .repeated f ∧ 1 < (flags settings).count f) ∨
        ∃ missing mentioned, e = .missingRequired missing mentioned ∧
          ∀ f, f ∈ missing ↔ f.isRequired = true ∧ f ∉ flags settings) ∧
    ∀ args i, parse args = .ok (.invoke i) ↔ ∃ others tail, (∀ r ∈ others, Setting.IsTaken r) ∧
      IsEnd tail ∧ args = line others ++ tail ∧ Describes others i := by
  have taken (r) (member : r ∈ settings) := Setting.isTaken_of_form (written r member)
  have asks {request : Request} : parse (line settings) = .ok request ↔
      ∃ i, Describes settings i ∧ request = .invoke i := by
    rw [← parse_line_eq_ok_iff (.inl rfl) taken, List.append_nil]
  have refused (none : ¬ ∃ i, Describes settings i) : ∃ e, parse (line settings) = .error e := by
    cases read : parse (line settings) with
    | error e => exact ⟨e, rfl⟩
    | ok request =>
      obtain ⟨i, describes, -⟩ := asks.1 read
      exact absurd ⟨i, describes⟩ none
  refine ⟨fun i describes => asks.2 ⟨i, describes, rfl⟩, fun request => asks.1,
    fun f twice => refused ?_, fun f needed missing => refused ?_,
    fun readable e => parse_line_eq_error taken readable, fun args i => parse_eq_invoke_iff⟩
  · rintro ⟨i, describes⟩
    exact Nat.not_lt.2 (List.nodup_iff_count_le_one.1 describes.once f) twice
  · rintro ⟨i, describes⟩
    exact missing (describes.required f needed)

namespace Scrambled

def settings : List Setting :=
  [⟨.seed, "+7", .joined⟩, ⟨.prompt, "--help", .apart⟩, ⟨.modelPath, "/m", .joined⟩]

def invocation : Invocation := { modelPath := "/m", prompt := "--help", params := { seed := 7 } }

theorem describes : Describes settings invocation where
  once := by decide
  required f needed := by cases f <;> first | decide | cases needed
  given := by
    simp only [settings, List.forall_mem_cons]
    exact ⟨rfl, rfl, ⟨rfl, by decide⟩, nofun⟩
  omitted f absent := by cases f <;> first | rfl | exact absurd (by decide) absent

end Scrambled

/-- The order of the options does not matter, and a prompt that spells an option is a prompt. -/
theorem parse_scrambled : parse ["--seed=+7", "--prompt", "--help", "--model-path=/m"] =
    .ok (.invoke Scrambled.invocation) := by
  have written : ∀ r ∈ Scrambled.settings, r.form = .joined ∨ r.flag = .prompt := by decide
  have arguments : line Scrambled.settings =
      ["--seed=+7", "--prompt", "--help", "--model-path=/m"] := by rfl
  rw [← arguments]
  exact (parse_line_roundTrip Scrambled.settings written).1 _ Scrambled.describes

end TextCompletion.CommandLine
