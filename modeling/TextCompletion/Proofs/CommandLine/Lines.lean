import TextCompletion.Proofs.CommandLine.Values

/-!
Lines of options. An option is written with its value, as one argument or as two, and a line is read
by what its options set, one after the other. Main statements: a line of settings is read as the
settings in their order, whichever way each is written; and a line asks for an invocation exactly if
it is one of settings that describe the invocation.
-/

namespace TextCompletion.CommandLine

namespace Flag

theorem ofName?_name (f : Flag) : ofName? f.name = some f := by
  cases f <;> rfl

theorem name_of_ofName? {f : Flag} {name : String} (found : ofName? name = some f) :
    name = f.name := by
  have same := List.find?_some found
  exact (eq_of_beq same).symm

theorem plain_name (f : Flag) : '=' ∉ f.name.toList := by
  cases f <;> decide

theorem name_nonempty (f : Flag) : f.name.toList ≠ [] := by
  cases f <;> decide

end Flag

theorem other_of_plain {name : List Char} (plain : '=' ∉ name) :
    ∀ c ∈ name, (c != '=') = true := by
  intro c member
  have other : c ≠ '=' := fun same => plain (same ▸ member)
  simpa using other

theorem splitValue_joined {name : List Char} (plain : '=' ∉ name) (value : List Char) :
    splitValue (name ++ '=' :: value) = (String.ofList name, some (String.ofList value)) := by
  rw [splitValue, List.dropWhile_append_of_pos (other_of_plain plain),
    List.takeWhile_append_of_pos (other_of_plain plain)]
  simp

theorem splitValue_alone {name : List Char} (plain : '=' ∉ name) :
    splitValue name = (String.ofList name, none) := by
  have nothing : name.dropWhile (· != '=') = [] :=
    List.dropWhile_eq_nil_iff.2 (other_of_plain plain)
  rw [splitValue, nothing]

open readArguments (readOption)

variable {s : State} {f : Flag} {value : String} {rest : List String} {body : List Char}

theorem readArguments_idle (idle : s.awaiting? = none) (argument : String) :
    readArguments s (argument :: rest) = readOption s argument.toList rest := by
  rw [readArguments, idle]

theorem ne_nil_of_splitValue {value? : Option String} (split : splitValue body = (f.name, value?)) :
    body ≠ [] := by
  rintro rfl
  have none : "" = f.name := congrArg Prod.fst split
  exact f.name_nonempty (none ▸ rfl)

theorem readOption_joined (split : splitValue body = (f.name, some value)) :
    readOption s ('-' :: '-' :: body) rest =
      s.settle >>= fun d => d.assign f value >>= fun d => readArguments { draft := d } rest := by
  obtain ⟨c, cs, rfl⟩ := List.exists_cons_of_ne_nil (ne_nil_of_splitValue split)
  rw [readOption.eq_def]
  simp only [split, Flag.ofName?_name]

theorem readOption_alone (split : splitValue body = (f.name, none)) :
    readOption s ('-' :: '-' :: body) rest =
      s.settle >>= fun d => readArguments { draft := d, pending := some (f, none) } rest := by
  obtain ⟨c, cs, rfl⟩ := List.exists_cons_of_ne_nil (ne_nil_of_splitValue split)
  rw [readOption.eq_def]
  simp only [split, Flag.ofName?_name]

def Setting.arguments (r : Setting) : List String :=
  match r.form with
  | .joined => ["--" ++ r.flag.name ++ "=" ++ r.value]
  | .apart => ["--" ++ r.flag.name, r.value]

/-- A value on its own is one that the option takes. -/
def Setting.IsTaken (r : Setting) : Prop := r.form = .apart → r.flag.takes r.value.toList = true

def line (settings : List Setting) : List String := settings.flatMap Setting.arguments

def State.next (s : State) (r : Setting) : Except UsageError State :=
  match r.form with
  | .joined => do
    let d ← s.settle
    let d ← d.set r
    pure { draft := d }
  | .apart => do
    let d ← s.settle
    pure { draft := d, pending := some (r.flag, some r.value) }

theorem State.next_idle {s' : State} {r : Setting} (made : s.next r = .ok s') :
    s'.awaiting? = none := by
  rw [next] at made
  split at made
  · obtain ⟨d, -, made⟩ := bind_eq_ok.1 made
    obtain ⟨e, -, made⟩ := bind_eq_ok.1 made
    cases made
    rfl
  · obtain ⟨d, -, made⟩ := bind_eq_ok.1 made
    cases made
    rfl

theorem State.next_settle (s : State) (r : Setting) :
    (s.next r >>= State.settle) = s.settle >>= fun d => d.set r := by
  rw [next]
  split
  · simp only [bind_assoc, pure_bind]
    exact bind_congr fun d => bind_pure _
  · simp only [bind_assoc, pure_bind]
    rfl

theorem toList_joined (f : Flag) (value : String) : ("--" ++ f.name ++ "=" ++ value).toList =
    '-' :: '-' :: (f.name.toList ++ '=' :: value.toList) := by
  simp

theorem toList_alone (f : Flag) : ("--" ++ f.name).toList = '-' :: '-' :: f.name.toList := by
  simp

theorem readArguments_awaiting {d : Draft} (takes : f.takes value.toList = true) :
    readArguments { draft := d, pending := some (f, none) } (value :: rest) =
      readArguments { draft := d, pending := some (f, some value) } rest := by
  rw [readArguments]
  simp only [State.awaiting?, takes, if_true]

theorem readArguments_setting {r : Setting} (idle : s.awaiting? = none) (taken : r.IsTaken) :
    readArguments s (r.arguments ++ rest) = s.next r >>= fun s' => readArguments s' rest := by
  rw [Setting.arguments, State.next]
  cases form : r.form with
  | joined =>
    have split := splitValue_joined r.flag.plain_name r.value.toList
    rw [String.ofList_toList, String.ofList_toList] at split
    rw [List.singleton_append, readArguments_idle idle, toList_joined, readOption_joined split]
    simp only [bind_assoc, pure_bind]
    rfl
  | apart =>
    have split := splitValue_alone r.flag.plain_name
    rw [String.ofList_toList] at split
    rw [List.cons_append, List.singleton_append, readArguments_idle idle, toList_alone,
      readOption_alone split]
    simp only [bind_assoc, pure_bind]
    exact bind_congr fun d => readArguments_awaiting (taken form)

theorem readArguments_line {settings : List Setting} (idle : s.awaiting? = none)
    (taken : ∀ r ∈ settings, r.IsTaken) (rest : List String) :
    readArguments s (line settings ++ rest) =
      settings.foldlM State.next s >>= fun s' => readArguments s' rest := by
  induction settings generalizing s with
  | nil => rfl
  | cons r settings ih =>
    obtain ⟨first, taken⟩ := List.forall_mem_cons.1 taken
    rw [line, List.flatMap_cons, List.append_assoc, readArguments_setting idle first,
      List.foldlM_cons, bind_assoc]
    cases made : s.next r with
    | error e => rfl
    | ok s' => exact ih (State.next_idle made) taken

theorem foldlM_next_idle {s s' : State} {settings : List Setting} (idle : s.awaiting? = none)
    (made : settings.foldlM State.next s = .ok s') : s'.awaiting? = none := by
  induction settings generalizing s with
  | nil =>
    obtain rfl := Except.ok.inj made
    exact idle
  | cons r settings ih =>
    rw [List.foldlM_cons] at made
    obtain ⟨s'', first, made⟩ := bind_eq_ok.1 made
    exact ih (State.next_idle first) made

theorem foldlM_next_settle (s : State) (settings : List Setting) :
    (settings.foldlM State.next s >>= State.settle) = s.settle >>= settings.foldlM Draft.set := by
  induction settings generalizing s with
  | nil => exact (pure_bind _ _).trans (bind_pure _).symm
  | cons r settings ih =>
    have further : (s.next r >>= fun s' => s'.settle >>= settings.foldlM Draft.set) =
        s.settle >>= fun d => d.set r >>= settings.foldlM Draft.set := by
      rw [← bind_assoc, State.next_settle, bind_assoc]
    simp only [List.foldlM_cons, bind_assoc, ih, further]

/-- Two dashes at the end of a line change nothing. -/
def IsEnd (tail : List String) : Prop := tail = [] ∨ tail = ["--"]

theorem readArguments_end {tail : List String} (ends : IsEnd tail) (idle : s.awaiting? = none) :
    readArguments s tail = s.settle >>= complete := by
  rcases ends with rfl | rfl
  · rw [readArguments]
  · rw [readArguments_idle idle]
    have dashes : "--".toList = ['-', '-'] := rfl
    rw [dashes, readOption.eq_def]
    rfl

theorem parse_line {settings : List Setting} {tail : List String} (ends : IsEnd tail)
    (taken : ∀ r ∈ settings, r.IsTaken) :
    parse (line settings ++ tail) = settings.foldlM Draft.set {} >>= complete := by
  have start : State.awaiting? {} = none := rfl
  have settled : (settings.foldlM State.next {} >>= State.settle) = settings.foldlM Draft.set {} :=
    foldlM_next_settle {} settings
  rw [parse, readArguments_line start taken, ← settled, bind_assoc]
  cases made : settings.foldlM State.next {} with
  | error e => rfl
  | ok s => exact readArguments_end ends (foldlM_next_idle start made)

theorem mem_missing {d : Draft} :
    (f ∈ Flag.all.filter fun f => f.isRequired && !d.given.contains f) ↔
      f.isRequired = true ∧ f ∉ d.given := by
  have all : f ∈ Flag.all := by cases f <;> decide
  simp [all]

theorem complete_eq_ok_iff {d : Draft} {request : Request} : complete d = .ok request ↔
    (∀ f : Flag, f.isRequired = true → f ∈ d.given) ∧ request = .invoke d.invocation := by
  have none : (Flag.all.filter fun f => f.isRequired && !d.given.contains f) = [] ↔
      ∀ f : Flag, f.isRequired = true → f ∈ d.given := by
    simp only [List.eq_nil_iff_forall_not_mem, mem_missing, not_and, not_not]
  rw [complete]
  split
  · rename_i nothing
    rw [Except.ok.injEq, iff_true_intro (none.1 nothing), true_and, eq_comm]
  · rename_i some
    exact iff_of_false nofun fun given => some (none.2 given.1)

theorem missing_of_complete {d : Draft} {fault : UsageError} (fails : complete d = .error fault) :
    ∃ missing mentioned, fault = .missingRequired missing mentioned ∧
      ∀ f, f ∈ missing ↔ f.isRequired = true ∧ f ∉ d.given := by
  rw [complete] at fails
  split at fails
  · cases fails
  · cases fails
    exact ⟨_, _, rfl, fun f => mem_missing⟩

theorem parse_line_eq_ok_iff {settings : List Setting} {tail : List String} {request : Request}
    (ends : IsEnd tail) (taken : ∀ r ∈ settings, r.IsTaken) :
    parse (line settings ++ tail) = .ok request ↔
      ∃ i, Describes settings i ∧ request = .invoke i := by
  rw [parse_line ends taken, bind_eq_ok]
  constructor
  · rintro ⟨d, made, completed⟩
    obtain ⟨once, -, given, spelled, others⟩ := Draft.foldlM_set_eq_ok_iff.1 made
    obtain ⟨required, rfl⟩ := complete_eq_ok_iff.1 completed
    rw [given] at required
    exact ⟨d.invocation, ⟨once, required, spelled, others⟩, rfl⟩
  · rintro ⟨i, describes, rfl⟩
    exact ⟨⟨flags settings, i⟩, Draft.foldlM_set_eq_ok_iff.2 describes.takes,
      complete_eq_ok_iff.2 ⟨describes.required, rfl⟩⟩

/-! Only lines of settings ask for an invocation. -/

theorem splitValue_eq_none {name : String} (split : splitValue body = (name, none)) :
    body = name.toList := by
  rw [splitValue] at split
  split at split
  · cases split
    rw [String.toList_ofList]
  · cases split

theorem splitValue_eq_some {name : String} (split : splitValue body = (name, some value)) :
    body = name.toList ++ '=' :: value.toList := by
  rw [splitValue] at split
  split at split
  · cases split
  · rename_i mark after found
    obtain rfl : mark = '=' := by
      simpa [found] using List.head?_dropWhile_not (· != '=') body
    cases split
    rw [String.toList_ofList, String.toList_ofList, ← found, List.takeWhile_append_dropWhile]

/-- What is read where an invocation is asked for: two dashes that end the line, an option that
waits for its value, or an option with its value. -/
inductive Continues (s : State) (rest : List String) (i : Invocation) : List Char → Prop
  | ends {d : Draft} (settled : s.settle = .ok d) (last : rest = []) :
      Continues s rest i ['-', '-']
  | alone {d : Draft} (f : Flag) (settled : s.settle = .ok d)
      (asks : readArguments { draft := d, pending := some (f, none) } rest = .ok (.invoke i)) :
      Continues s rest i ('-' :: '-' :: f.name.toList)
  | joined {d e : Draft} (f : Flag) (value : String) (settled : s.settle = .ok e)
      (asks : readArguments { draft := d } rest = .ok (.invoke i)) :
      Continues s rest i ('-' :: '-' :: (f.name.toList ++ '=' :: value.toList))

theorem request_ne_invoke (w : Switch) (i : Invocation) : request w ≠ .invoke i := by
  cases w <;> nofun

theorem continues_of_readOption {cs : List Char} {i : Invocation}
    (asks : readOption s cs rest = .ok (.invoke i)) : Continues s rest i cs := by
  rw [readOption.eq_def] at asks
  split at asks
  · split at asks
    · obtain ⟨d, settled, -⟩ := bind_eq_ok.1 asks
      exact .ends settled rfl
    · cases asks
  · rename_i body _
    cases split : splitValue body with
    | mk name value? =>
    rw [split] at asks
    dsimp only at asks
    split at asks
    · rename_i _ _ f named
      obtain ⟨d, settled, asks⟩ := bind_eq_ok.1 asks
      rw [splitValue_eq_none split, Flag.name_of_ofName? named]
      exact .alone f settled asks
    · rename_i _ f value named
      obtain ⟨d, settled, asks⟩ := bind_eq_ok.1 asks
      obtain ⟨e, -, asks⟩ := bind_eq_ok.1 asks
      rw [splitValue_eq_some split, Flag.name_of_ofName? named]
      exact .joined f value settled asks
    · obtain ⟨d, -, asks⟩ := bind_eq_ok.1 asks
      exact absurd (Except.ok.inj asks) (request_ne_invoke _ i)
    · cases asks
    · cases asks
  · split at asks
    · obtain ⟨d, -, asks⟩ := bind_eq_ok.1 asks
      exact absurd (Except.ok.inj asks) (request_ne_invoke _ i)
    · cases asks
  · cases asks

theorem Continues.settled {cs : List Char} {i : Invocation} (continues : Continues s rest i cs) :
    ∃ d, s.settle = .ok d := by
  cases continues with
  | ends settled _ => exact ⟨_, settled⟩
  | alone _ settled _ => exact ⟨_, settled⟩
  | joined _ _ settled _ => exact ⟨_, settled⟩

theorem exists_value {d : Draft} {i : Invocation}
    (asks : readArguments { draft := d, pending := some (f, none) } rest = .ok (.invoke i)) :
    ∃ value others, rest = value :: others ∧ f.takes value.toList = true ∧
      readArguments { draft := d, pending := some (f, some value) } others = .ok (.invoke i) := by
  cases rest with
  | nil =>
    rw [readArguments] at asks
    cases asks
  | cons value others =>
    by_cases takes : f.takes value.toList = true
    · exact ⟨value, others, rfl, takes, readArguments_awaiting takes ▸ asks⟩
    · rw [readArguments] at asks
      simp only [State.awaiting?, takes] at asks
      obtain ⟨e, settled⟩ := (continues_of_readOption asks).settled
      cases settled

/-- A line that asks for an invocation is one of settings, but for two dashes at its end. -/
theorem exists_settings {s : State} {args : List String} {i : Invocation}
    (idle : s.awaiting? = none) (asks : readArguments s args = .ok (.invoke i)) :
    ∃ settings tail, (∀ r ∈ settings, Setting.IsTaken r) ∧ IsEnd tail ∧
      args = line settings ++ tail := by
  cases args with
  | nil => exact ⟨[], [], nofun, .inl rfl, rfl⟩
  | cons argument rest =>
    rw [readArguments_idle idle] at asks
    have continues := continues_of_readOption asks
    generalize whole : argument.toList = cs at continues
    cases continues with
    | ends _ last =>
      have same : argument = "--" := String.toList_inj.1 whole
      exact ⟨[], ["--"], nofun, .inr rfl, by rw [same, last]; rfl⟩
    | alone f _ asks =>
      have same : argument = "--" ++ f.name :=
        String.toList_inj.1 (whole.trans (toList_alone f).symm)
      obtain ⟨value, others, rfl, takes, asks⟩ := exists_value asks
      obtain ⟨settings, tail, taken, ends, written⟩ := exists_settings rfl asks
      refine ⟨⟨f, value, .apart⟩ :: settings, tail, ?_, ends, ?_⟩
      · exact List.forall_mem_cons.2 ⟨fun _ => takes, taken⟩
      · rw [same, written]
        rfl
    | joined f value _ asks =>
      have same : argument = "--" ++ f.name ++ "=" ++ value :=
        String.toList_inj.1 (whole.trans (toList_joined f value).symm)
      obtain ⟨settings, tail, taken, ends, written⟩ := exists_settings rfl asks
      refine ⟨⟨f, value, .joined⟩ :: settings, tail, ?_, ends, ?_⟩
      · exact List.forall_mem_cons.2 ⟨nofun, taken⟩
      · rw [same, written]
        rfl
termination_by args.length

/-- A line asks for an invocation exactly if it is one of settings that describe it, but for two
dashes at its end. -/
theorem parse_eq_invoke_iff {args : List String} {i : Invocation} :
    parse args = .ok (.invoke i) ↔ ∃ settings tail, (∀ r ∈ settings, Setting.IsTaken r) ∧
      IsEnd tail ∧ args = line settings ++ tail ∧ Describes settings i := by
  constructor
  · intro asks
    obtain ⟨settings, tail, taken, ends, rfl⟩ := exists_settings rfl asks
    obtain ⟨j, describes, same⟩ := (parse_line_eq_ok_iff ends taken).1 asks
    cases same
    exact ⟨settings, tail, taken, ends, rfl, describes⟩
  · rintro ⟨settings, tail, taken, ends, rfl, describes⟩
    exact (parse_line_eq_ok_iff ends taken).2 ⟨i, describes, rfl⟩

/-- Where each value is read, a line is refused only because an option is given twice, or because
one that is required is not given. -/
theorem parse_line_eq_error {settings : List Setting} {fault : UsageError}
    (taken : ∀ r ∈ settings, r.IsTaken)
    (readable : ∀ r ∈ settings, ∃ i, r.flag.Spells r.value i)
    (fails : parse (line settings) = .error fault) :
    (∃ f, fault = .repeated f ∧ 1 < (flags settings).count f) ∨
      ∃ missing mentioned, fault = .missingRequired missing mentioned ∧
        ∀ f, f ∈ missing ↔ f.isRequired = true ∧ f ∉ flags settings := by
  have read := parse_line (.inl rfl) taken
  rw [List.append_nil, fails] at read
  cases made : settings.foldlM Draft.set {} with
  | error e =>
    rw [made] at read
    cases read
    exact .inl (Draft.repeated_of_foldlM_set readable made)
  | ok d =>
    have given : d.given = flags settings := (Draft.foldlM_set_eq_ok_iff.1 made).given
    rw [made] at read
    exact .inr (given ▸ missing_of_complete read.symm)

end TextCompletion.CommandLine
