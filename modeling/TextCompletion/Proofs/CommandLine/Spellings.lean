import TextCompletion.Proofs.CommandLine.Lines

/-!
Numbers below zero on a line of their own. An option that waits for a number takes an argument with
a minus sign if the rest has the look of a number, and the look is not the grammar by which the
number is read. Main statement: after an equals sign every numeral is taken; as the next argument it
is taken exactly if a minus sign, where there is one, is followed by a digit and the exponent has no
sign, and otherwise the line is refused.
-/

namespace TextCompletion.CommandLine

open Decimal (AreDigits IsDecimal IsExponent IsFraction readUnsigned?)

def Unsigned (cs : List Char) : Prop := ∀ c ∈ cs, c ≠ '+' ∧ c ≠ '-'

/-- A text without a minus sign in front, or with one that a digit follows and then no other sign.
-/
def IsPlain (cs : List Char) : Prop :=
  ∀ ds, cs = '-' :: ds → (∃ c ∈ ds.head?, c.isDigit = true) ∧ Unsigned ds

variable {c : Char} {cs ds : List Char} {first seenPoint seenMark : Bool}

theorem ne_sign_of_isDigit (digit : c.isDigit = true) : c ≠ '+' ∧ c ≠ '-' := by
  constructor <;> rintro rfl <;> exact absurd digit (by decide)

theorem isPlain_of_head (other : cs.head? ≠ some '-') : IsPlain cs := by
  rintro ds rfl
  exact absurd rfl other

theorem isPlain_of_areDigits (some : ds ≠ []) (digits : AreDigits ds) : IsPlain ('-' :: ds) := by
  rintro _ ⟨⟩
  obtain ⟨c, cs, rfl⟩ := List.exists_cons_of_ne_nil some
  exact ⟨⟨c, rfl, digits c List.mem_cons_self⟩,
    fun d member => ne_sign_of_isDigit (digits d member)⟩

/-! What has the look of a number. -/

theorem go_append_digits (digits : AreDigits ds) (cs : List Char) :
    isNumber.go first seenPoint seenMark (ds ++ cs) =
      isNumber.go (first && ds.isEmpty) seenPoint seenMark cs := by
  induction ds generalizing first with
  | nil => simp
  | cons d ds ih =>
    obtain ⟨digit, digits⟩ := List.forall_mem_cons.1 digits
    rw [List.cons_append, isNumber.go, if_pos digit, ih digits]
    simp

theorem go_digits (digits : AreDigits ds) : isNumber.go first seenPoint seenMark ds = true := by
  rw [← List.append_nil ds, go_append_digits digits, isNumber.go]

theorem unsigned_of_go (look : isNumber.go first seenPoint seenMark cs = true) : Unsigned cs := by
  induction cs generalizing first seenPoint seenMark with
  | nil => exact fun _ member => nomatch member
  | cons c cs ih =>
    rw [isNumber.go] at look
    split at look
    · rename_i digit
      exact List.forall_mem_cons.2 ⟨ne_sign_of_isDigit digit, ih look⟩
    · split at look
      · rename_i point
        obtain rfl : c = '.' := by simp_all
        exact List.forall_mem_cons.2 ⟨by decide, ih look⟩
      · split at look
        · rename_i mark
          have mark : c = 'e' ∨ c = 'E' := by simp_all
          refine List.forall_mem_cons.2 ⟨?_, ih look⟩
          rcases mark with rfl | rfl <;> decide
        · cases look

theorem isDigit_of_isNumber (look : isNumber (c :: cs) = true) : c.isDigit = true := by
  by_contra other
  rw [isNumber, isNumber.go, if_neg other] at look
  simp at look

theorem go_of_isExponent (exponent : IsExponent cs) (unsigned : Unsigned cs) :
    isNumber.go false seenPoint false cs = true := by
  cases exponent with
  | none => rfl
  | plain mark digits some =>
    rcases mark with rfl | rfl <;> simp [isNumber.go, Char.isDigit, some, go_digits digits]
  | signed mark signed digits some =>
    obtain ⟨plus, minus⟩ := unsigned _ (List.mem_cons_of_mem _ List.mem_cons_self)
    exact absurd signed (not_or.2 ⟨plus, minus⟩)

theorem go_append_of_isFraction (fraction : IsFraction ds) (cs : List Char) :
    ∃ seenPoint,
      isNumber.go false false false (ds ++ cs) = isNumber.go false seenPoint false cs := by
  cases fraction with
  | none => exact ⟨false, rfl⟩
  | point digits => exact ⟨true, go_append_digits digits cs⟩

theorem isNumber_of_readUnsigned? {negative : Bool} {x : Decimal.Numeral} (digit : c.isDigit = true)
    (unsigned : Unsigned (c :: cs)) (read : readUnsigned? negative (c :: cs) = some x) :
    isNumber (c :: cs) = true := by
  have other {d : Char} (letter : d.isDigit = false) : c.toLower ≠ d := fun same => by
    rw [Decimal.toLower_of_isDigit digit] at same
    exact Bool.eq_false_iff.1 letter (same ▸ digit)
  obtain ⟨whole, fraction, exponent, parts, decimal⟩ :=
    Decimal.exists_parts (other rfl) (other rfl) read
  have point : c ≠ '.' := by
    rintro rfl
    exact absurd digit (by decide)
  obtain ⟨-, some⟩ := (decimal.head parts).resolve_right point
  rw [parts] at unsigned ⊢
  obtain ⟨seenPoint, after⟩ := go_append_of_isFraction decimal.fraction exponent
  rw [isNumber, List.append_assoc, go_append_digits decimal.digits,
    List.isEmpty_eq_false_iff.2 some, Bool.and_false, after]
  exact go_of_isExponent decimal.exponent fun d member =>
    unsigned d (List.mem_append_right _ member)

/-! What an option that waits for a number takes. -/

variable {f : Flag} {value : String} {i : Invocation}

theorem Flag.Spells.body (numeric : f.takesNegative = true) (spells : f.Spells value i)
    (negative : value.toList = '-' :: ds) :
    (ds ≠ [] ∧ AreDigits ds) ∨ ∃ x, readUnsigned? true ds = some x := by
  cases f with
  | maxNewTokens => exact .inl (Decimal.areDigits_of_readInteger spells negative)
  | temperature | topP =>
    obtain ⟨x, read, -⟩ := map_eq_ok.1 spells
    exact .inr ⟨x, Decimal.readUnsigned?_of_readNumeral read negative⟩
  | _ => cases numeric

theorem Flag.Spells.head (numeric : f.takesNegative = true) (spells : f.Spells value i)
    (negative : value.toList = '-' :: ds) :
    ∃ c cs, ds = c :: cs ∧ c ≠ '-' ∧ Switch.ofLetter? c = none := by
  have starts : ∃ c cs, ds = c :: cs ∧
      (c.toLower = 'i' ∨ c.toLower = 'n' ∨ c.isDigit = true ∨ c = '.') := by
    rcases spells.body numeric negative with ⟨some, digits⟩ | ⟨x, read⟩
    · obtain ⟨c, cs, rfl⟩ := List.exists_cons_of_ne_nil some
      exact ⟨c, cs, rfl, .inr (.inr (.inl (digits c List.mem_cons_self)))⟩
    · exact Decimal.head_of_readUnsigned? read
  obtain ⟨c, cs, rfl, first⟩ := starts
  have other {d : Char}
      (none : ¬ (d.toLower = 'i' ∨ d.toLower = 'n' ∨ d.isDigit = true ∨ d = '.')) : d ≠ c :=
    fun same => none (same ▸ first)
  have help : 'h' ≠ c := other (by decide)
  have version : 'V' ≠ c := other (by decide)
  refine ⟨c, cs, rfl, (other (by decide)).symm, ?_⟩
  simp [Switch.ofLetter?, Switch.letter, help, version]

theorem takes_negative (numeric : f.takesNegative = true) (other : c ≠ '-') :
    f.takes ('-' :: c :: cs) = isNumber (c :: cs) := by
  have some : f.takesAnything = false := by cases f <;> first | rfl | cases numeric
  unfold Flag.takes
  split
  · rename_i same
    cases same
    exact absurd rfl other
  · rename_i same
    cases same
    rw [some, numeric, Bool.false_or, Bool.true_and]
  · rename_i none
    exact absurd rfl (none c cs)

theorem takes_of_head (other : cs.head? ≠ some '-') : f.takes cs = true := by
  unfold Flag.takes
  split <;> simp_all

theorem takes_iff_isPlain (numeric : f.takesNegative = true) (spells : f.Spells value i) :
    f.takes value.toList = true ↔ IsPlain value.toList := by
  by_cases negative : value.toList.head? = some '-'
  · obtain ⟨ds, written⟩ := List.head?_eq_some_iff.1 negative
    obtain ⟨c, cs, rfl, other, -⟩ := spells.head numeric written
    rw [written, takes_negative numeric other]
    constructor
    · rintro look _ ⟨⟩
      exact ⟨⟨c, rfl, isDigit_of_isNumber look⟩, unsigned_of_go look⟩
    · intro plain
      obtain ⟨⟨d, first, digit⟩, unsigned⟩ := plain _ rfl
      obtain rfl := Option.some.inj first
      rcases spells.body numeric written with ⟨-, digits⟩ | ⟨x, read⟩
      · exact go_digits digits
      · exact isNumber_of_readUnsigned? digit unsigned read
  · exact iff_of_true (takes_of_head negative) (isPlain_of_head negative)

theorem isPlain_of_readInteger {n : Int64} (read : Decimal.readInteger value = .ok n) :
    IsPlain value.toList := by
  intro ds negative
  obtain ⟨some, digits⟩ := Decimal.areDigits_of_readInteger read negative
  exact isPlain_of_areDigits some digits ds rfl

/-! The two ways to write a number. -/

variable {before after : List Setting} {tail : List String} {form : Form}

theorem Describes.write (form' : Form)
    (describes : Describes (before ++ ⟨f, value, form⟩ :: after) i) :
    Describes (before ++ ⟨f, value, form'⟩ :: after) i := by
  have same : flags (before ++ ⟨f, value, form'⟩ :: after) =
      flags (before ++ ⟨f, value, form⟩ :: after) := by simp [flags]
  obtain ⟨once, required, given, omitted⟩ := describes
  refine ⟨same ▸ once, same ▸ required, ?_, same ▸ omitted⟩
  simpa only [List.forall_mem_append, List.forall_mem_cons] using given

theorem Describes.exists_state {r : Setting} (describes : Describes (before ++ r :: after) i) :
    ∃ s d, before.foldlM State.next {} = .ok s ∧ s.settle = .ok d := by
  have made := Draft.foldlM_set_eq_ok_iff.2 describes.takes
  rw [List.foldlM_append] at made
  obtain ⟨d, first, -⟩ := bind_eq_ok.1 made
  have settled : (before.foldlM State.next {} >>= State.settle) = before.foldlM Draft.set {} :=
    foldlM_next_settle {} before
  rw [first] at settled
  obtain ⟨s, next, settled⟩ := bind_eq_ok.1 settled
  exact ⟨s, d, next, settled⟩

theorem readOption_unknown {s : State} {rest : List String} (other : c ≠ '-')
    (letter : Switch.ofLetter? c = none) : readArguments.readOption s ('-' :: c :: cs) rest =
      .error (.unknownArgument (String.ofList ['-', c]) none []) := by
  rw [readArguments.readOption.eq_def]
  split
  · rename_i same
    cases same
    exact absurd rfl other
  · rename_i same
    cases same
    exact absurd rfl other
  · rename_i same
    cases same
    rw [letter]
  · rename_i none
    exact absurd rfl (none c cs)

theorem readArguments_refused (numeric : f.takesNegative = true) (spells : f.Spells value i)
    (refused : ¬ IsPlain value.toList) (d : Draft) (rest : List String) :
    ∃ c ∈ value.toList[1]?,
      readArguments { draft := d, pending := some (f, none) } (value :: rest) =
        .error (.unknownArgument (String.ofList ['-', c]) none []) := by
  have negative : value.toList.head? = some '-' := by_contra fun other =>
    refused (isPlain_of_head other)
  obtain ⟨ds, written⟩ := List.head?_eq_some_iff.1 negative
  obtain ⟨c, cs, rfl, other, letter⟩ := spells.head numeric written
  have untaken := mt (takes_iff_isPlain numeric spells).1 refused
  refine ⟨c, by rw [written]; rfl, ?_⟩
  rw [readArguments]
  simp only [State.awaiting?, if_neg untaken]
  rw [written]
  exact readOption_unknown other letter

/-- As an argument of its own a number that is not plain is refused, whatever else is set. -/
theorem parse_line_refused (numeric : f.takesNegative = true) (taken : ∀ r ∈ before, r.IsTaken)
    (describes : Describes (before ++ ⟨f, value, form⟩ :: after) i)
    (refused : ¬ IsPlain value.toList) : ∃ c ∈ value.toList[1]?,
      parse (line (before ++ ⟨f, value, .apart⟩ :: after) ++ tail) =
        .error (.unknownArgument (String.ofList ['-', c]) none []) := by
  have spells : f.Spells value i :=
    describes.given ⟨f, value, form⟩ (List.mem_append_right _ List.mem_cons_self)
  obtain ⟨s, d, made, settled⟩ := describes.exists_state
  obtain ⟨c, second, refuses⟩ :=
    readArguments_refused numeric spells refused d (line after ++ tail)
  have idle : s.awaiting? = none := foldlM_next_idle rfl made
  have split := splitValue_alone f.plain_name
  rw [String.ofList_toList] at split
  have written : line (before ++ ⟨f, value, .apart⟩ :: after) ++ tail =
      line before ++ ("--" ++ f.name) :: value :: (line after ++ tail) := by
    simp [line, Setting.arguments]
  have reaches : parse (line (before ++ ⟨f, value, .apart⟩ :: after) ++ tail) =
      readArguments s (("--" ++ f.name) :: value :: (line after ++ tail)) := by
    rw [parse, written, readArguments_line rfl taken, made]
    rfl
  refine ⟨c, second, ?_⟩
  rw [reaches, readArguments_idle idle, toList_alone, readOption_alone split, settled]
  exact refuses

/-- An option that takes numbers below zero is given a number among other settings, and all together
describe an invocation. With an equals sign the line asks for the invocation. With the number as an
argument of its own it does so if the number is plain, as every whole number is; otherwise the minus
sign and the character after it are refused as an option that nobody knows. -/
theorem parse_spellings {before after : List Setting} {tail : List String}
    (numeric : f.takesNegative = true) (ends : IsEnd tail)
    (taken : ∀ r ∈ before ++ after, r.IsTaken)
    (describes : Describes (before ++ ⟨f, value, .joined⟩ :: after) i) :
    parse (line (before ++ ⟨f, value, .joined⟩ :: after) ++ tail) = .ok (.invoke i) ∧
    (IsPlain value.toList →
      parse (line (before ++ ⟨f, value, .apart⟩ :: after) ++ tail) = .ok (.invoke i)) ∧
    (¬ IsPlain value.toList → ∃ c ∈ value.toList[1]?,
      parse (line (before ++ ⟨f, value, .apart⟩ :: after) ++ tail) =
        .error (.unknownArgument (String.ofList ['-', c]) none [])) ∧
    (f = .maxNewTokens → IsPlain value.toList) := by
  have spells : f.Spells value i :=
    describes.given ⟨f, value, .joined⟩ (List.mem_append_right _ List.mem_cons_self)
  obtain ⟨takenBefore, takenAfter⟩ := List.forall_mem_append.1 taken
  have asks (form : Form) (own : Setting.IsTaken ⟨f, value, form⟩) :
      parse (line (before ++ ⟨f, value, form⟩ :: after) ++ tail) = .ok (.invoke i) := by
    refine (parse_line_eq_ok_iff ends ?_).2 ⟨i, describes.write form, rfl⟩
    exact List.forall_mem_append.2 ⟨takenBefore, List.forall_mem_cons.2 ⟨own, takenAfter⟩⟩
  refine ⟨asks .joined nofun, fun plain => asks .apart fun _ => ?_,
    parse_line_refused numeric takenBefore describes, ?_⟩
  · exact (takes_iff_isPlain numeric spells).2 plain
  · rintro rfl
    exact isPlain_of_readInteger spells

namespace Frozen

def others : List Setting := [⟨.modelPath, "/m", .apart⟩, ⟨.prompt, "p", .apart⟩]

def invocation (temperature : Decimal.Numeral) : Invocation :=
  { modelPath := "/m", prompt := "p", params := { temperature := temperature.toFloat } }

theorem isTaken : ∀ r ∈ others, r.IsTaken := by
  simp only [others, List.forall_mem_cons]
  exact ⟨fun _ => rfl, fun _ => rfl, nofun⟩

theorem describes {text : String} {temperature : Decimal.Numeral}
    (read : Decimal.readNumeral text = .ok temperature) :
    Describes (others ++ [⟨.temperature, text, .joined⟩]) (invocation temperature) := by
  have given : flags (others ++ [⟨.temperature, text, .joined⟩]) =
      [.modelPath, .prompt, .temperature] := rfl
  refine ⟨?_, fun f needed => ?_, ?_, fun f absent => ?_⟩
  · rw [given]
    decide
  · rw [given]
    cases f <;> first | decide | cases needed
  · simp only [others, List.cons_append, List.nil_append, List.forall_mem_cons]
    exact ⟨⟨rfl, by decide⟩, rfl, map_eq_ok.2 ⟨temperature, read, rfl⟩, nofun⟩
  · rw [given] at absent
    cases f <;> first | rfl | exact absurd (by decide) absent

def minusOneAndAHalf : Decimal.Numeral := .finite true 15 (-1)

def minusAHalf : Decimal.Numeral := .finite true 5 (-1)

theorem isPlain_minusOneAndAHalf : IsPlain "-1.5".toList := by
  intro ds written
  obtain rfl : ['1', '.', '5'] = ds := (List.cons.inj written).2
  exact ⟨⟨'1', rfl, rfl⟩, by simp [Unsigned]⟩

theorem not_isPlain_minusAHalf : ¬ IsPlain "-.5".toList := by
  intro plain
  obtain ⟨⟨c, first, digit⟩, -⟩ := plain ['.', '5'] rfl
  obtain rfl := Option.some.inj first
  exact absurd digit (by decide)

end Frozen

theorem parse_minusOneAndAHalf :
    parse ["--model-path", "/m", "--prompt", "p", "--temperature", "-1.5"] =
      .ok (.invoke (Frozen.invocation Frozen.minusOneAndAHalf)) := by
  have arguments : line (Frozen.others ++ [⟨.temperature, "-1.5", .apart⟩]) ++ [] =
      ["--model-path", "/m", "--prompt", "p", "--temperature", "-1.5"] := by rfl
  rw [← arguments]
  exact (parse_spellings rfl (.inl rfl) (by simpa using Frozen.isTaken) (Frozen.describes rfl)).2.1
    Frozen.isPlain_minusOneAndAHalf

/-- A numeral that begins with its point is read after an equals sign, and is refused as an argument
of its own. -/
theorem exists_one_spelling :
    parse ["--model-path", "/m", "--prompt", "p", "--temperature=-.5"] =
      .ok (.invoke (Frozen.invocation Frozen.minusAHalf)) ∧
    parse ["--model-path", "/m", "--prompt", "p", "--temperature", "-.5"] =
      .error (.unknownArgument "-." none []) := by
  have read : Decimal.readNumeral "-.5" = .ok Frozen.minusAHalf := rfl
  have describes := Frozen.describes read
  constructor
  · have arguments : line (Frozen.others ++ [⟨.temperature, "-.5", .joined⟩]) ++ [] =
        ["--model-path", "/m", "--prompt", "p", "--temperature=-.5"] := by rfl
    rw [← arguments]
    refine (parse_line_eq_ok_iff (.inl rfl) ?_).2 ⟨_, describes, rfl⟩
    exact List.forall_mem_append.2 ⟨Frozen.isTaken, List.forall_mem_singleton.2 nofun⟩
  · have arguments : line (Frozen.others ++ [⟨.temperature, "-.5", .apart⟩]) ++ [] =
        ["--model-path", "/m", "--prompt", "p", "--temperature", "-.5"] := by rfl
    obtain ⟨c, second, refused⟩ := parse_line_refused rfl Frozen.isTaken describes
      Frozen.not_isPlain_minusAHalf
    obtain rfl := Option.some.inj second
    rw [← arguments]
    exact refused

end TextCompletion.CommandLine
