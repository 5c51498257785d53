import TextCompletion.CommandLine
import TextCompletion.Proofs.Decimal.Numerals
import TextCompletion.Proofs.Results
import Mathlib.Data.List.Nodup

/-!
What the values of options make of an invocation. An option stands for one field of it. Main
statements: a value is read exactly if it denotes what the field then holds, and no other field
changes; and options are given one after the other without a fault exactly if none is given twice
and each is given a value that is read, whatever their order.
-/

namespace TextCompletion.CommandLine

namespace Flag

def Spells (f : Flag) (text : String) (i : Invocation) : Prop :=
  match f with
  | modelPath => text = i.modelPath ∧ text ≠ ""
  | prompt => text = i.prompt
  | maxNewTokens => Decimal.readInteger text = .ok i.params.maxNewTokens
  | temperature => Decimal.readFloat text = .ok i.params.temperature
  | topP => Decimal.readFloat text = .ok i.params.topP
  | seed => Decimal.readNatural Decimal.wordBound text = .ok i.params.seed.toNat
  | repetitionPenalty => Decimal.readFloat32 text = .ok i.params.repetitionPenalty
  | repeatLastN => Decimal.readNatural Decimal.wordBound text = .ok i.params.repeatLastN

def Same (f : Flag) (i j : Invocation) : Prop :=
  match f with
  | modelPath => i.modelPath = j.modelPath
  | prompt => i.prompt = j.prompt
  | maxNewTokens => i.params.maxNewTokens = j.params.maxNewTokens
  | temperature => i.params.temperature = j.params.temperature
  | topP => i.params.topP = j.params.topP
  | seed => i.params.seed = j.params.seed
  | repetitionPenalty => i.params.repetitionPenalty = j.params.repetitionPenalty
  | repeatLastN => i.params.repeatLastN = j.params.repeatLastN

variable {f : Flag} {value : String} {i j k : Invocation}

theorem Same.refl (f : Flag) (i : Invocation) : f.Same i i := by
  cases f <;> rfl

theorem Same.symm (same : f.Same i j) : f.Same j i := by
  cases f <;> exact Eq.symm same

theorem Same.trans (first : f.Same i j) (second : f.Same j k) : f.Same i k := by
  cases f <;> exact Eq.trans first second

theorem eq_of_same (same : ∀ f : Flag, f.Same i j) : i = j := by
  obtain ⟨path, prompt, n, temperature, topP, seed, penalty, last⟩ := i
  obtain ⟨path', prompt', n', temperature', topP', seed', penalty', last'⟩ := j
  obtain rfl : path = path' := same .modelPath
  obtain rfl : prompt = prompt' := same .prompt
  obtain rfl : n = n' := same .maxNewTokens
  obtain rfl : temperature = temperature' := same .temperature
  obtain rfl : topP = topP' := same .topP
  obtain rfl : seed = seed' := same .seed
  obtain rfl : penalty = penalty' := same .repetitionPenalty
  obtain rfl : last = last' := same .repeatLastN
  rfl

theorem Spells.same (first : f.Spells value i) (second : f.Spells value j) : f.Same i j := by
  cases f with
  | modelPath => exact first.1.symm.trans second.1
  | prompt => exact Eq.trans (Eq.symm first) second
  | seed => exact UInt64.toNat_inj.1 (Except.ok.inj (first.symm.trans second))
  | _ => exact Except.ok.inj (first.symm.trans second)

theorem Spells.congr (spells : f.Spells value i) (same : f.Same i j) : f.Spells value j := by
  cases f <;> simp only [Same] at same <;> simpa only [Spells, same] using spells

theorem exists_read (spells : f.Spells value j) (i : Invocation) : ∃ k, f.read value i = .ok k := by
  cases f with
  | modelPath => exact ⟨_, if_neg (by simpa using spells.2)⟩
  | prompt => exact ⟨_, rfl⟩
  | _ =>
    simp only [Spells] at spells
    simp only [Flag.read, spells, Except.map]
    exact ⟨_, rfl⟩

theorem spells_of_read (read : f.read value i = .ok j) :
    f.Spells value j ∧ ∀ g, g ≠ f → g.Same i j := by
  cases f <;> simp only [Flag.read] at read
  case modelPath =>
    split at read
    · cases read
    · rename_i some
      cases read
      exact ⟨⟨rfl, by simpa using some⟩, fun g other => by cases g <;> simp_all [Same]⟩
  case prompt =>
    cases read
    exact ⟨rfl, fun g other => by cases g <;> simp_all [Same]⟩
  case seed =>
    split at read
    · rename_i p made
      obtain ⟨n, denotes, rfl⟩ := map_eq_ok.1 made
      cases read
      have small : n < 2 ^ 64 := Nat.lt_of_le_of_lt (Decimal.readNatural_le denotes) (by decide)
      have kept : (UInt64.ofNat n).toNat = n := UInt64.toNat_ofNat_of_lt' small
      exact ⟨denotes.trans (congrArg _ kept.symm), fun g other => by cases g <;> simp_all [Same]⟩
    · cases read
  all_goals
    split at read
    · rename_i p made
      obtain ⟨n, denotes, rfl⟩ := map_eq_ok.1 made
      cases read
      exact ⟨denotes, fun g other => by cases g <;> simp_all [Same]⟩
    · cases read

/-- A value is read if it denotes what the field then holds, and no other field changes. -/
theorem read_eq_ok_iff : f.read value i = .ok j ↔ f.Spells value j ∧ ∀ g, g ≠ f → g.Same i j := by
  refine ⟨spells_of_read, fun ⟨spells, others⟩ => ?_⟩
  obtain ⟨k, read⟩ := exists_read spells i
  obtain ⟨spells', others'⟩ := spells_of_read read
  have same : k = j := eq_of_same fun g => by
    by_cases own : g = f
    · exact own ▸ spells'.same spells
    · exact (others' g own).symm.trans (others g own)
  rw [read, same]

end Flag

/-- How an option and its value are written: as one argument with an equals sign between, or as two.
-/
inductive Form where
  | joined
  | apart
  deriving DecidableEq, Repr

structure Setting where
  flag : Flag
  value : String
  form : Form := .joined
  deriving DecidableEq, Repr

def flags (settings : List Setting) : List Flag := settings.map Setting.flag

def unset : Invocation := { modelPath := "", prompt := "" }

/-- The settings give every option at most once, none that is required is left out, and the
invocation has the values that they denote and otherwise the defaults. -/
structure Describes (settings : List Setting) (i : Invocation) : Prop where
  once : (flags settings).Nodup
  required : ∀ f : Flag, f.isRequired = true → f ∈ flags settings
  given : ∀ s ∈ settings, s.flag.Spells s.value i
  omitted : ∀ f : Flag, f ∉ flags settings → f.Same unset i

namespace Draft

def set (d : Draft) (s : Setting) : Except UsageError Draft := d.assign s.flag s.value

/-- A draft into which settings were taken: none is for an option that was given before, and no
field changes but those of their options. -/
structure Takes (d : Draft) (settings : List Setting) (d' : Draft) : Prop where
  once : (flags settings).Nodup
  fresh : ∀ f ∈ flags settings, f ∉ d.given
  given : d'.given = d.given ++ flags settings
  spelled : ∀ s ∈ settings, s.flag.Spells s.value d'.invocation
  others : ∀ f, f ∉ flags settings → f.Same d.invocation d'.invocation

variable {d d' e : Draft} {s : Setting} {settings : List Setting}

theorem eq_of_takes_nil (takes : d.Takes [] d') : d = d' := by
  have given := takes.given
  have invocation := Flag.eq_of_same fun f => takes.others f List.not_mem_nil
  cases d
  cases d'
  simp_all [flags]

theorem takes_nil (d : Draft) : d.Takes [] d where
  once := List.nodup_nil
  fresh _ member := nomatch member
  given := (List.append_nil _).symm
  spelled _ member := nomatch member
  others f _ := Flag.Same.refl f _

theorem takes_of_set (made : d.set s = .ok e) : d.Takes [s] e := by
  rw [set, assign] at made
  split at made
  · cases made
  · rename_i fresh
    obtain ⟨i, read, rfl⟩ := map_eq_ok.1 made
    obtain ⟨spells, others⟩ := Flag.read_eq_ok_iff.1 read
    refine ⟨List.nodup_singleton _, ?_, rfl, ?_, fun f absent => others f ?_⟩
    · simpa [flags] using fresh
    · simpa using spells
    · simpa [flags] using absent

theorem exists_set {i : Invocation} (fresh : s.flag ∉ d.given) (spells : s.flag.Spells s.value i) :
    ∃ e, d.set s = .ok e := by
  obtain ⟨j, read⟩ := Flag.exists_read spells d.invocation
  rw [set, assign, if_neg (by simpa using fresh), read]
  exact ⟨_, rfl⟩

theorem Takes.cons (first : d.Takes [s] e) (rest : e.Takes settings d') :
    d.Takes (s :: settings) d' := by
  have given : e.given = d.given ++ [s.flag] := first.given
  have new : s.flag ∉ flags settings := fun later => by
    simpa [given] using rest.fresh s.flag later
  refine ⟨List.nodup_cons.2 ⟨new, rest.once⟩, ?_, ?_, ?_, fun f absent => ?_⟩
  · refine List.forall_mem_cons.2 ⟨first.fresh s.flag List.mem_cons_self, fun f later => ?_⟩
    have fresh := rest.fresh f later
    rw [given] at fresh
    exact fun before => fresh (List.mem_append_left _ before)
  · rw [rest.given, given, List.append_assoc]
    rfl
  · refine List.forall_mem_cons.2 ⟨?_, rest.spelled⟩
    exact (first.spelled s List.mem_cons_self).congr (rest.others s.flag new)
  · obtain ⟨other, later⟩ := not_or.1 (mt List.mem_cons.2 absent)
    exact (first.others f (by simpa [flags] using other)).trans (rest.others f later)

theorem Takes.of_cons (made : d.set s = .ok e) (takes : d.Takes (s :: settings) d') :
    e.Takes settings d' := by
  have first := takes_of_set made
  have given : e.given = d.given ++ [s.flag] := first.given
  obtain ⟨new, once⟩ := List.nodup_cons.1 takes.once
  refine ⟨once, fun f later => ?_, ?_, fun r member => takes.spelled r (.tail _ member), ?_⟩
  · rw [given, List.mem_append, List.mem_singleton, not_or]
    exact ⟨takes.fresh f (.tail _ later), fun own => new (own ▸ later)⟩
  · rw [takes.given, given, List.append_assoc]
    rfl
  · intro f absent
    by_cases own : f = s.flag
    · subst own
      exact (first.spelled s List.mem_cons_self).same (takes.spelled s List.mem_cons_self)
    · have before := first.others f (by simpa [flags] using own)
      exact before.symm.trans (takes.others f (mt List.mem_cons.1 (not_or.2 ⟨own, absent⟩)))

theorem foldlM_set_eq_ok_iff : settings.foldlM set d = .ok d' ↔ d.Takes settings d' := by
  induction settings generalizing d with
  | nil =>
    constructor
    · intro made
      obtain rfl := Except.ok.inj made
      exact takes_nil d
    · intro takes
      rw [eq_of_takes_nil takes]
      rfl
  | cons s settings ih =>
    rw [List.foldlM_cons, bind_eq_ok]
    constructor
    · rintro ⟨e, made, later⟩
      exact (takes_of_set made).cons (ih.1 later)
    · intro takes
      obtain ⟨e, made⟩ := exists_set (takes.fresh s.flag List.mem_cons_self)
        (takes.spelled s List.mem_cons_self)
      exact ⟨e, made, ih.2 (takes.of_cons made)⟩

/-- Where each value is read, the only fault is that an option is given twice. -/
theorem repeated_of_foldlM_set {fault : UsageError}
    (readable : ∀ s ∈ settings, ∃ i, s.flag.Spells s.value i)
    (fails : settings.foldlM set d = .error fault) :
    ∃ f, fault = .repeated f ∧ 1 < (d.given ++ flags settings).count f := by
  induction settings generalizing d with
  | nil => cases fails
  | cons s settings ih =>
    obtain ⟨⟨i, spells⟩, readable⟩ := List.forall_mem_cons.1 readable
    rw [List.foldlM_cons] at fails
    by_cases again : s.flag ∈ d.given
    · have refused : d.set s = .error (.repeated s.flag) := if_pos (by simpa using again)
      rw [refused] at fails
      cases fails
      have before : 0 < d.given.count s.flag := List.count_pos_iff.2 again
      exact ⟨s.flag, rfl, by simp [flags]; omega⟩
    · obtain ⟨e, made⟩ := exists_set again spells
      rw [made] at fails
      obtain ⟨f, same, twice⟩ := ih readable fails
      rw [(takes_of_set made).given, List.append_assoc] at twice
      exact ⟨f, same, twice⟩

end Draft

theorem Describes.takes {settings : List Setting} {i : Invocation}
    (describes : Describes settings i) : Draft.Takes {} settings ⟨flags settings, i⟩ where
  once := describes.once
  fresh _ _ := List.not_mem_nil
  given := rfl
  spelled := describes.given
  others := describes.omitted

end TextCompletion.CommandLine
