import Mathlib.Logic.Function.Iterate
import TextCompletion.Verbosity

/-!
What the quiet default does to the variable that chooses the verbosity. An unset variable is filled
and one that holds a text is left alone, as is promised to whoever set it. Bytes that are no text
are overwritten, though, as if the variable were unset: the promise is kept exactly for what can be
read. In each case the verbosity is the one that the variable chooses afterwards, and to ask again
changes nothing.
-/

namespace TextCompletion.Verbosity

/-- The variable is unset, or holds some text. -/
def Setting.IsReadable (s : Setting) : Prop := ∀ bytes ∈ s, ∃ text : String, text.toUTF8 = bytes

def Setting.level (s : Setting) : Verbosity := (s.text?.map parse).getD .error

/-- Fills the variable where it is unset, and otherwise leaves it alone. -/
structure Spares (before after : Setting) : Prop where
  kept : ∀ bytes, before = some bytes → after = some bytes
  filled : before = none → after = some quietWord.toUTF8

theorem text?_toUTF8 (text : String) : Setting.text? (some text.toUTF8) = some text := by
  rw [Setting.text?, Option.bind_some, String.fromUTF8?, String.toUTF8_eq_toByteArray,
    dif_pos text.isValidUTF8]
  rfl

theorem toUTF8_of_text? {s : Setting} {text : String} (reads : s.text? = some text) :
    s = some text.toUTF8 := by
  obtain ⟨bytes, rfl, decoded⟩ := Option.bind_eq_some_iff.mp reads
  rw [String.fromUTF8?] at decoded
  split at decoded
  · cases decoded
    rfl
  · contradiction

theorem Setting.isReadable_iff (s : Setting) :
    s.IsReadable ↔ s = none ∨ ∃ text, s.text? = some text := by
  constructor
  · intro readable
    cases s with
    | none => exact .inl rfl
    | some bytes =>
      obtain ⟨text, rfl⟩ := readable bytes rfl
      exact .inr ⟨text, text?_toUTF8 text⟩
  · rintro (rfl | ⟨text, reads⟩) bytes held
    · cases held
    · rw [toUTF8_of_text? reads] at held
      exact ⟨text, Option.mem_some.mp held⟩

theorem applyQuietDefault_of_text {s : Setting} {text : String} (reads : s.text? = some text) :
    applyQuietDefault s = (parse text, s) := by
  simp only [applyQuietDefault, quietDefault, reads, Option.getD_some]

theorem applyQuietDefault_of_no_text {s : Setting} (unread : s.text? = none) :
    applyQuietDefault s = (parse quietWord, some quietWord.toUTF8) := by
  simp only [applyQuietDefault, quietDefault, unread]

theorem applyQuietDefault_reads (s : Setting) :
    ∃ text, (applyQuietDefault s).2.text? = some text ∧ (applyQuietDefault s).1 = parse text := by
  cases reads : s.text? with
  | some text => exact ⟨text, by rw [applyQuietDefault_of_text reads, reads], by
      rw [applyQuietDefault_of_text reads]⟩
  | none => exact ⟨quietWord, by rw [applyQuietDefault_of_no_text reads, text?_toUTF8], by
      rw [applyQuietDefault_of_no_text reads]⟩

theorem applyQuietDefault_level (s : Setting) :
    (applyQuietDefault s).1 = (applyQuietDefault s).2.level := by
  obtain ⟨text, reads, level⟩ := applyQuietDefault_reads s
  rw [level, Setting.level, reads, Option.map_some, Option.getD_some]

theorem applyQuietDefault_again (s : Setting) :
    applyQuietDefault (applyQuietDefault s).2 = applyQuietDefault s := by
  obtain ⟨text, reads, level⟩ := applyQuietDefault_reads s
  rw [applyQuietDefault_of_text reads, ← level]

theorem spares_iff (s : Setting) : Spares s (applyQuietDefault s).2 ↔ s.IsReadable := by
  rw [Setting.isReadable_iff]
  constructor
  · intro spares
    cases s with
    | none => exact .inl rfl
    | some bytes =>
      obtain ⟨text, reads, _⟩ := applyQuietDefault_reads (some bytes)
      rw [spares.kept bytes rfl] at reads
      exact .inr ⟨text, reads⟩
  · rintro (rfl | ⟨text, reads⟩)
    · refine ⟨?_, fun _ => rfl⟩
      rintro bytes ⟨⟩
    · rw [applyQuietDefault_of_text reads]
      refine ⟨fun _ held => held, ?_⟩
      rintro rfl
      cases reads

/-- A variable that is set is spared exactly if it holds a text, and is quietened otherwise. The
verbosity is that of the value afterwards, and any number of further calls neither changes the
variable nor gives another verbosity. -/
theorem applyQuietDefault_spares_iff (current : Setting) :
    (Spares current (applyQuietDefault current).2 ↔ current.IsReadable) ∧
      (¬current.IsReadable →
        applyQuietDefault current = (.error, some quietWord.toUTF8)) ∧
      (applyQuietDefault current).1 = (applyQuietDefault current).2.level ∧
      ∀ calls, applyQuietDefault ((fun s => (applyQuietDefault s).2)^[calls + 1] current) =
        applyQuietDefault current := by
  refine ⟨spares_iff current, ?_, applyQuietDefault_level current, fun calls => ?_⟩
  · intro unreadable
    have unread : current.text? = none :=
      Option.eq_none_iff_forall_ne_some.mpr fun text reads =>
        unreadable (current.isReadable_iff.mpr (.inr ⟨text, reads⟩))
    rw [applyQuietDefault_of_no_text unread]
    have quiet : parse quietWord = .error := by decide
    rw [quiet]
  · have settled : (applyQuietDefault (applyQuietDefault current).2).2 =
        (applyQuietDefault current).2 := by
      rw [applyQuietDefault_again]
    rw [Function.iterate_succ_apply, Function.iterate_fixed settled, applyQuietDefault_again]

theorem not_spares_lone_byte :
    ¬Spares (some ⟨#[0xFF]⟩) (applyQuietDefault (some ⟨#[0xFF]⟩)).2 := by
  intro spares
  obtain ⟨text, reads, _⟩ := applyQuietDefault_reads (some ⟨#[0xFF]⟩)
  rw [spares.kept _ rfl] at reads
  have unread : Setting.text? (some ⟨#[0xFF]⟩) = none := by decide
  rw [unread] at reads
  cases reads

end TextCompletion.Verbosity
