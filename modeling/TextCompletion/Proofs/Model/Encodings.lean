import TextCompletion.Model.Seq2Seq
import Mathlib.Data.List.Induction

/-!
Prompts encoded and tokens taken in any order, each call succeeding or not. What a step looks at is
decided by the last encoding that succeeded: later ones that fail leave it in force, and steps do
not touch it. Main statement: how every call ends after any calls before it, for any encoder and
decoder.
-/

namespace TextCompletion.EncoderDecoder

inductive Call where
  | encode (prompt : List Nat)
  | step (tokens : List Nat) (offset : Nat)

variable {Encoded Cache : Type} [Inhabited Cache] (c : EncoderDecoder Encoded Cache)

def next (s : State Encoded Cache) : Call → State Encoded Cache
  | .encode prompt => (c.encode s prompt).2
  | .step tokens offset => (c.step s tokens offset).2

def after (calls : List Call) : State Encoded Cache := calls.foldl c.next {}

/-- After these calls the prompt can be encoded. -/
def Encodes (before : List Call) (prompt : List Nat) : Prop :=
  (c.encode (c.after before) prompt).1 = .ok ()

/-- None of the calls that follow others encodes a prompt. -/
def NoneEncodes (before calls : List Call) : Prop :=
  ∀ between prompt rest, calls = between ++ .encode prompt :: rest →
    ¬c.Encodes (before ++ between) prompt

def LastEncodes (calls : List Call) (prompt : List Nat) : Prop :=
  ∃ before later, calls = before ++ .encode prompt :: later ∧ c.Encodes before prompt ∧
    c.NoneEncodes (before ++ [.encode prompt]) later

variable {c} {s : State Encoded Cache} {before calls : List Call} {prompt : List Nat}

theorem after_append (before calls : List Call) :
    c.after (before ++ calls) = calls.foldl c.next (c.after before) :=
  List.foldl_append

theorem after_concat (calls : List Call) (call : Call) :
    c.after (calls ++ [call]) = c.next (c.after calls) call := by
  rw [after_append, List.foldl_cons, List.foldl_nil]

/-! One call. -/

theorem encode_cases (s : State Encoded Cache) (prompt : List Nat) :
    (∃ encoded, prompt ≠ [] ∧ c.encoder prompt = .ok encoded ∧
        c.encode s prompt = (.ok (), { encoded := some encoded })) ∨
      ∃ f, (c.encode s prompt).1 = .error f ∧ (c.encode s prompt).2.encoded = s.encoded := by
  by_cases given : prompt = []
  · subst given
    exact .inr ⟨_, rfl, rfl⟩
  · cases made : c.encoder prompt with
    | ok encoded => exact .inl ⟨encoded, given, rfl, encode_of_ok given made⟩
    | error f =>
      rw [encode_of_error given made]
      exact .inr ⟨_, rfl, rfl⟩

theorem Encodes.state (encodes : c.Encodes before prompt) :
    ∃ encoded, c.encoder prompt = .ok encoded ∧
      (c.encode (c.after before) prompt).2 = { encoded := some encoded } := by
  unfold Encodes at encodes
  rcases encode_cases (c.after before) prompt with ⟨encoded, -, made, state⟩ | ⟨f, failed, -⟩
  · exact ⟨encoded, made, by rw [state]⟩
  · rw [failed] at encodes
    cases encodes

theorem not_encodes_nil : ¬c.Encodes before [] := by
  unfold Encodes
  rw [encode_nil]
  exact nofun

theorem not_encodes_of_error {f : Failure} (failed : c.encoder prompt = .error f) :
    ¬c.Encodes before prompt := by
  intro encodes
  obtain ⟨encoded, made, -⟩ := encodes.state
  rw [failed] at made
  cases made

theorem encode_keeps (fails : ¬c.Encodes before prompt) :
    (c.encode (c.after before) prompt).2.encoded = (c.after before).encoded := by
  rcases encode_cases (c.after before) prompt with ⟨encoded, -, -, state⟩ | ⟨f, -, kept⟩
  · exact absurd (congrArg Prod.fst state) fails
  · exact kept

theorem step_keeps (s : State Encoded Cache) (tokens : List Nat) (offset : Nat) :
    (c.step s tokens offset).2.encoded = s.encoded := by
  cases kept : s.encoded with
  | none => rw [step_of_none kept, kept]
  | some encoded => rw [step_of_some kept]; exact kept

/-! Calls in a row. -/

theorem noneEncodes_nil : c.NoneEncodes before [] := by
  intro between prompt rest whole
  exact absurd whole.symm (List.append_ne_nil_of_right_ne_nil _ (List.cons_ne_nil _ _))

theorem NoneEncodes.of_concat {call : Call} (fails : c.NoneEncodes before (calls ++ [call])) :
    c.NoneEncodes before calls := by
  rintro between prompt rest rfl
  refine fails between prompt (rest ++ [call]) ?_
  rw [List.append_assoc, List.cons_append]

theorem NoneEncodes.concat {call : Call} (fails : c.NoneEncodes before calls)
    (last : ∀ prompt, call = .encode prompt → ¬c.Encodes (before ++ calls) prompt) :
    c.NoneEncodes before (calls ++ [call]) := by
  intro between prompt rest whole
  rcases List.eq_nil_or_concat rest with rfl | ⟨rest, other, rfl⟩
  · obtain ⟨rfl, same⟩ := List.append_inj' whole rfl
    exact last prompt (List.singleton_inj.1 same)
  · rw [List.concat_eq_append, ← List.cons_append, ← List.append_assoc] at whole
    obtain ⟨rfl, -⟩ := List.append_inj' whole rfl
    exact fails between prompt rest rfl

theorem NoneEncodes.encoded (fails : c.NoneEncodes before calls) :
    (c.after (before ++ calls)).encoded = (c.after before).encoded := by
  induction calls using List.reverseRecOn with
  | nil => rw [List.append_nil]
  | append_singleton calls call ih =>
    rw [← List.append_assoc, after_concat, ← ih fails.of_concat]
    cases call with
    | encode prompt => exact encode_keeps (fails calls prompt [] rfl)
    | step tokens offset => exact step_keeps _ tokens offset

theorem LastEncodes.encoded (last : c.LastEncodes calls prompt) :
    ∃ encoded, c.encoder prompt = .ok encoded ∧ (c.after calls).encoded = some encoded := by
  obtain ⟨before, later, rfl, encodes, fails⟩ := last
  obtain ⟨encoded, made, state⟩ := encodes.state
  refine ⟨encoded, made, ?_⟩
  rw [List.append_cons, fails.encoded, after_concat]
  exact congrArg State.encoded state

/-- Either nothing was encoded so far, or there is a last encoding. -/
theorem noneEncodes_or_last (c : EncoderDecoder Encoded Cache) (calls : List Call) :
    c.NoneEncodes [] calls ∨ ∃ prompt, c.LastEncodes calls prompt := by
  induction calls using List.reverseRecOn with
  | nil => exact .inl noneEncodes_nil
  | append_singleton calls call ih =>
    by_cases encodes : ∃ prompt, call = .encode prompt ∧ c.Encodes calls prompt
    · obtain ⟨prompt, rfl, encodes⟩ := encodes
      exact .inr ⟨prompt, calls, [], rfl, encodes, noneEncodes_nil⟩
    · have fails : ∀ prompt, call = .encode prompt → ¬c.Encodes calls prompt :=
        fun prompt same encoded => encodes ⟨prompt, same, encoded⟩
      rcases ih with none | ⟨prompt, before, later, rfl, earlier, none⟩
      · exact .inl (none.concat fails)
      · refine .inr ⟨prompt, before, later ++ [call], ?_, earlier, none.concat ?_⟩
        · rw [List.append_assoc, List.cons_append]
        · rwa [← List.append_cons]

/-- How calls end after other ones: a step fails for want of an encoding as long as there is none,
and else looks at the last one; steps and empty prompts leave it, and a new one empties the
cache. -/
structure UsesLastEncoding (c : EncoderDecoder Encoded Cache) (calls : List Call) : Prop where
  unencoded_iff : ∀ tokens offset,
    (c.step (c.after calls) tokens offset).1 = .error (.of .notEncoded) ↔ c.NoneEncodes [] calls
  exists_last : ¬c.NoneEncodes [] calls → ∃ prompt, c.LastEncodes calls prompt
  decodes : ∀ prompt, c.LastEncodes calls prompt → ∃ encoded, c.encoder prompt = .ok encoded ∧
    ∀ tokens offset, c.step (c.after calls) tokens offset =
      ((c.decoder encoded (c.after calls).cache tokens offset).1,
        ⟨some encoded, (c.decoder encoded (c.after calls).cache tokens offset).2⟩)
  refuses_empty : c.encode (c.after calls) [] = (.error (.of .noTokens), c.after calls)
  keeps : ∀ tokens offset,
    (c.step (c.after calls) tokens offset).2.encoded = (c.after calls).encoded
  clears : ∀ prompt, c.Encodes calls prompt →
    (c.encode (c.after calls) prompt).2.cache = default

/-- Whatever was encoded and stepped before, the last encoding that succeeded is in force. -/
theorem usesLastEncoding (c : EncoderDecoder Encoded Cache)
    (own : ∀ encoded cache tokens offset,
      (c.decoder encoded cache tokens offset).1 ≠ .error (.of .notEncoded))
    (calls : List Call) :
    c.UsesLastEncoding calls ∧
      (Failure.of .notEncoded).message = "decoder stepped before the prompt was encoded" := by
  have decodes : ∀ prompt, c.LastEncodes calls prompt →
      ∃ encoded, c.encoder prompt = .ok encoded ∧
        ∀ tokens offset, c.step (c.after calls) tokens offset =
          ((c.decoder encoded (c.after calls).cache tokens offset).1,
            ⟨some encoded, (c.decoder encoded (c.after calls).cache tokens offset).2⟩) := by
    intro prompt last
    obtain ⟨encoded, made, kept⟩ := last.encoded
    refine ⟨encoded, made, fun tokens offset => ?_⟩
    rw [step_of_some kept, kept]
  refine ⟨⟨fun tokens offset => ⟨fun failed => ?_, fun none => ?_⟩, ?_, decodes, rfl,
    step_keeps (c.after calls), fun prompt encodes => ?_⟩, rfl⟩
  · rcases noneEncodes_or_last c calls with none | ⟨prompt, last⟩
    · exact none
    · obtain ⟨encoded, -, looks⟩ := decodes prompt last
      rw [looks tokens offset] at failed
      exact absurd failed (own _ _ _ _)
  · have nothing : (c.after calls).encoded = .none := none.encoded
    rw [step_of_none nothing]
  · exact (noneEncodes_or_last c calls).resolve_left
  · obtain ⟨encoded, -, state⟩ := encodes.state
    rw [state]

end TextCompletion.EncoderDecoder

namespace TextCompletion.Seq2SeqModel

open EncoderDecoder (Call noneEncodes_nil not_encodes_nil not_encodes_of_error)

theorem coder_own (m : Seq2SeqModel) (encoded : List Row) (taken tokens : List Nat)
    (offset : Nat) :
    (m.coder.decoder encoded taken tokens offset).1 ≠ .error (.of .notEncoded) := by
  have other : m.decode encoded tokens offset ≠ .error (.of .notEncoded) := by
    unfold decode
    cases m.placedRows tokens offset with
    | error f => simp [Failure.of]
    | ok xs =>
      dsimp only
      cases xs.getLast? with
      | none => simp [Failure.of]
      | some x =>
        dsimp only
        generalize m.head.logits _ = logits
        cases m.addBias tokens.length logits <;> simp [Failure.of]
  intro failed
  refine other ?_
  cases answer : m.decode encoded tokens offset with
  | error f => simpa [coder, answer] using failed
  | ok logits => simp [coder, answer] at failed

def ofTwo : Seq2SeqModel where
  embedding := { table := [[1], [2]] }
  head := { matrix := [[1], [2]] }
  keepsPosition := true

/-- A step that comes too early, an encoding that fails, one that does not, and after a step two
that fail again. -/
def mixedCalls : List Call :=
  [.step [1] 0, .encode [5], .encode [0, 1], .step [1] 0, .encode [], .encode [5]]

theorem usesLastEncoding_ofTwo :
    (∀ encoded taken tokens offset,
      (ofTwo.coder.decoder encoded taken tokens offset).1 ≠ .error (.of .notEncoded)) ∧
      ofTwo.coder.UsesLastEncoding mixedCalls ∧ ofTwo.coder.LastEncodes mixedCalls [0, 1] := by
  refine ⟨coder_own ofTwo,
    (EncoderDecoder.usesLastEncoding ofTwo.coder (coder_own ofTwo) mixedCalls).1, ?_⟩
  let earlier : List Call := [.step [1] 0, .encode [5]]
  have stepped : ofTwo.coder.NoneEncodes (earlier ++ [.encode [0, 1]]) [.step [1] 0] :=
    noneEncodes_nil.concat fun prompt other => nomatch other
  have refused : ofTwo.coder.NoneEncodes (earlier ++ [.encode [0, 1]])
      [.step [1] 0, .encode []] := by
    refine stepped.concat fun prompt same => ?_
    cases same
    exact not_encodes_nil
  refine ⟨earlier, [.step [1] 0, .encode [], .encode [5]], rfl, rfl, ?_⟩
  refine refused.concat fun prompt same => ?_
  cases same
  exact not_encodes_of_error rfl

end TextCompletion.Seq2SeqModel
