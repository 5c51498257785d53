import TextCompletion.Proofs.Runner.Stages
import TextCompletion.Proofs.Text.Bytes

/-!
How many lines a successful invocation writes. Its output is the chosen text and one line break
after it, so the breaks inside that text are kept: the output is one line exactly if the text has
none. Nothing on the way takes them out.
-/

namespace TextCompletion

namespace Text.Utf8

theorem count_utf8EncodeChar (c : Char) :
    (String.utf8EncodeChar c).count 0x0A = if c = '\n' then 1 else 0 := by
  by_cases beyond : 127 < c.val.toNat
  · have absent : 0x0A ∉ String.utf8EncodeChar c := by
      intro member
      have high := high_of_mem_utf8EncodeChar beyond member
      simp at high
    have other : c ≠ '\n' := by
      rintro rfl
      simp at beyond
    rw [List.count_eq_zero.mpr absent, if_neg other]
  · have single : String.utf8EncodeChar c = [UInt8.ofNat c.val.toNat] := by
      simp only [String.utf8EncodeChar, if_pos (Nat.le_of_not_lt beyond)]
    have same : UInt8.ofNat c.val.toNat = 0x0A ↔ c = '\n' := by
      constructor
      · intro byte
        have value := congrArg UInt8.toNat byte
        rw [UInt8.toNat_ofNat', Nat.mod_eq_of_lt (by omega)] at value
        exact Char.ext (UInt32.toNat_inj.mp value)
      · rintro rfl
        rfl
    simp only [single, List.count_singleton, beq_iff_eq, same]

theorem count_encode (s : String) : (encode s).count 0x0A = s.toList.count '\n' := by
  rw [encode_eq_flatMap]
  induction s.toList with
  | nil => rfl
  | cons c rest ih =>
    rw [List.flatMap_cons, List.count_append, ih, count_utf8EncodeChar, List.count_cons]
    simp only [beq_iff_eq]
    omega

end Text.Utf8

/-- The bytes are one line: a line break ends them and is the only one. -/
structure OneLine (output : Bytes) : Prop where
  breaks : output.count 0x0A = 1
  ends : output.getLast? = some 0x0A

theorem count_line (text : String) :
    (Text.Utf8.encode (text ++ "\n")).count 0x0A = text.toList.count '\n' + 1 := by
  rw [Text.Utf8.count_encode, String.toList_append, List.count_append]
  rfl

theorem getLast?_line (text : String) :
    (Text.Utf8.encode (text ++ "\n")).getLast? = some 0x0A := by
  have ending : Text.Utf8.encode "\n" = [0x0A] := by
    rw [Text.Utf8.encode_eq_flatMap]
    rfl
  rw [Text.Utf8.encode_append, ending, List.getLast?_concat]

theorem oneLine_iff (text : String) :
    OneLine (Text.Utf8.encode (text ++ "\n")) ↔ '\n' ∉ text.toList := by
  constructor
  · intro single inside
    have positive := List.count_pos_iff.mpr inside
    have breaks := single.breaks
    rw [count_line] at breaks
    omega
  · intro without
    refine ⟨?_, getLast?_line text⟩
    rw [count_line, List.count_eq_zero.mpr without]

theorem Sink.Delivered.output_of_ok {s : Sink} {line : Bytes} {r : RunReport}
    (delivered : s.Delivered line r) (succeeds : r.result = .ok ()) : r.output = line := by
  rcases s.hasRoom_or line with room | ⟨n, limit, short⟩
  · cases quiet : s.flushRefusal with
    | none => exact (delivered.written room quiet).2.1
    | some fault => simp [(delivered.unflushed fault room quiet).1] at succeeds
  · simp [(delivered.refused n limit short).1] at succeeds

/-- What a successful run has written is the chosen text and a line break; it is one line exactly if
no line break is in that text. -/
theorem run_oneLine_iff (t : FileTree) (backend : Except RunError Backend) (i : Invocation)
    (sink : Sink) (succeeds : (run t backend i sink).result = .ok ()) :
    ∃ candidates, Stage.candidates? backend i = some (.ok candidates) ∧
      (run t backend i sink).output = Text.Utf8.encode (chosenText candidates ++ "\n") ∧
      (run t backend i sink).output.getLast? = some 0x0A ∧
      (run t backend i sink).output.count 0x0A = (chosenText candidates).toList.count '\n' + 1 ∧
      (OneLine (run t backend i sink).output ↔ '\n' ∉ (chosenText candidates).toList) := by
  have reported := run_reports t backend i sink
  have passes : Stage.firstError? t backend i = none := by
    cases first : Stage.firstError? t backend i with
    | none => rfl
    | some e => simp [(reported.failed e first).1] at succeeds
  obtain ⟨candidates, generated, delivered⟩ := reported.passed passes
  have output := delivered.output_of_ok succeeds
  refine ⟨candidates, generated, output, ?_, ?_, ?_⟩
  · rw [output, getLast?_line]
  · rw [output, count_line]
  · rw [output, oneLine_iff]

namespace Recital

/-- A backend whose model says one text, whatever it is asked. -/
def backend (text : String) : Backend where
  load _ := pure { task := .textGeneration, generate := fun _ _ => pure [.generated text] }

def tree : FileTree := { workingDirectory := "/", root := .directory [("m", .directory [])] }

def invocation : Invocation := { modelPath := "/m", prompt := "hi" }

theorem run_says (text : String) :
    (run tree (.ok (backend text)) invocation {}).result = .ok () ∧
      (run tree (.ok (backend text)) invocation {}).output = Text.Utf8.encode (text ++ "\n") := by
  have present : tree.isDirectory invocation.modelPath = true := by decide +kernel
  have loaded : ((backend text).load invocation.modelPath).result =
      .ok { task := .textGeneration, generate := fun _ _ => pure [.generated text] } := rfl
  obtain ⟨delivered, -⟩ := run_deliver {} present loaded rfl
  rw [outputLine_eq] at delivered
  have room : Sink.HasRoom {} (Text.Utf8.encode (text ++ "\n")) := fun _ limit => by cases limit
  obtain ⟨succeeds, output, -⟩ := delivered.written room rfl
  exact ⟨succeeds, output⟩

end Recital

theorem run_oneLine_iff_plain :
    (run Recital.tree (.ok (Recital.backend "two words")) Recital.invocation {}).result = .ok () ∧
      OneLine (run Recital.tree (.ok (Recital.backend "two words")) Recital.invocation {}).output := by
  have succeeds := (Recital.run_says "two words").1
  obtain ⟨candidates, generated, -, -, -, single⟩ := run_oneLine_iff _ _ _ _ succeeds
  obtain rfl : candidates = [.generated "two words"] :=
    (Except.ok.inj (Option.some.inj generated)).symm
  exact ⟨succeeds, single.mpr (by decide)⟩

theorem run_writes_two_lines :
    (run Recital.tree (.ok (Recital.backend "a\nb")) Recital.invocation {}).result = .ok () ∧
      ¬ OneLine (run Recital.tree (.ok (Recital.backend "a\nb")) Recital.invocation {}).output := by
  obtain ⟨succeeds, output⟩ := Recital.run_says "a\nb"
  rw [output, oneLine_iff]
  exact ⟨succeeds, by decide⟩

end TextCompletion
