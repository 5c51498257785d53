import TextCompletion.Proofs.Generation.Window
import TextCompletion.Proofs.Pipeline.Loading

/-!
Models that tell positions apart by rows of sines have no row for a position outside their table, so
a step that would feed one fails.
-/

namespace TextCompletion

namespace PositionTable

variable {t : PositionTable} {offset count : Nat} {xs : List Row}

theorem row_eq_ok {position : Nat} {x : Row} (made : t.row position = .ok x) :
    position < t.size := by
  unfold row at made
  split at made
  · assumption
  · cases made

theorem lt_size_of_rows_eq_ok (made : t.rows offset count = .ok xs) :
    ∀ i < count, offset + i < t.size := by
  intro i fed
  obtain ⟨x, row⟩ := exists_ok_of_mapM_eq_ok made (List.mem_range.2 fed)
  exact row_eq_ok row

end PositionTable

namespace Seq2SeqModel

variable {m : Seq2SeqModel} {table : PositionTable} {tokens : List Nat} {offset : Nat}

theorem placedRows_eq_ok {xs : List Row} (sines : m.positions = some table) :
    m.placedRows tokens offset = .ok xs ↔
      ∃ rows places, m.embedding.rows tokens = .ok rows ∧
        table.rows offset tokens.length = .ok places ∧ xs = List.zipWith Row.add rows places := by
  simp only [placedRows, sines]
  exact bind_pure_eq_ok

theorem le_size_of_decode_eq_ok {encoded : List Row} {logits : Tensor}
    (sines : m.positions = some table) (answered : m.decode encoded tokens offset = .ok logits) :
    offset + tokens.length ≤ table.size := by
  unfold decode at answered
  cases placed : m.placedRows tokens offset with
  | error f => simp [placed] at answered
  | ok xs =>
    obtain ⟨rows, places, embedded, made, rfl⟩ := (placedRows_eq_ok sines).1 placed
    cases tokens with
    | nil =>
      obtain rfl : [] = rows := Except.ok.inj embedded
      simp [placed] at answered
    | cons token rest =>
      exact PositionTable.lt_size_of_rows_eq_ok made rest.length (Nat.lt_succ_self _)

theorem decoder_staysBelow (sines : m.positions = some table) :
    m.decoder.StaysBelow table.size := by
  intro s tokens offset outside
  cases encoded : s.encoded with
  | none => exact ⟨.of .notEncoded, by
    simp [decoder, step, EncoderDecoder.step_of_none encoded, Except.map]⟩
  | some rows =>
    cases answer : m.decode rows tokens offset with
    | error f => exact ⟨f, by
      simp [decoder, step, EncoderDecoder.step_of_some encoded, coder, answer, Except.map]⟩
    | ok logits => exact absurd (le_size_of_decode_eq_ok sines answer) (Nat.not_le.2 outside)

end Seq2SeqModel

theorem Seq2SeqFamily.positions_of_marian {h : Hyperparameters} {store : Weights.Store}
    {m : Seq2SeqModel} (assembled : assemble .marian h store = .ok m) :
    m.positions = some ⟨h.positions, h.width⟩ := by
  obtain ⟨bias, -, assembled⟩ := bind_eq_ok.1 (during_eq_ok.1 assembled)
  obtain ⟨table, -, assembled⟩ := bind_eq_ok.1 assembled
  obtain ⟨-, -, assembled⟩ := bind_eq_ok.1 assembled
  obtain ⟨-, -, assembled⟩ := bind_eq_ok.1 assembled
  rw [← Except.ok.inj assembled]

end TextCompletion
