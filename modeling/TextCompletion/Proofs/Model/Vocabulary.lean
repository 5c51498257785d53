import TextCompletion.Proofs.Model.Feeding
import TextCompletion.Proofs.Weights.Filled

/-!
What the families make of their hyperparameters: every causal model has a row for each token of its
vocabulary, one logit for each of them, and layers with one number of positions.
-/

namespace TextCompletion

namespace Weights.Store

variable {s : Store} {name : String} {height width : Nat}

theorem get_of_tensor {shape : List Nat} {t : Tensor} (found : s.tensor name shape = .ok t) :
    s.get name shape = .ok t := by
  unfold tensor at found
  split at found
  · rename_i t' present
    rw [present, Except.ok.inj found]
  · cases found

theorem shape_of_get {shape : List Nat} {t : Tensor} (found : s.get name shape = .ok t) :
    t.shape = shape := by
  unfold get at found
  split at found
  · cases found
  · cases found
  · split at found
    · rename_i fits
      rw [← Except.ok.inj found, fits]
    · cases found

theorem length_of_matrix {rows : List Row} (found : s.matrix name height width = .ok rows) :
    rows.length = height := by
  cases read : s.tensor name [height, width] with
  | error f => simp [matrix, read] at found
  | ok t =>
    obtain rfl : t.rows = rows := by simpa [matrix, read] using found
    rw [Tensor.rows, shape_of_get (get_of_tensor read)]
    exact Tensor.length_groups width height t.values

theorem length_of_vector (filled : s.IsFilled) {x : Row} (found : s.vector name width = .ok x) :
    x.length = width := by
  cases read : s.tensor name [width] with
  | error f => simp [vector, read] at found
  | ok t =>
    obtain rfl : t.values = x := by simpa [vector, read] using found
    simpa using length_of_get filled (get_of_tensor read)

end Weights.Store

open Weights (Store)

/-- A model for a vocabulary and a number of positions. -/
structure CausalModel.Sized (m : CausalModel) (vocabulary positions : Nat) : Prop where
  table : m.embedding.table.length = vocabulary
  matrix : m.head.matrix.length = vocabulary
  bias : ∀ bias, m.head.bias = some bias → bias.length = vocabulary
  layers : ∀ l ∈ m.layers, l.attention.positions = positions

theorem Head.length_logits {h : Head} {n : Nat} (matrix : h.matrix.length = n)
    (bias : ∀ bias, h.bias = some bias → bias.length = n) (x : Row) : (h.logits x).length = n := by
  obtain ⟨rows, shift, cap⟩ := h
  unfold logits
  cases shift with
  | none => cases cap <;> simpa using matrix
  | some shift =>
    have shifted : (Row.add (Row.image rows x) shift).length = n := by
      rw [Row.add, List.length_zipWith, Row.length_image, matrix, bias shift rfl, Nat.min_self]
    cases cap <;> simpa using shifted

theorem CausalModel.Sized.length_logits {m : CausalModel} {vocabulary positions : Nat}
    (sized : m.Sized vocabulary positions) (x : Row) :
    (m.logits x).values.length = vocabulary :=
  Head.length_logits sized.matrix sized.bias _

theorem CausalModel.Sized.shape_logits {m : CausalModel} {vocabulary positions : Nat}
    (sized : m.Sized vocabulary positions) (x : Row) :
    (m.logits x).shape = [1, vocabulary] ∨ (m.logits x).shape = [1, 1, vocabulary] := by
  have length := sized.length_logits x
  unfold logits at length ⊢
  dsimp only at length ⊢
  rw [length]
  split
  · exact .inr rfl
  · exact .inl rfl

namespace Assembly

variable {h : Hyperparameters} {s : Store} {m : CausalModel} {family firstTensor : String}

theorem positions_of_layer {index : Nat} {l : Layer} (made : layer h s index = .ok l) :
    l.attention.positions = h.positions := by
  simp only [layer, bind_eq_ok] at made
  obtain ⟨_, -, _, -, _, -, _, -, _, -, _, -, _, -, _, -, _, -, made⟩ := made
  rw [← Except.ok.inj made]

theorem length_of_ownHead {rows : List Row} (found : ownHead h s = .ok rows) :
    rows.length = h.vocabulary :=
  Store.length_of_matrix found

theorem sized_of_llama (made : llama h s = .ok m) : m.Sized h.vocabulary h.positions := by
  obtain ⟨table, embedded, made⟩ := bind_eq_ok.1 made
  have length : table.length = h.vocabulary := Store.length_of_matrix embedded
  have sized (matrix : List Row) (norm : Norm) (layers : List Layer)
      (high : matrix.length = h.vocabulary)
      (each : (List.range h.layers).mapM (layer h s) = .ok layers) :
      CausalModel.Sized
        { embedding := { table }, layers, norm, head := { matrix }, keepsPosition := false }
        h.vocabulary h.positions := by
    refine ⟨length, high, nofun, fun l member => ?_⟩
    obtain ⟨index, -, layered⟩ := exists_of_mapM_eq_ok each member
    exact positions_of_layer layered
  dsimp only at made
  split at made
  · obtain ⟨matrix, tied, made⟩ := bind_eq_ok.1 made
    obtain rfl : table = matrix := Except.ok.inj tied
    obtain ⟨norm, layers, -, each, rfl⟩ := bind_pure_eq_ok.1 made
    exact sized table norm layers length each
  · obtain ⟨matrix, headed, made⟩ := bind_eq_ok.1 made
    obtain ⟨norm, layers, -, each, rfl⟩ := bind_pure_eq_ok.1 made
    exact sized matrix norm layers (length_of_ownHead headed) each

theorem sized_of_plain {norm : Except Failure Norm} {head : List Row → Except Failure (List Row)}
    (either : ∀ table, head table = .ok table ∨ head table = ownHead h s)
    (made : plain h s family firstTensor norm head = .ok m) :
    m.Sized h.vocabulary h.positions := by
  simp only [plain, bind_eq_ok] at made
  obtain ⟨table, embedded, -, -, norm, -, matrix, headed, made⟩ := made
  obtain rfl := Except.ok.inj made
  have length : table.length = h.vocabulary := Store.length_of_matrix embedded
  refine ⟨length, ?_, nofun, nofun⟩
  rcases either table with tied | own
  · rw [← eq_of_eq_ok tied headed, length]
  · exact length_of_ownHead (own ▸ headed)

theorem sized_of_phi (filled : s.IsFilled) (made : phi h s family firstTensor = .ok m) :
    m.Sized h.vocabulary h.positions := by
  simp only [phi, bind_eq_ok] at made
  obtain ⟨table, embedded, norm, -, -, -, matrix, headed, bias, shifted, made⟩ := made
  obtain rfl := Except.ok.inj made
  refine ⟨Store.length_of_matrix embedded, length_of_ownHead headed, fun bias' same => ?_, nofun⟩
  obtain rfl : bias = bias' := Option.some.inj same
  exact Store.length_of_vector filled shifted

theorem sized_of_gemma (made : gemma h s family firstTensor = .ok m) :
    m.Sized h.vocabulary h.positions := by
  obtain ⟨model, plain, made⟩ := bind_eq_ok.1 made
  obtain rfl := Except.ok.inj made
  obtain ⟨table, matrix, bias, layers⟩ := sized_of_plain (fun _ => .inl rfl) plain
  exact ⟨table, matrix, bias, layers⟩

end Assembly

open Assembly in
theorem CausalFamily.sized_of_assemble {f : CausalFamily} {h : Hyperparameters} {s : Store}
    {m : CausalModel} (filled : s.IsFilled) (made : f.assemble h s = .ok m) :
    m.Sized h.vocabulary h.positions := by
  unfold assemble at made
  dsimp only at made
  replace made := during_eq_ok.1 made
  cases f with
  | llama => exact sized_of_llama made
  | mistral => exact sized_of_plain (fun _ => .inr rfl) made
  | mixtral => exact sized_of_plain (fun _ => .inr rfl) made
  | phi => exact sized_of_phi filled made
  | phi3 => exact sized_of_plain (fun _ => by split <;> simp) made
  | qwen3 => exact sized_of_plain (fun _ => by split <;> simp) made
  | qwen2 => exact sized_of_plain (fun _ => by split <;> simp) made
  | stableLm => exact sized_of_plain (fun _ => .inr rfl) made
  | starcoder2 => exact sized_of_plain (fun _ => .inl rfl) made
  | gemma => exact sized_of_gemma made
  | gemma2 => exact sized_of_gemma made

end TextCompletion
