import TextCompletion.Proofs.Generation.Trace
import TextCompletion.Proofs.Pipeline.Loading

/-!
Feeding a causal model in pieces. A layer gives a row for each position, which depends on the rows
of earlier positions through what the layer keeps of them; so it does not matter whether these were
fed before or together with it. Main statement: a token that is fed after others is answered as if
all of them were fed at once.
-/

namespace TextCompletion

namespace Attention

variable (a : Attention) (cache : KeyValueCache) (offset : Nat) (xs ys : List Row)

theorem extend_prefix : a.extend cache offset xs <+: a.extend cache offset (xs ++ ys) := by
  rw [← extend_extend]
  exact List.prefix_append _ _

def outputAt (seen : KeyValueCache) (cached : Nat) : Row × Nat → Row := fun (x, i) =>
  a.attend (a.queryOf (offset + i) x) (seen.take (cached + i + 1))

theorem outputs_eq :
    a.outputs cache offset xs =
      xs.zipIdx.map (a.outputAt offset (a.extend cache offset xs) cache.length) := rfl

/-- Earlier rows do not see later ones, and later ones see what is kept of the earlier ones. -/
theorem outputs_append :
    a.outputs cache offset (xs ++ ys) =
      a.outputs cache offset xs ++
        a.outputs (a.extend cache offset xs) (offset + xs.length) ys := by
  -- what an earlier row sees ends before the later ones begin; a later row counts its place from
  -- the end of the earlier ones
  obtain ⟨rest, whole⟩ := a.extend_prefix cache offset xs ys
  have earlier : ∀ p ∈ xs.zipIdx,
      a.outputAt offset (a.extend cache offset (xs ++ ys)) cache.length p =
        a.outputAt offset (a.extend cache offset xs) cache.length p := by
    intro p member
    have inside : p.2 < xs.length := by simpa using List.snd_lt_of_mem_zipIdx member
    have seen : cache.length + p.2 + 1 ≤ (a.extend cache offset xs).length := by
      rw [length_extend]
      omega
    rw [outputAt, outputAt, ← whole, List.take_append_of_le_length seen]
  have later : ∀ p ∈ ys.zipIdx,
      (a.outputAt offset (a.extend cache offset (xs ++ ys)) cache.length ∘
          fun (x, i) => (x, xs.length + i)) p =
        a.outputAt (offset + xs.length)
          (a.extend (a.extend cache offset xs) (offset + xs.length) ys)
          (a.extend cache offset xs).length p := by
    intro p _
    have place : offset + (xs.length + p.2) = offset + xs.length + p.2 := by omega
    have seen : cache.length + (xs.length + p.2) + 1 = cache.length + xs.length + p.2 + 1 := by
      omega
    simp only [Function.comp_apply, outputAt, extend_extend, length_extend, place, seen]
  rw [outputs_eq, outputs_eq, outputs_eq, List.zipIdx_append, List.map_append,
    List.map_congr_left earlier, ← List.map_congr_left later, Nat.zero_add,
    List.zipIdx_eq_map_add (l := ys) (i := xs.length), List.map_map]

end Attention

namespace Layer

def rows (l : Layer) (cache : KeyValueCache) (offset : Nat) (xs : List Row) : List Row :=
  (List.zipWith Row.add xs
    (l.attention.outputs cache offset (xs.map l.attentionNorm.apply))).map l.inner

def keep (l : Layer) (cache : KeyValueCache) (offset : Nat) (xs : List Row) : KeyValueCache :=
  l.attention.extend cache offset (xs.map l.attentionNorm.apply)

section

variable (l : Layer) (cache : KeyValueCache) (offset : Nat) (xs ys : List Row)

@[simp] theorem length_rows : (l.rows cache offset xs).length = xs.length := by
  simp [rows]

theorem rows_append :
    l.rows cache offset (xs ++ ys) =
      l.rows cache offset xs ++ l.rows (l.keep cache offset xs) (offset + xs.length) ys := by
  have outputs := l.attention.outputs_append cache offset (xs.map l.attentionNorm.apply)
    (ys.map l.attentionNorm.apply)
  rw [List.length_map] at outputs
  simp only [rows, keep, List.map_append, outputs]
  rw [List.zipWith_append (by simp), List.map_append]

theorem keep_append :
    l.keep cache offset (xs ++ ys) = l.keep (l.keep cache offset xs) (offset + xs.length) ys := by
  have extended := l.attention.extend_extend cache offset (xs.map l.attentionNorm.apply)
    (ys.map l.attentionNorm.apply)
  rw [List.length_map] at extended
  simp only [keep, List.map_append, extended]

end

variable {l : Layer} {cache : KeyValueCache} {offset : Nat} {xs ys : List Row}

theorem forward_of_fits (fits : offset + xs.length ≤ l.attention.positions)
    (square : xs.length = 1 ∨ cache = []) :
    l.forward cache offset xs = (.ok (l.rows cache offset xs), l.keep cache offset xs) := by
  have mask : l.attention.checkMask cache.length xs.length = .ok () := by
    rw [Attention.checkMask, if_pos]
    simpa using square
  simp only [forward, Attention.checkPositions, if_pos fits, mask]
  rfl

theorem fits_of_forward (passed : (l.forward cache offset xs).1 = .ok ys) :
    offset + xs.length ≤ l.attention.positions ∧ (xs.length = 1 ∨ cache = []) := by
  unfold forward at passed
  cases positions : l.attention.checkPositions offset xs.length with
  | error f => simp [positions] at passed
  | ok _ =>
    cases mask : l.attention.checkMask cache.length xs.length with
    | error f => simp [positions, mask] at passed
    | ok _ =>
      constructor
      · unfold Attention.checkPositions at positions
        split at positions
        · assumption
        · cases positions
      · unfold Attention.checkMask at mask
        split at mask
        · simpa using ‹xs.length = 1 ∨ cache.length = 0›
        · cases mask

theorem rows_of_forward (passed : (l.forward cache offset xs).1 = .ok ys) :
    l.forward cache offset xs = (.ok (l.rows cache offset xs), l.keep cache offset xs) := by
  obtain ⟨fits, square⟩ := fits_of_forward passed
  exact forward_of_fits fits square

/-- Rows that pass with others after them pass without these. -/
theorem forward_prefix {zs : List Row} (start : xs ≠ [])
    (passed : (l.forward cache offset (xs ++ ys)).1 = .ok zs) :
    l.forward cache offset xs = (.ok (l.rows cache offset xs), l.keep cache offset xs) := by
  obtain ⟨fits, square⟩ := fits_of_forward passed
  rw [List.length_append] at fits square
  have first : 0 < xs.length := List.length_pos_iff.2 start
  exact forward_of_fits (by omega) (square.imp_left fun one => by omega)

def passAll (offset : Nat) :
    List Layer → List KeyValueCache → List Row → List Row × List KeyValueCache
  | [], _, xs => (xs, [])
  | l :: layers, caches, xs =>
    let (ys, rest) := passAll offset layers caches.tail (l.rows (caches.headD []) offset xs)
    (ys, l.keep (caches.headD []) offset xs :: rest)

variable {layers : List Layer} {caches : List KeyValueCache}

@[simp] theorem length_passAll : (passAll offset layers caches xs).1.length = xs.length := by
  induction layers generalizing caches xs with
  | nil => rfl
  | cons l layers ih => simp [passAll, ih]

theorem passAll_append :
    passAll offset layers caches (xs ++ ys) =
      ((passAll offset layers caches xs).1 ++
          (passAll (offset + xs.length) layers (passAll offset layers caches xs).2 ys).1,
        (passAll (offset + xs.length) layers (passAll offset layers caches xs).2 ys).2) := by
  induction layers generalizing caches xs ys with
  | nil => rfl
  | cons l layers ih =>
    have rest := @ih (l.rows (caches.headD []) offset xs)
      (l.rows (l.keep (caches.headD []) offset xs) (offset + xs.length) ys) caches.tail
    rw [length_rows] at rest
    simp only [passAll, rows_append, keep_append, rest, List.headD_cons, List.tail_cons]

theorem forwardAll_of_fits (fits : ∀ l ∈ layers, offset + xs.length ≤ l.attention.positions)
    (square : xs.length = 1 ∨ caches = []) :
    forwardAll offset layers caches xs =
      (.ok (passAll offset layers caches xs).1, (passAll offset layers caches xs).2) := by
  induction layers generalizing caches xs with
  | nil => rfl
  | cons l layers ih =>
    obtain ⟨here, below⟩ := List.forall_mem_cons.1 fits
    have head : xs.length = 1 ∨ caches.headD [] = [] := square.imp_right fun none => by simp [none]
    have tail : xs.length = 1 ∨ caches.tail = [] := square.imp_right fun none => by simp [none]
    have rest := @ih (l.rows (caches.headD []) offset xs) caches.tail (by simpa using below)
      (by simpa using tail)
    simp only [forwardAll, forward_of_fits here head, rest, passAll]

theorem passAll_of_forwardAll (passed : (forwardAll offset layers caches xs).1 = .ok ys) :
    ys = (passAll offset layers caches xs).1 := by
  induction layers generalizing caches xs with
  | nil => exact (Except.ok.inj passed).symm
  | cons l layers ih =>
    rcases here : l.forward (caches.headD []) offset xs with ⟨f | zs, cache⟩
    · simp only [forwardAll, here, reduceCtorEq] at passed
    · have first := rows_of_forward (congrArg Prod.fst here)
      simp only [forwardAll, first] at passed
      exact ih passed

theorem forwardAll_prefix {zs : List Row} (start : xs ≠ [])
    (passed : (forwardAll offset layers caches (xs ++ ys)).1 = .ok zs) :
    (forwardAll offset layers caches xs).1 = .ok (zs.take xs.length) := by
  induction layers generalizing caches xs ys with
  | nil =>
    obtain rfl : xs ++ ys = zs := Except.ok.inj passed
    rw [List.take_left]
    rfl
  | cons l layers ih =>
    rcases here : l.forward (caches.headD []) offset (xs ++ ys) with ⟨f | ws, cache⟩
    · simp only [forwardAll, here, reduceCtorEq] at passed
    · have both := rows_of_forward (congrArg Prod.fst here)
      rw [rows_append] at both
      simp only [forwardAll, both] at passed
      have start' : l.rows (caches.headD []) offset xs ≠ [] := by
        rwa [← List.length_pos_iff, length_rows, List.length_pos_iff]
      have rest := ih start' passed
      rw [length_rows] at rest
      simp only [forwardAll, forward_prefix start (congrArg Prod.fst here), rest]

end Layer

namespace Embedding

variable {e : Embedding} {tokens more : List Nat} {xs : List Row}

theorem rows_append :
    e.rows (tokens ++ more) = (do pure ((← e.rows tokens) ++ (← e.rows more))) :=
  List.mapM_append

theorem length_rows (embedded : e.rows tokens = .ok xs) : xs.length = tokens.length := by
  simpa using (congrArg List.length (mapM_eq_ok.1 embedded)).symm

theorem row_of_lt {token : Nat} (known : token < e.table.length) : ∃ x, e.row token = .ok x := by
  rw [row, List.getElem?_eq_getElem known]
  cases e.factor with
  | none => exact ⟨_, rfl⟩
  | some factor => exact ⟨_, rfl⟩

theorem rows_of_lt (known : ∀ token ∈ tokens, token < e.table.length) :
    ∃ xs, e.rows tokens = .ok xs := by
  induction tokens with
  | nil => exact ⟨[], rfl⟩
  | cons token rest ih =>
    obtain ⟨here, others⟩ := List.forall_mem_cons.1 known
    obtain ⟨x, first⟩ := row_of_lt here
    obtain ⟨xs, further⟩ := ih others
    refine ⟨x :: xs, ?_⟩
    rw [rows, List.mapM_cons, first, ← rows, further]
    rfl

end Embedding

namespace CausalModel

variable {m : CausalModel} {s : State} {tokens : List Nat} {token offset : Nat}
  {xs : List Row}

variable (m) in
/-- The state of a fresh model after it took some rows. -/
def holding (xs : List Row) : State where
  stepped := true
  caches := (Layer.passAll 0 m.layers [] xs).2

@[simp] theorem caches_holding :
    (m.holding xs).caches = (Layer.passAll 0 m.layers [] xs).2 := rfl

theorem step_of_rows (embedded : m.embedding.rows tokens = .ok xs) (start : tokens ≠ [])
    (fits : ∀ l ∈ m.layers, offset + tokens.length ≤ l.attention.positions)
    (square : tokens.length = 1 ∨ s.caches = []) :
    ∃ y, (Layer.passAll offset m.layers s.caches xs).1.getLast? = some y ∧
      m.step s tokens offset =
        (.ok (m.logits y), ⟨true, (Layer.passAll offset m.layers s.caches xs).2⟩) := by
  have length := Embedding.length_rows embedded
  rw [← length] at fits square
  have passed : (Layer.passAll offset m.layers s.caches xs).1 ≠ [] := by
    rwa [← List.length_pos_iff, Layer.length_passAll, length, List.length_pos_iff]
  have last := List.getLast?_eq_some_getLast passed
  refine ⟨_, last, ?_⟩
  simp only [step, embedded, Layer.forwardAll_of_fits fits square, last]

theorem step_of_fault {f : ComputeFault} (embedded : m.embedding.rows tokens = .error f) :
    m.step s tokens offset = (.error (.of (.compute f)), { s with stepped := true }) := by
  simp only [step, embedded]

theorem step_fresh (embedded : m.embedding.rows tokens = .ok xs) (start : tokens ≠ [])
    (fits : ∀ l ∈ m.layers, tokens.length ≤ l.attention.positions) :
    ∃ y, (Layer.passAll 0 m.layers [] xs).1.getLast? = some y ∧
      m.step {} tokens 0 = (.ok (m.logits y), m.holding xs) :=
  step_of_rows (s := {}) embedded start (by simpa using fits) (.inr rfl)

theorem step_holding {x : Row} (embedded : m.embedding.rows tokens = .ok xs)
    (next : m.embedding.rows [token] = .ok [x])
    (fits : ∀ l ∈ m.layers, tokens.length + 1 ≤ l.attention.positions) :
    m.step (m.holding xs) [token] tokens.length = m.step {} (tokens ++ [token]) 0 := by
  have whole : m.embedding.rows (tokens ++ [token]) = .ok (xs ++ [x]) := by
    rw [Embedding.rows_append, embedded, next]
    rfl
  have passed : Layer.passAll 0 m.layers [] (xs ++ [x]) =
      ((Layer.passAll 0 m.layers [] xs).1 ++
          (Layer.passAll tokens.length m.layers (m.holding xs).caches [x]).1,
        (Layer.passAll tokens.length m.layers (m.holding xs).caches [x]).2) := by
    rw [Layer.passAll_append, Embedding.length_rows embedded, Nat.zero_add, caches_holding]
  obtain ⟨y, last, later⟩ :
      ∃ y, (Layer.passAll tokens.length m.layers (m.holding xs).caches [x]).1.getLast? = some y ∧
        m.step (m.holding xs) [token] tokens.length = (.ok (m.logits y),
          ⟨true, (Layer.passAll tokens.length m.layers (m.holding xs).caches [x]).2⟩) :=
    step_of_rows next (List.cons_ne_nil token []) fits (.inl rfl)
  obtain ⟨z, last', once⟩ := step_fresh whole (by simp) (by simpa using fits)
  rw [passed, List.getLast?_append, last, Option.some_or] at last'
  obtain rfl : y = z := Option.some.inj last'
  have held : m.holding (xs ++ [x]) =
      ⟨true, (Layer.passAll tokens.length m.layers (m.holding xs).caches [x]).2⟩ := by
    rw [holding, passed]
  rw [later, once, held]

/-- A token fed by itself is answered as at the end of all tokens fed at once; where those before
it fail, that is the failure of all. -/
theorem step_in_turn (start : tokens ≠ [])
    (fits : ∀ l ∈ m.layers, tokens.length + 1 ≤ l.attention.positions) :
    ((m.step {} tokens 0).1 >>= fun _ =>
        (m.step (m.step {} tokens 0).2 [token] tokens.length).1) =
      (m.step {} (tokens ++ [token]) 0).1 := by
  cases embedded : m.embedding.rows tokens with
  | error f =>
    have whole : m.embedding.rows (tokens ++ [token]) = .error f := by
      rw [Embedding.rows_append, embedded]
      rfl
    rw [step_of_fault embedded, step_of_fault whole]
    rfl
  | ok xs =>
    obtain ⟨y, -, first⟩ := step_fresh embedded start fun l member =>
      Nat.le_of_succ_le (fits l member)
    rw [first]
    cases next : m.embedding.rows [token] with
    | error f =>
      have whole : m.embedding.rows (tokens ++ [token]) = .error f := by
        rw [Embedding.rows_append, embedded, next]
        rfl
      rw [step_of_fault whole]
      show (m.step (m.holding xs) [token] tokens.length).1 = _
      rw [step_of_fault next]
    | ok more =>
      obtain ⟨x, rfl⟩ := List.length_eq_one_iff.1 (Embedding.length_rows next)
      rw [← step_holding embedded next fits]
      rfl

theorem step_step (start : tokens ≠ [])
    (known : ∀ t ∈ tokens ++ [token], t < m.embedding.table.length)
    (fits : ∀ l ∈ m.layers, tokens.length + 1 ≤ l.attention.positions) :
    m.step (m.step {} tokens 0).2 [token] tokens.length = m.step {} (tokens ++ [token]) 0 := by
  obtain ⟨before, here⟩ := List.forall_mem_append.1 known
  obtain ⟨xs, embedded⟩ := Embedding.rows_of_lt before
  obtain ⟨more, next⟩ := Embedding.rows_of_lt here
  obtain ⟨x, rfl⟩ := List.length_eq_one_iff.1 (Embedding.length_rows next)
  obtain ⟨y, -, first⟩ := step_fresh embedded start fun l member =>
    Nat.le_of_succ_le (fits l member)
  rw [first]
  exact step_holding embedded next fits

/-! Feeding some tokens at once and further ones each by itself. -/

section

variable {prompt further : List Nat} {i : Nat}

theorem step_take (start : prompt ≠ [])
    (known : ∀ token ∈ prompt ++ further, token < m.embedding.table.length)
    (fits : ∀ l ∈ m.layers, (prompt ++ further).length ≤ l.attention.positions)
    (inside : i < further.length) :
    m.step (m.step {} (prompt ++ further.take i) 0).2 [further[i]] (prompt.length + i) =
      m.step {} (prompt ++ further.take (i + 1)) 0 := by
  have length : (prompt ++ further.take i).length = prompt.length + i := by
    rw [List.length_append, List.length_take, Nat.min_eq_left (Nat.le_of_lt inside)]
  have whole : prompt ++ further.take (i + 1) = prompt ++ further.take i ++ [further[i]] := by
    rw [List.append_assoc, List.take_append_getElem]
  rw [← length, whole]
  refine step_step (by simp [start]) (fun t member => known t ?_) fun l member => ?_
  · rw [← whole, List.mem_append] at member
    exact List.mem_append.2 (member.imp_right List.mem_of_mem_take)
  · have := fits l member
    rw [List.length_append] at this
    omega

theorem after_trail (start : prompt ≠ [])
    (known : ∀ token ∈ prompt ++ further, token < m.embedding.table.length)
    (fits : ∀ l ∈ m.layers, (prompt ++ further).length ≤ l.attention.positions)
    (inside : i ≤ further.length) :
    m.decoder.after {} ((TokenLoop.trail prompt 0 further).take (i + 1)) =
      (m.step {} (prompt ++ further.take i) 0).2 := by
  induction i with
  | zero =>
    rw [List.take_add_one, TokenLoop.trail_zero, List.take_zero, List.take_zero, List.append_nil]
    rfl
  | succ i ih =>
    rw [List.take_add_one, TokenLoop.trail_succ, List.getElem?_eq_getElem inside,
      Decoder.after_append, ih (Nat.le_of_succ_le inside), ← step_take start known fits inside,
      Nat.zero_add]
    rfl

/-- Every call is answered as if all tokens up to its last one were fed at once. -/
theorem answer?_trail (start : prompt ≠ [])
    (known : ∀ token ∈ prompt ++ further, token < m.embedding.table.length)
    (fits : ∀ l ∈ m.layers, (prompt ++ further).length ≤ l.attention.positions)
    (inside : i ≤ further.length) :
    m.decoder.answer? {} (TokenLoop.trail prompt 0 further) i =
      some (m.decoder.step {} (prompt ++ further.take i) 0).1 := by
  cases i with
  | zero =>
    rw [Decoder.answer?, TokenLoop.trail_zero, List.take_zero, List.take_zero, List.append_nil]
    rfl
  | succ i =>
    have before := after_trail start known fits (Nat.le_of_succ_le inside)
    rw [Decoder.answer?, TokenLoop.trail_succ, List.getElem?_eq_getElem inside, before,
      Nat.zero_add]
    simp only [Option.map_some, decoder, step_take start known fits inside]

end

/-! The logits of all positions that are fed, of which a step answers with the last. -/

def positionLogits (m : CausalModel) (s : State) (tokens : List Nat) (offset : Nat) :
    Except Failure (List Tensor) :=
  match m.embedding.rows tokens with
  | .error f => .error (.of (.compute f))
  | .ok xs =>
    match (Layer.forwardAll offset m.layers s.caches xs).1 with
    | .error f => .error (.of (.compute f))
    | .ok ys => .ok (ys.map m.logits)

theorem positionLogits_eq_ok {all : List Tensor} :
    m.positionLogits s tokens offset = .ok all ↔
      ∃ xs ys, m.embedding.rows tokens = .ok xs ∧
        (Layer.forwardAll offset m.layers s.caches xs).1 = .ok ys ∧ all = ys.map m.logits := by
  unfold positionLogits
  cases embedded : m.embedding.rows tokens with
  | error f => simp
  | ok xs =>
    cases passed : (Layer.forwardAll offset m.layers s.caches xs).1 with
    | error f => simp [passed]
    | ok ys => simp [passed, eq_comm]

theorem length_positionLogits {all : List Tensor}
    (made : m.positionLogits s tokens offset = .ok all) : all.length = tokens.length := by
  obtain ⟨xs, ys, embedded, passed, rfl⟩ := positionLogits_eq_ok.1 made
  rw [List.length_map, Layer.passAll_of_forwardAll passed, Layer.length_passAll,
    Embedding.length_rows embedded]

/-- The tokens after a position have no part in its logits. -/
theorem positionLogits_take {all : List Tensor} {k : Nat}
    (made : m.positionLogits s tokens offset = .ok all) (first : 0 < k)
    (inside : k ≤ tokens.length) :
    m.positionLogits s (tokens.take k) offset = .ok (all.take k) := by
  obtain ⟨xs, ys, embedded, passed, rfl⟩ := positionLogits_eq_ok.1 made
  rw [← List.take_append_drop k tokens, Embedding.rows_append] at embedded
  obtain ⟨before, after, embedded', -, rfl⟩ := bind_pure_eq_ok.1 embedded
  have length := Embedding.length_rows embedded'
  rw [List.length_take, Nat.min_eq_left inside] at length
  have start : before ≠ [] := List.length_pos_iff.1 (length ▸ first)
  refine positionLogits_eq_ok.2 ⟨before, ys.take k, embedded', ?_, (List.map_take ..).symm⟩
  rw [Layer.forwardAll_prefix start passed, length]

theorem step_eq_ok {answer : Tensor} :
    (m.step s tokens offset).1 = .ok answer ↔
      ∃ all, m.positionLogits s tokens offset = .ok all ∧ all.getLast? = some answer := by
  unfold step positionLogits
  cases embedded : m.embedding.rows tokens with
  | error f => simp
  | ok xs =>
    rcases passed : Layer.forwardAll offset m.layers s.caches xs with ⟨f | ys, caches⟩
    · simp [passed]
    · cases last : ys.getLast? with
      | none => simp [passed, last]
      | some y => simp [passed, last]

end CausalModel
end TextCompletion
