import TextCompletion.Model.Arithmetic

/-!
One layer of a decoder. Every position is turned into a query, a key and a value for each head; keys
and values are kept, and a query weighs the values of all positions up to its own by how well their
keys fit. Queries and keys are rotated by an angle that grows with the position, so their fit
depends on distance alone. Several query heads may share a key head.
-/

namespace TextCompletion

structure CachedPosition where
  key : Row
  value : Row

abbrev KeyValueCache := List CachedPosition

structure Attention where
  heads : Nat
  keyValueHeads : Nat
  headWidth : Nat
  positions : Nat
  frequencies : Row
  query : List Row
  key : List Row
  value : List Row
  output : List Row

namespace Attention

/-- Rotates the row of one head: its first half against its second. -/
def rotateHead (angles : Row) (x : Row) : Row :=
  let half := x.length / 2
  let left := x.take half
  let right := x.drop half
  let pairs := angles.zip (left.zip right)
  (pairs.map fun (a, u, v) => u * a.cos - v * a.sin) ++
    pairs.map fun (a, u, v) => u * a.sin + v * a.cos

def rotate (a : Attention) (heads position : Nat) (x : Row) : Row :=
  let angles := Row.scale (Float32.ofNat position) a.frequencies
  (Tensor.groups a.headWidth heads x).flatMap (rotateHead angles)

def queryOf (a : Attention) (position : Nat) (x : Row) : Row :=
  a.rotate a.heads position (Row.image a.query x)

def cachedOf (a : Attention) (position : Nat) (x : Row) : CachedPosition :=
  { key := a.rotate a.keyValueHeads position (Row.image a.key x), value := Row.image a.value x }

def headPart (a : Attention) (head : Nat) (x : Row) : Row :=
  (x.drop (head * a.headWidth)).take a.headWidth

def keyHead (a : Attention) (head : Nat) : Nat := head / (a.heads / a.keyValueHeads)

def attendHead (a : Attention) (query : Row) (seen : KeyValueCache) (head : Nat) : Row :=
  let inverse := (1 / (Float.ofNat a.headWidth).sqrt).toFloat32
  let part := a.headPart (a.keyHead head)
  let scores := seen.map fun p => Row.dot (a.headPart head query) (part p.key) * inverse
  Row.combine a.headWidth (Distribution.softmax scores) (seen.map fun p => part p.value)

def attend (a : Attention) (query : Row) (seen : KeyValueCache) : Row :=
  Row.image a.output ((List.range a.heads).flatMap (a.attendHead query seen))

def extend (a : Attention) (cache : KeyValueCache) (offset : Nat) (xs : List Row) :
    KeyValueCache :=
  cache ++ xs.zipIdx.map fun (x, i) => a.cachedOf (offset + i) x

@[simp] theorem length_extend (a : Attention) (cache : KeyValueCache) (offset : Nat)
    (xs : List Row) : (a.extend cache offset xs).length = cache.length + xs.length := by
  simp [extend]

theorem extend_extend (a : Attention) (cache : KeyValueCache) (offset : Nat) (xs ys : List Row) :
    a.extend (a.extend cache offset xs) (offset + xs.length) ys =
      a.extend cache offset (xs ++ ys) := by
  unfold extend
  rw [List.zipIdx_append, List.map_append, List.append_assoc, Nat.zero_add,
    List.zipIdx_eq_map_add (l := ys) (i := xs.length), List.map_map]
  simp [Function.comp_def, Nat.add_assoc]

/-- The new rows' results: each sees the earlier positions, those before it and itself. -/
def outputs (a : Attention) (cache : KeyValueCache) (offset : Nat) (xs : List Row) : List Row :=
  let all := a.extend cache offset xs
  xs.zipIdx.map fun (x, i) => a.attend (a.queryOf (offset + i) x) (all.take (cache.length + i + 1))

@[simp] theorem length_outputs (a : Attention) (cache : KeyValueCache) (offset : Nat)
    (xs : List Row) : (a.outputs cache offset xs).length = xs.length := by
  simp [outputs]

/-- Positions beyond the table have no angles. -/
def checkPositions (a : Attention) (offset count : Nat) : Except ComputeFault Unit :=
  if offset + count ≤ a.positions then .ok ()
  else .error (.outsideTable [a.positions, a.frequencies.length] offset count)

/-- Several rows at once can only be the first ones: which of them see which is laid out for a
square. -/
def checkMask (a : Attention) (cached count : Nat) : Except ComputeFault Unit :=
  if count = 1 ∨ cached = 0 then .ok ()
  else .error (.cannotBroadcast [count, count] [1, a.heads, count, cached + count])

end Attention

def Row.silu (x : Row) : Row := x.map fun v => v / (1 + (-v).exp)

structure Layer where
  attention : Attention
  attentionNorm : Norm
  innerNorm : Norm
  gate : List Row
  up : List Row
  down : List Row

namespace Layer

def inner (l : Layer) (x : Row) : Row :=
  let n := l.innerNorm.apply x
  Row.add x
    (Row.image l.down
      (List.zipWith (· * ·) (Row.silu (Row.image l.gate n)) (Row.image l.up n)))

def forward (l : Layer) (cache : KeyValueCache) (offset : Nat) (xs : List Row) :
    Except ComputeFault (List Row) × KeyValueCache :=
  match l.attention.checkPositions offset xs.length with
  | .error f => (.error f, cache)
  | .ok _ =>
    let normed := xs.map l.attentionNorm.apply
    let extended := l.attention.extend cache offset normed
    match l.attention.checkMask cache.length xs.length with
    | .error f => (.error f, extended)
    | .ok _ =>
      let mixed := List.zipWith Row.add xs (l.attention.outputs cache offset normed)
      (.ok (mixed.map l.inner), extended)

/-- The new rows after all layers. Each layer has a cache of its own; one that is missing is empty.
-/
def forwardAll (offset : Nat) : List Layer → List KeyValueCache → List Row →
    Except ComputeFault (List Row) × List KeyValueCache
  | [], _, xs => (.ok xs, [])
  | l :: layers, caches, xs =>
    match l.forward (caches.headD []) offset xs with
    | (.error f, cache) => (.error f, cache :: caches.tail)
    | (.ok ys, cache) =>
      let (result, rest) := forwardAll offset layers caches.tail ys
      (result, cache :: rest)

end Layer
end TextCompletion
