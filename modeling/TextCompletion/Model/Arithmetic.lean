import TextCompletion.Generation.Distribution
import TextCompletion.Model.Fault

/-!
Arithmetic on rows of single-precision numbers, and the parts that every model has: a table of rows
for its tokens, a norm, and a head that turns a row into logits. Sums run from left to right.
-/

namespace TextCompletion

namespace Row

def dot (x y : Row) : Float32 := Distribution.sum (List.zipWith (· * ·) x y)

def add (x y : Row) : Row := List.zipWith (· + ·) x y

def scale (factor : Float32) (x : Row) : Row := x.map (· * factor)

def image (matrix : List Row) (x : Row) : Row := matrix.map (dot · x)

@[simp] theorem length_image (matrix : List Row) (x : Row) :
    (image matrix x).length = matrix.length := by
  simp [image]

/-- Rows added up with weights; `width` zeros to begin with. -/
def combine (width : Nat) (weights : Row) (rows : List Row) : Row :=
  (List.zipWith scale weights rows).foldl add (List.replicate width 0)

def mean (x : Row) : Float32 := Distribution.sum x / Float32.ofNat x.length

def squares (x : Row) : Row := x.map fun v => v * v

end Row

inductive Norm where
  | rootMeanSquare (epsilon : Float32) (weight : Row)
  | standard (epsilon : Float32) (weight shift : Row)

def Norm.apply : Norm → Row → Row
  | .rootMeanSquare epsilon weight, x =>
    let size := (Row.mean (Row.squares x) + epsilon).sqrt
    List.zipWith (fun v w => v / size * w) x weight
  | .standard epsilon weight shift, x =>
    let mean := Row.mean x
    let inverse := 1 / (Row.mean (Row.squares x) - mean * mean + epsilon).sqrt
    Row.add (List.zipWith (fun v w => (v - mean) * inverse * w) x weight) shift

structure Embedding where
  table : List Row
  factor : Option Float32 := none

namespace Embedding

def row (e : Embedding) (token : Nat) : Except ComputeFault Row :=
  match e.table[token]? with
  | none => .error (.badIndex token e.table.length)
  | some x =>
    match e.factor with
    | none => .ok x
    | some factor => .ok (Row.scale factor x)

def rows (e : Embedding) (tokens : List Nat) : Except ComputeFault (List Row) := tokens.mapM e.row

end Embedding

structure Head where
  matrix : List Row
  bias : Option Row := none
  /-- Logits are bent towards this bound. -/
  cap : Option Float := none

namespace Head

def bend (cap : Float) (x : Float32) : Float32 :=
  (x * (1 / cap).toFloat32).tanh * cap.toFloat32

def logits (h : Head) (x : Row) : Row :=
  let raw := Row.image h.matrix x
  let shifted := match h.bias with | none => raw | some bias => Row.add raw bias
  match h.cap with
  | none => shifted
  | some cap => shifted.map (bend cap)

end Head
end TextCompletion
