/-!
Tensors of single-precision numbers: a shape, and the values row by row.
-/

namespace TextCompletion

abbrev Row := List Float32

structure Tensor where
  shape : List Nat
  values : List Float32

namespace Tensor

def shapeText (shape : List Nat) : String := "[" ++ ", ".intercalate (shape.map toString) ++ "]"

/-- Consecutive groups of `width` values. -/
def groups (width : Nat) : Nat → List Float32 → List Row
  | 0, _ => []
  | count + 1, values => values.take width :: groups width count (values.drop width)

@[simp] theorem length_groups (width count : Nat) (values : List Float32) :
    (groups width count values).length = count := by
  induction count generalizing values with
  | zero => rfl
  | succ count ih => simp [groups, ih]

def rows (t : Tensor) : List Row :=
  match t.shape with
  | [count, width] => groups width count t.values
  | _ => [t.values]

end Tensor
end TextCompletion
