import TextCompletion.Tensor

/-!
What can go wrong while a model computes.
-/

namespace TextCompletion

inductive ComputeFault where
  /-- A row is taken that a table does not have. -/
  | badIndex (index size : Nat)
  /-- Rows are taken beyond the end of a table. -/
  | outsideTable (shape : List Nat) (start length : Nat)
  | cannotBroadcast (source target : List Nat)
  | cannotAdd (left right : List Nat)
  deriving DecidableEq, Repr

def ComputeFault.message : ComputeFault → String
  | .badIndex index size =>
    "index-select invalid index " ++ toString index ++ " with dim size " ++ toString size
  | .outsideTable shape start length =>
    "narrow invalid args " ++
      (if shape.headD 0 < start then "start > dim_len" else "start + len > dim_len") ++ ": " ++
      Tensor.shapeText shape ++ ", dim: 0, start: " ++ toString start ++ ", len:" ++
      toString length
  | .cannotBroadcast source target =>
    "cannot broadcast " ++ Tensor.shapeText source ++ " to " ++ Tensor.shapeText target
  | .cannotAdd left right =>
    "shape mismatch in broadcast_add, lhs: " ++ Tensor.shapeText left ++ ", rhs: " ++
      Tensor.shapeText right

end TextCompletion
