import OperatorGraph.Shape

set_option autoImplicit false

namespace OperatorGraph.Shape

/-- The dimension that two aligned dimensions agree on. -/
def joinDim (a b : Int) : Option Int :=
  if a = b then some a
  else if a = 1 then some b
  else if b = 1 then some a
  else none

/-- Dimensions with ones put in front, up to a length. -/
def padTo (rank : Nat) (dims : List Int) : List Int :=
  List.replicate (rank - dims.length) 1 ++ dims

def broadcast? (lhs rhs : Shape) : Option Shape :=
  let rank := max lhs.rank rhs.rank
  let joined := List.zipWith joinDim (padTo rank lhs.dims) (padTo rank rhs.dims)
  (joined.mapM id).map Shape.mk

/-- Strides that walk a shape along the coordinates of a broadcast target: zero on the axes that
the shape lacks and on those where its size is one. -/
def broadcastStrides (s : Shape) (target : Shape) : List Int :=
  List.replicate (target.rank - s.rank) 0 ++
    List.zipWith (fun dim stride => if dim = 1 then 0 else stride) s.dims s.contiguousStrides

@[simp] theorem length_padTo (rank : Nat) (dims : List Int) :
    (padTo rank dims).length = max rank dims.length := by
  simp [padTo]; omega

@[simp] theorem joinDim_self (a : Int) : joinDim a a = some a := by
  simp [joinDim]

end OperatorGraph.Shape
