import OperatorGraph.Inference.Error
import OperatorGraph.Shape.Broadcast

set_option autoImplicit false

namespace OperatorGraph.Inference

/-- The descriptors of a node's outputs, or why there are none. -/
abbrev Answer := Except ShapeError (List TensorDesc)

def objection {α : Type} (o : Objection) : Except ShapeError α :=
  .error (.invalid o)

/-- Arithmetic inside a rule: a fault of it is the rule's. -/
def exactly {α : Type} (value : Except Fault α) : Except ShapeError α :=
  value.mapError .fault

def missingInput {α : Type} : Except ShapeError α :=
  .error (.fault .indexOutOfRange)

def expectRank (index : Nat) (x : TensorDesc) (rank : Nat) : Except ShapeError Unit :=
  if x.shape.rank = rank then .ok () else .error (.rank index (.exactly rank) x.shape)

def expectDtype (index : Nat) (x : TensorDesc) (expected : ElementType) :
    Except ShapeError Unit :=
  if x.dtype = expected then .ok () else .error (.dtype index expected x.dtype)

def expectFloat (index : Nat) (x : TensorDesc) : Except ShapeError Unit :=
  if x.dtype.isFloat then .ok () else objection (.notFloat index x.dtype)

/-- The size of a dimension that a rank check has already shown to exist. -/
def dimAt (x : TensorDesc) (axis : Nat) : Except ShapeError Int :=
  match x.shape.dims[axis]? with
  | some dim => .ok dim
  | none => .error (.fault .indexOutOfRange)

def expectDim (index : Nat) (x : TensorDesc) (axis : Nat) (expected : Int) :
    Except ShapeError Unit := do
  let actual ← dimAt x axis
  if actual = expected then .ok () else .error (.dim index axis expected actual)

/-- The position of a possibly negative axis. -/
def axisOf (s : Shape) (axis : Int) : Except ShapeError Nat :=
  match s.axis? axis with
  | some position => .ok position
  | none => .error (.axis axis s.rank)

def broadcast (lhs rhs : Shape) : Except ShapeError Shape :=
  match lhs.broadcast? rhs with
  | some shape => .ok shape
  | none => .error (.broadcast lhs rhs)

end OperatorGraph.Inference
