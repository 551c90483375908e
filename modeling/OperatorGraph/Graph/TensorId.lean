set_option autoImplicit false

namespace OperatorGraph

/-- A place in one of the three tensor tables of a graph. -/
inductive TensorId where
  | input (index : Nat)
  | output (index : Nat)
  | internal (index : Nat)
  deriving DecidableEq, Repr

namespace TensorId

def index : TensorId → Nat
  | input i | output i | internal i => i

def kind : TensorId → String
  | input _ => "input"
  | output _ => "output"
  | internal _ => "internal"

def isInput : TensorId → Bool
  | input _ => true
  | _ => false

def render (id : TensorId) : String :=
  id.kind ++ "[" ++ toString id.index ++ "]"

def describe : TensorId → String
  | input i => "Input(" ++ toString i ++ ")"
  | output i => "Output(" ++ toString i ++ ")"
  | internal i => "Internal(" ++ toString i ++ ")"

end TensorId

end OperatorGraph
