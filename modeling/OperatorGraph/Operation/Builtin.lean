import OperatorGraph.Operation.AddNorm
import OperatorGraph.Operation.Attention
import OperatorGraph.Operation.Mlp

set_option autoImplicit false

namespace OperatorGraph

inductive Builtin where
  | addNorm
  | mlp
  | attention
  deriving DecidableEq, Repr

namespace Builtin

def all : List Builtin :=
  [addNorm, mlp, attention]

@[reducible] def operation : Builtin → Operation
  | addNorm => AddNorm.operation
  | mlp => Mlp.operation
  | attention => Attention.operation

end Builtin

end OperatorGraph
