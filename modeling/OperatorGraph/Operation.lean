import OperatorGraph.Error
import OperatorGraph.Graph.Patch

set_option autoImplicit false

namespace OperatorGraph

/-- A family of graphs that are built from one type of parameter. -/
structure Operation where
  name : String
  Param : Type
  build : Param → Except Error Graph
  /-- Arithmetic equality of parameters. A parameter that holds a NaN differs from itself. -/
  equals : Param → Param → Bool
  /-- The graphs of both parameters have the same nodes, tensors and views. -/
  sameTopology : Param → Param → Bool
  /-- Patches a graph of the same topology so that it behaves as if built from the parameter. -/
  update : Param → Patch → Patch × Except PoolError Unit

namespace Operation

/-- An operation as it is named in the log. -/
def label (op : Operation) : String :=
  "`" ++ op.name ++ "`"

/-- An update for graphs that depend on their topology alone. -/
def keep {Param : Type} (_ : Param) (p : Patch) : Patch × Except PoolError Unit :=
  (p, .ok ())

end Operation

end OperatorGraph
