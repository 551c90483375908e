import OperatorGraph.Graph.TensorId
import OperatorGraph.Operator

set_option autoImplicit false

namespace OperatorGraph

inductive Malformation where
  | duplicateName (node : String)
  | inputCount (node : String) (family : Family) (declared taken : Nat)
  | outputCount (node : String) (family : Family) (declared produced : Nat)
  | viewIndex (node : String) (index inputs : Nat)
  | readsMissing (node : String) (id : TensorId)
  | readsEarly (node : String) (id : TensorId)
  | writesMissing (node : String) (id : TensorId)
  | writesInput (node : String) (id : TensorId)
  | producedTwice (id : TensorId) (node : String)
  | neverProduced (id : TensorId)
  /-- Found while a graph is set up or run, not while it is validated. -/
  | notBound (id : TensorId)
  /-- A parameter for which a graph operation has no graph. -/
  | negativeCount (n : Int)
  deriving DecidableEq, Repr

def Malformation.message : Malformation → String
  | .duplicateName node => "duplicate node name `" ++ node ++ "`"
  | .inputCount node family declared taken =>
    "node `" ++ node ++ "` (" ++ family.name ++
      s!") has {declared} inputs, the operator takes {taken}"
  | .outputCount node family declared produced =>
    "node `" ++ node ++ "` (" ++ family.name ++
      s!") has {declared} outputs, the operator produces {produced}"
  | .viewIndex node index inputs =>
    "node `" ++ node ++ s!"` has a view on input {index} but only {inputs} inputs"
  | .readsMissing node id =>
    "node `" ++ node ++ "` reads " ++ id.render ++ ", which does not exist"
  | .readsEarly node id =>
    "node `" ++ node ++ "` reads " ++ id.render ++ " before any node produces it"
  | .writesMissing node id =>
    "node `" ++ node ++ "` writes " ++ id.render ++ ", which does not exist"
  | .writesInput node id => "node `" ++ node ++ "` writes to graph input " ++ id.render
  | .producedTwice id node =>
    id.render ++ " is produced by more than one node, again by `" ++ node ++ "`"
  | .neverProduced id => id.render ++ " is never produced"
  | .notBound id => id.render ++ " is read before it is bound or produced"
  | .negativeCount n => s!"{n} < 0"

end OperatorGraph
