import OperatorGraph.Operation

set_option autoImplicit false

namespace OperatorGraph

/-- A feed forward block: normalization, a projection, an activation and a second projection. The
output has one row for each row of the input. -/
structure Mlp where
  activation : Activation
  /-- Both projections add a bias. -/
  hasBias : Bool
  epsilon : Scalar
  deriving DecidableEq, Repr

namespace Mlp

def inputs (p : Mlp) : List String :=
  ["x", "gamma", "beta", "w_up", "w_down"] ++ if p.hasBias then ["b_up", "b_down"] else []

/-- The bias of a projection, if it has one. -/
def bias (p : Mlp) (index : Nat) : List TensorId :=
  if p.hasBias then [.input index] else []

def graph (p : Mlp) : Graph :=
  let norm : LayerNorm := ⟨p.epsilon, -1, -1, false⟩
  let projection : Operator := .matMul (.linear p.hasBias)
  Graph.new "mlp" p.inputs ["y"] ["normed", "up", "act"] [
    (Node.new "norm" (.layerNorm norm) [.input 0, .input 1, .input 2]
      [.internal 0]).withHook (.layerNormAxis 1),
    ((Node.new "up" projection ([.internal 0, .input 3] ++ p.bias 5)
      [.internal 1]).withView 0 .flattenLeading).withHook .matMulExtents,
    Node.new "act" (.activation p.activation) [.internal 1] [.internal 2],
    (Node.new "down" projection ([.internal 2, .input 4] ++ p.bias 6)
      [.output 0]).withHook .matMulExtents]

def equals (p q : Mlp) : Bool :=
  p.activation = q.activation && p.hasBias = q.hasBias && p.epsilon.equals q.epsilon

def sameTopology (p q : Mlp) : Bool :=
  p.hasBias = q.hasBias && p.activation = q.activation

def update (p : Mlp) (patch : Patch) : Patch × Except PoolError Unit :=
  patch.edit "mlp" "norm" .layerNorm (.withEpsilon p.epsilon)

def operation : Operation where
  name := "mlp"
  Param := Mlp
  build p := .ok p.graph
  equals := equals
  sameTopology := sameTopology
  update := update

end Mlp

end OperatorGraph
