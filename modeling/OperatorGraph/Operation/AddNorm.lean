import OperatorGraph.Operation

set_option autoImplicit false

namespace OperatorGraph

/-- The sum of a tensor and a residual, normalized over a number of trailing dimensions, with the
statistics of each row. -/
structure AddNorm where
  epsilon : Scalar
  /-- The trailing dimensions that are normalized over. -/
  normDims : Nat
  deriving DecidableEq, Repr

namespace AddNorm

def graph (p : AddNorm) : Graph :=
  let norm : LayerNorm := ⟨p.epsilon, -1, -1, true⟩
  Graph.new "add_norm" ["x", "residual", "gamma", "beta"] ["out"] ["sum", "mean", "rstd"] [
    Node.new "add" (.elementwise .add) [.input 0, .input 1] [.internal 0],
    (Node.new "norm" (.layerNorm norm) [.internal 0, .input 2, .input 3]
      [.output 0, .internal 1, .internal 2]).withHook (.layerNormAxis p.normDims)]

def equals (p q : AddNorm) : Bool :=
  p.epsilon.equals q.epsilon && p.normDims = q.normDims

def sameTopology (p q : AddNorm) : Bool :=
  p.normDims = q.normDims

def update (p : AddNorm) (patch : Patch) : Patch × Except PoolError Unit :=
  patch.edit "add_norm" "norm" .layerNorm (.withEpsilon p.epsilon)

def operation : Operation where
  name := "add_norm"
  Param := AddNorm
  build p := .ok p.graph
  equals := equals
  sameTopology := sameTopology
  update := update

end AddNorm

end OperatorGraph
