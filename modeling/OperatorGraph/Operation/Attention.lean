import OperatorGraph.Operation

set_option autoImplicit false

namespace OperatorGraph

/-- An attention block over a key and value cache: a query projection, attention, and an output
projection. From one decoding step to the next only the layout of the batch changes. -/
structure Attention where
  headNum : Int
  kvHeadNum : Int
  headDim : Int
  tokenOffset : List Int
  seqLen : List Int
  deriving DecidableEq, Repr

namespace Attention

/-- Scores are scaled by one over the square root of the head dimension. -/
def scores (p : Attention) : SelfAttention where
  headNum := p.headNum
  kvHeadNum := p.kvHeadNum
  qkScale := (Scalar.ofInt p.headDim).inverseSqrt
  tokenOffset := p.tokenOffset
  seqLen := p.seqLen

def graph (p : Attention) : Graph :=
  let projection : Operator := .matMul (.linear false)
  Graph.new "attention" ["x", "wq", "k", "v", "wo"] ["out"] ["q", "context"] [
    (Node.new "q_proj" projection [.input 0, .input 1] [.internal 0]).withHook .matMulExtents,
    Node.new "attn" (.selfAttention p.scores) [.internal 0, .input 2, .input 3] [.internal 1],
    (Node.new "o_proj" projection [.internal 1, .input 4] [.output 0]).withHook .matMulExtents]

def sameTopology (p q : Attention) : Bool :=
  p.headNum = q.headNum && p.kvHeadNum = q.kvHeadNum && p.headDim = q.headDim

def update (p : Attention) (patch : Patch) : Patch × Except PoolError Unit :=
  patch.edit "attention" "attn" .selfAttention (.withBatch p.tokenOffset p.seqLen)

def operation : Operation where
  name := "attention"
  Param := Attention
  build p := .ok p.graph
  equals p q := p = q
  sameTopology := sameTopology
  update := update

end Attention

end OperatorGraph
