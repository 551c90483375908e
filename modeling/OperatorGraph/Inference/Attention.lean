import OperatorGraph.Inference.Basic

set_option autoImplicit false

namespace OperatorGraph

open Inference

namespace Rope

/-- The hidden size of a rotated tensor is a number of whole heads. -/
def expectHeads (index : Nat) (x : TensorDesc) (headDim : Int) : Except ShapeError Unit := do
  let hidden ← dimAt x 1
  if (← exactly (Bounded.rem hidden headDim)) = 0 then .ok ()
  else objection (.headDimMultiple index hidden headDim)

/-- The head size is a number of whole rotation groups. -/
def expectGroups (headDim rotaryCoeff : Int) : Except ShapeError Unit :=
  if headDim ≤ 0 ∨ rotaryCoeff ≤ 0 then objection (.rotaryGroups headDim rotaryCoeff)
  else do
    if (← exactly (Bounded.rem headDim rotaryCoeff)) = 0 then .ok ()
    else objection (.rotaryGroups headDim rotaryCoeff)

def infer (rotaryCoeff : Int) : List TensorDesc → Answer
  | [q, k, cos, sin] => do
    expectRank 0 q 2
    expectRank 1 k 2
    expectRank 2 cos 2
    expectRank 3 sin 2
    expectFloat 0 q
    expectDtype 1 k q.dtype
    expectDtype 2 cos q.dtype
    expectDtype 3 sin q.dtype
    let tokens ← dimAt q 0
    let headDim ← dimAt cos 1
    expectGroups headDim rotaryCoeff
    expectDim 1 k 0 tokens
    expectDim 2 cos 0 tokens
    expectDim 3 sin 0 tokens
    expectDim 3 sin 1 headDim
    expectHeads 0 q headDim
    expectHeads 1 k headDim
    return [q, k]
  | _ => missingInput

end Rope

namespace SelfAttention

/-- Query heads share key heads evenly, and the batch is described by two lists of one length
without negative entries. -/
def checkBatch (p : SelfAttention) : Except ShapeError Unit := do
  if p.headNum ≤ 0 ∨ p.kvHeadNum ≤ 0 then objection (.headGroups p.headNum p.kvHeadNum)
  else if (← exactly (Bounded.rem p.headNum p.kvHeadNum)) ≠ 0 then
    objection (.headGroups p.headNum p.kvHeadNum)
  else if p.tokenOffset.length ≠ p.seqLen.length then
    objection (.batchLengths p.tokenOffset.length p.seqLen.length)
  else if (p.seqLen ++ p.tokenOffset).any (· < 0) then objection .negativeBatch
  else .ok ()

/-- Keys and values have the rows of the batch and the columns of their heads. -/
def expectCache (p : SelfAttention) (headDim : Int) (index : Nat) (x : TensorDesc) :
    Except ShapeError Unit := do
  expectDim index x 0 p.kvTokens
  expectDim index x 1 (← exactly (Bounded.mul p.kvHeadNum headDim))

/-- A query row count that is known has to be that of the batch. -/
def infer (p : SelfAttention) : List TensorDesc → Answer
  | [q, k, v] => do
    checkBatch p
    expectRank 0 q 2
    expectRank 1 k 2
    expectRank 2 v 2
    expectFloat 0 q
    expectDtype 1 k q.dtype
    expectDtype 2 v q.dtype
    let tokens ← dimAt q 0
    let hidden ← dimAt q 1
    if (← exactly (Bounded.rem hidden p.headNum)) ≠ 0 then
      objection (.queryHidden hidden p.headNum)
    else
      let headDim ← exactly (Bounded.div hidden p.headNum)
      if 0 ≤ tokens ∧ tokens ≠ p.tokens then .error (.dim 0 0 p.tokens tokens)
      else
        expectCache p headDim 1 k
        expectCache p headDim 2 v
        return [q]
  | _ => missingInput

end SelfAttention

end OperatorGraph
