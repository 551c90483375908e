import OperatorGraph.Inference.Basic

set_option autoImplicit false

namespace OperatorGraph

open Inference

namespace MatMul

/-- Extents that were declared have to be those of the operands. -/
def checkDeclared (p : MatMul) (a b : Shape) (extents : Extents) : Except ShapeError Unit :=
  match p.extents with
  | some declared =>
    if declared = extents then .ok () else objection (.extentsDisagree declared a b)
  | none => .ok ()

/-- The bias, where there is one, is a row of as many columns as the product. -/
def checkBias (p : MatMul) (columns : Int) (rest : List TensorDesc) : Except ShapeError Unit :=
  if p.hasBias then
    match rest with
    | bias :: _ =>
      if bias.shape.dims = [columns] then .ok () else objection (.biasShape columns bias.shape)
    | [] => missingInput
  else .ok ()

def infer (p : MatMul) : List TensorDesc → Answer
  | a :: b :: rest => do
    expectRank 0 a 2
    expectRank 1 b 2
    expectDtype 1 b a.dtype
    let innerAxis := if p.transposeB then 1 else 0
    let inner ← dimAt b innerAxis
    match p.extentsFor? a.shape b.shape with
    | none => missingInput
    | some extents =>
      if inner ≠ extents.k then .error (.dim 1 innerAxis extents.k inner)
      else
        checkDeclared p a.shape b.shape extents
        checkBias p extents.n rest
        return [.rowMajor a.dtype ⟨[extents.m, extents.n]⟩]
  | _ => missingInput

end MatMul

end OperatorGraph
