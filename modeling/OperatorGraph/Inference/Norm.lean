import OperatorGraph.Inference.Basic

set_option autoImplicit false

namespace OperatorGraph

open Inference

namespace LayerNorm

/-- The saturating product of the dimensions before an axis. -/
def leading (x : Shape) (axis : Nat) : Int :=
  Bounded.satProduct (x.dims.take axis)

/-- The shape of the row statistics: ones in place of the normalized dimensions. -/
def statsShape (x : Shape) (axis : Nat) : Shape :=
  ⟨x.dims.take axis ++ List.replicate (x.rank - axis) 1⟩

/-- Gain and bias have the element type of the tensor and the shape of its parameter dimensions. -/
def expectParams (x : TensorDesc) (params : Shape) (index : Nat) (y : TensorDesc) :
    Except ShapeError Unit := do
  expectDtype index y x.dtype
  if y.shape = params then .ok () else objection (.paramsShape index params y.shape)

def infer (p : LayerNorm) : List TensorDesc → Answer
  | [x, gain, bias] => do
    expectFloat 0 x
    let axis ← axisOf x.shape p.normAxis
    let product := leading x.shape axis
    if product < 0 then objection (.negativeLeading product x.shape)
    else
      let paramsAxis ← axisOf x.shape p.paramsAxis
      let params : Shape := ⟨x.shape.dims.drop paramsAxis⟩
      expectParams x params 1 gain
      expectParams x params 2 bias
      let stats := TensorDesc.rowMajor .f32 (statsShape x.shape axis)
      return .rowMajor x.dtype x.shape :: if p.withStats then [stats, stats] else []
  | _ => missingInput

end LayerNorm

def inferRmsNorm : List TensorDesc → Answer
  | [x, gain] => do
    expectFloat 0 x
    expectDtype 1 gain x.dtype
    match x.shape.dims.getLast? with
    | none => objection .rmsNormRank
    | some hidden =>
      expectRank 1 gain 1
      expectDim 1 gain 0 hidden
      return [.rowMajor x.dtype x.shape]
  | _ => missingInput

def inferSoftmax (axis : Int) : List TensorDesc → Answer
  | [x] => do
    expectFloat 0 x
    let _ ← axisOf x.shape axis
    return [x]
  | _ => missingInput

end OperatorGraph
