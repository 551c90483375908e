import OperatorGraph.Inference.Basic

set_option autoImplicit false

namespace OperatorGraph

open Inference

/-- A cast keeps the shape, a scaling needs a float, and a binary operation broadcasts. -/
def Elementwise.infer : Elementwise → List TensorDesc → Answer
  | cast target, [x] => .ok [.rowMajor target x.shape]
  | scale _, [x] => do
    expectFloat 0 x
    return [.rowMajor x.dtype x.shape]
  | _, [x, y] => do
    expectDtype 1 y x.dtype
    let shape ← broadcast x.shape y.shape
    return [.rowMajor x.dtype shape]
  | _, _ => missingInput

namespace Activation

/-- The gate halves the last dimension, which has to be even. -/
def inferGate (x : TensorDesc) : Answer :=
  match x.shape.dims.getLast? with
  | none => objection .gateRank
  | some hidden => do
    if (← exactly (Bounded.rem hidden 2)) ≠ 0 then objection (.gateOdd hidden)
    else
      let half ← exactly (Bounded.div hidden 2)
      return [x.withShape ⟨x.shape.dims.dropLast ++ [half]⟩]

def infer (kind : Activation) : List TensorDesc → Answer
  | [x] => do
    expectFloat 0 x
    if kind = swiglu then inferGate x else return [x]
  | _ => missingInput

end Activation

end OperatorGraph
