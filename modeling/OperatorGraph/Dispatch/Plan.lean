import OperatorGraph.Dispatch.Attention
import OperatorGraph.Dispatch.Copy
import OperatorGraph.Dispatch.Elementwise
import OperatorGraph.Dispatch.Gather
import OperatorGraph.Dispatch.MatMul
import OperatorGraph.Dispatch.Rows

set_option autoImplicit false

namespace OperatorGraph.Launch

open Dispatch

/-- The position of the first tensor, inputs before outputs, that is not stored row by row. -/
def firstTiled? (launch : Launch) : Option Nat :=
  (launch.inputs ++ launch.outputs).findIdx? (·.desc.format ≠ .rowMajor)

/-- The dispatches of the operator's family. -/
def planFamily (launch : Launch) : Answer :=
  match launch.param with
  | .elementwise kind => kind.plan launch
  | .layerNorm p => p.plan launch
  | .rmsNorm epsilon => RmsNorm.plan epsilon launch
  | .matMul p => p.plan launch
  | .activation kind => kind.plan launch
  | .softmax axis => Softmax.plan axis launch
  | .asStrided p => p.plan launch
  | .transpose perm => Transposition.plan perm launch
  | .relayout _ => missing launch .relayout
  | .split axis count => Split.plan axis count launch
  | .concat axis => Concat.plan axis launch
  | .gather axis => Gather.plan axis launch
  | .rope rotaryCoeff => Rope.plan rotaryCoeff launch
  | .selfAttention p => p.plan launch

/-- The dispatches that implement one launch. Tiled tensors have no kernels, and a launch without
output bytes needs no dispatch. -/
def plan (launch : Launch) : Answer :=
  match launch.firstTiled? with
  | some tensor => missing launch (.tiled tensor)
  | none =>
    if launch.outputs.all (·.bytes = 0) then .ok []
    else launch.planFamily

end OperatorGraph.Launch
