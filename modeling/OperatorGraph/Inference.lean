import OperatorGraph.Inference.Attention
import OperatorGraph.Inference.Elementwise
import OperatorGraph.Inference.MatMul
import OperatorGraph.Inference.Norm
import OperatorGraph.Inference.Rearrange

set_option autoImplicit false

namespace OperatorGraph.Operator

open Inference

/-- The first input whose format the operator does not accept, from a position on. -/
def formatObjection? (op : Operator) : Nat → List TensorDesc → Option ShapeError
  | _, [] => none
  | index, x :: rest =>
    if x.format ∈ op.acceptedFormats index then op.formatObjection? (index + 1) rest
    else some (.format index x.format)

/-- The rule of the operator's family. -/
def inferFamily : Operator → List TensorDesc → Answer
  | elementwise kind => kind.infer
  | layerNorm p => p.infer
  | rmsNorm _ => inferRmsNorm
  | matMul p => p.infer
  | activation kind => kind.infer
  | softmax axis => inferSoftmax axis
  | asStrided p => p.infer
  | transpose perm => Transposition.infer perm
  | relayout target => inferRelayout target
  | split axis count => inferSplit axis count
  | concat axis => Concat.infer axis
  | gather axis => inferGather axis
  | rope rotaryCoeff => Rope.infer rotaryCoeff
  | selfAttention p => p.infer

def infer (op : Operator) (inputs : List TensorDesc) : Answer :=
  if inputs.length ≠ op.inputCount then
    .error (.inputCount op.inputCount inputs.length)
  else match op.formatObjection? 0 inputs with
    | some refusal => .error refusal
    | none => op.inferFamily inputs

end OperatorGraph.Operator
