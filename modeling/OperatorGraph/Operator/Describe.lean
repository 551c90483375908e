import OperatorGraph.Operator
import OperatorGraph.Text.Record

set_option autoImplicit false

namespace OperatorGraph

open Text

namespace Elementwise

def describe : Elementwise → String
  | add => "Add"
  | sub => "Sub"
  | mul => "Mul"
  | realDiv => "RealDiv"
  | scale factor => tagged "Muls" factor.describe
  | cast target => tagged "Cast" target.describe

end Elementwise

namespace Activation

def describe : Activation → String
  | relu => "Relu"
  | gelu => "Gelu"
  | fastGelu => "FastGelu"
  | silu => "Silu"
  | sigmoid => "Sigmoid"
  | swiglu => "Swiglu"

end Activation

namespace Extents

def describe (e : Extents) : String :=
  record "MatMulExtents" [("m", toString e.m), ("n", toString e.n), ("k", toString e.k)]

end Extents

namespace Operator

def describeInts (xs : List Int) : String :=
  listing (xs.map toString)

def describe : Operator → String
  | elementwise kind => tagged "Elewise" (record "ElewiseParam" [("kind", kind.describe)])
  | layerNorm p => tagged "LayerNorm" (record "LayerNormParam"
      [("epsilon", p.epsilon.describe), ("begin_norm_axis", toString p.normAxis),
        ("begin_params_axis", toString p.paramsAxis), ("with_stats", flag p.withStats)])
  | rmsNorm epsilon => tagged "RmsNorm" (record "RmsNormParam" [("epsilon", epsilon.describe)])
  | matMul p => tagged "MatMul" (record "MatMulParam"
      [("transpose_a", flag p.transposeA), ("transpose_b", flag p.transposeB),
        ("has_bias", flag p.hasBias), ("extents", optional (p.extents.map Extents.describe))])
  | activation kind => tagged "Activation" (record "ActivationParam" [("kind", kind.describe)])
  | softmax axis => tagged "Softmax" (record "SoftmaxParam" [("axis", toString axis)])
  | asStrided p => tagged "AsStrided" (record "AsStridedParam"
      [("size", describeInts p.size), ("stride", describeInts p.stride),
        ("offset", toString p.offset)])
  | transpose perm => tagged "Transpose" (record "TransposeParam"
      [("perm", listing (perm.map toString))])
  | relayout target => tagged "TransData" (record "TransDataParam" [("target", target.describe)])
  | split axis count => tagged "Split" (record "SplitParam"
      [("axis", toString axis), ("count", toString count)])
  | concat axis => tagged "Concat" (record "ConcatParam" [("axis", toString axis)])
  | gather axis => tagged "Gather" (record "GatherParam" [("axis", toString axis)])
  | rope rotaryCoeff => tagged "Rope" (record "RopeParam" [("rotary_coeff", toString rotaryCoeff)])
  | selfAttention p => tagged "SelfAttention" (record "SelfAttentionParam"
      [("head_num", toString p.headNum), ("kv_head_num", toString p.kvHeadNum),
        ("qk_scale", p.qkScale.describe), ("token_offset", describeInts p.tokenOffset),
        ("seq_len", describeInts p.seqLen)])

end Operator

end OperatorGraph
