import OperatorGraph.Operator

set_option autoImplicit false

namespace OperatorGraph

inductive FieldValue where
  | scalar (x : Scalar)
  | int (n : Int)
  | ints (ns : List Int)
  | flag (b : Bool)
  | name (text : String)
  | absent
  deriving DecidableEq, Repr

abbrev Fields := List (String × FieldValue)

def Elementwise.fields (kind : Elementwise) : Fields :=
  ("kind", .name kind.name) :: match kind with
    | .scale factor => [("scale", .scalar factor)]
    | .cast target => [("dtype", .name target.describe)]
    | .add | .sub | .mul | .realDiv => []

def LayerNorm.fields (p : LayerNorm) : Fields :=
  [("epsilon", .scalar p.epsilon), ("begin_norm_axis", .int p.normAxis),
    ("begin_params_axis", .int p.paramsAxis), ("with_stats", .flag p.withStats)]

def MatMul.fields (p : MatMul) : Fields :=
  [("transpose_a", .flag p.transposeA), ("transpose_b", .flag p.transposeB),
    ("has_bias", .flag p.hasBias),
    ("extents", p.extents.elim .absent fun e => .ints [e.m, e.n, e.k])]

def Strided.fields (p : Strided) : Fields :=
  [("size", .ints p.size), ("stride", .ints p.stride), ("offset", .int p.offset)]

def SelfAttention.fields (p : SelfAttention) : Fields :=
  [("head_num", .int p.headNum), ("kv_head_num", .int p.kvHeadNum),
    ("qk_scale", .scalar p.qkScale), ("token_offset", .ints p.tokenOffset),
    ("seq_len", .ints p.seqLen)]

def Operator.fields : Operator → Fields
  | .elementwise kind => kind.fields
  | .layerNorm p => p.fields
  | .rmsNorm epsilon => [("epsilon", .scalar epsilon)]
  | .matMul p => p.fields
  | .activation kind => [("kind", .name kind.name)]
  | .softmax axis | .concat axis | .gather axis => [("axis", .int axis)]
  | .asStrided p => p.fields
  | .transpose perm => [("perm", .ints (perm.map Int.ofNat))]
  | .relayout target => [("target", .name target.describe)]
  | .split axis count => [("axis", .int axis), ("count", .int count)]
  | .rope rotaryCoeff => [("rotary_coeff", .int rotaryCoeff)]
  | .selfAttention p => p.fields

end OperatorGraph
