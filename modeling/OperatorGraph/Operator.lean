import OperatorGraph.Scalar
import OperatorGraph.Tensor

set_option autoImplicit false

namespace OperatorGraph

inductive Family where
  | elementwise | layerNorm | rmsNorm | matMul | activation | softmax | asStrided | transpose
  | relayout | split | concat | gather | rope | selfAttention
  deriving DecidableEq, Repr

namespace Family

def all : List Family :=
  [elementwise, layerNorm, rmsNorm, matMul, activation, softmax, asStrided, transpose, relayout,
    split, concat, gather, rope, selfAttention]

/-- The name under which kernels of a family are looked up. -/
def name : Family → String
  | elementwise => "elewise"
  | layerNorm => "layer_norm"
  | rmsNorm => "rms_norm"
  | matMul => "matmul"
  | activation => "activation"
  | softmax => "softmax"
  | asStrided => "as_strided"
  | transpose => "transpose"
  | relayout => "trans_data"
  | split => "split"
  | concat => "concat"
  | gather => "gather"
  | rope => "rope"
  | selfAttention => "self_attention"

end Family

inductive Elementwise where
  | add | sub | mul | realDiv
  /-- Multiplication by a scalar. -/
  | scale (factor : Scalar)
  | cast (target : ElementType)
  deriving DecidableEq, Repr

namespace Elementwise

def isBinary : Elementwise → Bool
  | add | sub | mul | realDiv => true
  | scale _ | cast _ => false

/-- The kinds that take two tensors. -/
def binary : List Elementwise :=
  [add, sub, mul, realDiv]

def name : Elementwise → String
  | add => "add"
  | sub => "sub"
  | mul => "mul"
  | realDiv => "real_div"
  | scale _ => "muls"
  | cast _ => "cast"

end Elementwise

/-- Normalization over the dimensions from `normAxis` on. The inputs are the tensor, its gain and
its bias; with statistics the mean and the reciprocal deviation of each row are written too. -/
structure LayerNorm where
  epsilon : Scalar
  normAxis : Int
  paramsAxis : Int
  withStats : Bool
  deriving DecidableEq, Repr

/-- Row count, column count and inner size of a matrix product. -/
structure Extents where
  m : Int
  n : Int
  k : Int
  deriving DecidableEq, Repr

/-- A product of two matrices, each possibly transposed, with an optional bias row. -/
structure MatMul where
  transposeA : Bool
  transposeB : Bool
  hasBias : Bool
  extents : Option Extents
  deriving DecidableEq, Repr

namespace MatMul

/-- The product with a transposed weight. -/
def linear (hasBias : Bool) : MatMul :=
  ⟨false, true, hasBias, none⟩

/-- The extents that two matrices give rise to. -/
def extentsFor? (p : MatMul) (a b : Shape) : Option Extents :=
  match a.dims, b.dims with
  | [a₀, a₁], [b₀, b₁] =>
    let (m, k) := if p.transposeA then (a₁, a₀) else (a₀, a₁)
    some ⟨m, if p.transposeB then b₀ else b₁, k⟩
  | _, _ => none

end MatMul

inductive Activation where
  | relu | gelu | fastGelu | silu | sigmoid
  /-- Gates the second half of the last dimension with the first. -/
  | swiglu
  deriving DecidableEq, Repr

namespace Activation

def all : List Activation :=
  [relu, gelu, fastGelu, silu, sigmoid, swiglu]

def name : Activation → String
  | relu => "relu"
  | gelu => "gelu"
  | fastGelu => "fast_gelu"
  | silu => "silu"
  | sigmoid => "sigmoid"
  | swiglu => "swiglu"

end Activation

/-- A strided reading of the input: sizes, strides and an offset, all in elements. -/
structure Strided where
  size : List Int
  stride : List Int
  offset : Int
  deriving DecidableEq, Repr

/-- Causal attention over a packed batch with a cache. Entry `b` of the batch owns
`seqLen[b]` query rows and `tokenOffset[b] + seqLen[b]` key and value rows. -/
structure SelfAttention where
  headNum : Int
  kvHeadNum : Int
  qkScale : Scalar
  tokenOffset : List Int
  seqLen : List Int
  deriving DecidableEq, Repr

namespace SelfAttention

def batch (p : SelfAttention) : Nat :=
  p.seqLen.length

/-- All query rows, as an exact sum. The sums of batches that are `Packed` fit 64-bit integers; those
of longer batches may not. -/
def tokens (p : SelfAttention) : Int :=
  p.seqLen.foldr (· + ·) 0

/-- Key and value rows of each batch entry. -/
def kvLens (p : SelfAttention) : List Int :=
  List.zipWith (· + ·) p.tokenOffset p.seqLen

/-- All key and value rows, as an exact sum, too. -/
def kvTokens (p : SelfAttention) : Int :=
  p.kvLens.foldr (· + ·) 0

/-- The longest key range of the batch. -/
def maxKvLen (p : SelfAttention) : Int :=
  p.kvLens.max?.getD 0

end SelfAttention

/-- Fourteen families, each with the parameters that fix its shape rule and its kernel. -/
inductive Operator where
  | elementwise (kind : Elementwise)
  | layerNorm (p : LayerNorm)
  | rmsNorm (epsilon : Scalar)
  | matMul (p : MatMul)
  | activation (kind : Activation)
  | softmax (axis : Int)
  | asStrided (p : Strided)
  | transpose (perm : List Nat)
  /-- Storage in another format. -/
  | relayout (target : Format)
  | split (axis : Int) (count : Nat)
  | concat (axis : Int)
  | gather (axis : Int)
  /-- Rotary embedding with a number of interleaved rotation groups per head. -/
  | rope (rotaryCoeff : Int)
  | selfAttention (p : SelfAttention)
  deriving DecidableEq, Repr

namespace Operator

def family : Operator → Family
  | elementwise _ => .elementwise
  | layerNorm _ => .layerNorm
  | rmsNorm _ => .rmsNorm
  | matMul _ => .matMul
  | activation _ => .activation
  | softmax _ => .softmax
  | asStrided _ => .asStrided
  | transpose _ => .transpose
  | relayout _ => .relayout
  | split _ _ => .split
  | concat _ => .concat
  | gather _ => .gather
  | rope _ => .rope
  | selfAttention _ => .selfAttention

def name (op : Operator) : String :=
  op.family.name

def inputCount : Operator → Nat
  | elementwise kind => if kind.isBinary then 2 else 1
  | layerNorm _ => 3
  | rmsNorm _ => 2
  | matMul p => if p.hasBias then 3 else 2
  | concat _ | gather _ => 2
  | rope _ => 4
  | selfAttention _ => 3
  | activation _ | softmax _ | asStrided _ | transpose _ | relayout _ | split _ _ => 1

def outputCount : Operator → Nat
  | layerNorm p => if p.withStats then 3 else 1
  | split _ count => count
  | rope _ => 2
  | _ => 1

/-- The formats in which an input may be stored. Only the second operand of a matrix product and
the input of a relayout may be tiled. -/
def acceptedFormats : Operator → Nat → List Format
  | matMul _, 1 => Format.all
  | relayout _, _ => Format.all
  | _, _ => [.rowMajor]

/-- Another epsilon for a layer normalization. -/
def withEpsilon (epsilon : Scalar) : Operator → Operator
  | layerNorm p => layerNorm { p with epsilon }
  | op => op

/-- Another batch layout for an attention. -/
def withBatch (tokenOffset seqLen : List Int) : Operator → Operator
  | selfAttention p => selfAttention { p with tokenOffset, seqLen }
  | op => op

/-- The bytes that the kernel needs besides its tensors: for attention one score row per query
head and token, as wide as the longest key range. -/
def scratchBytes : Operator → List TensorDesc → Nat
  | selfAttention p, inputs =>
    let tokens := (inputs.head?.bind fun q => q.shape.dims.head?).getD 0
    let scores := Bounded.satMul (Bounded.satMul p.headNum tokens) p.maxKvLen
    Bounded.satMulWord scores.toNat ElementType.f32.size
  | _, _ => 0

end Operator

end OperatorGraph
