import OperatorGraph.Graph.TensorId
import OperatorGraph.Operator.Describe

set_option autoImplicit false

namespace OperatorGraph

/-- The ranks that a rule admits. -/
inductive RankRule where
  | exactly (rank : Nat)
  | atLeast (rank : Nat)
  deriving DecidableEq, Repr

def RankRule.render : RankRule → String
  | .exactly rank => toString rank
  | .atLeast rank => ">= " ++ toString rank

/-- Objections that belong to one operator, one hook or one step of setup. -/
inductive Objection where
  | notFloat (index : Nat) (dtype : ElementType)
  | gateRank
  | gateOdd (hidden : Int)
  | negativeLeading (product : Int) (x : Shape)
  | paramsShape (index : Nat) (expected actual : Shape)
  | rmsNormRank
  | extentsDisagree (declared : Extents) (a b : Shape)
  | biasShape (columns : Int) (actual : Shape)
  | rotaryGroups (headDim rotaryCoeff : Int)
  | headDimMultiple (index : Nat) (hidden headDim : Int)
  | headGroups (headNum kvHeadNum : Int)
  | batchLengths (offsets lengths : Nat)
  | negativeBatch
  | queryHidden (hidden headNum : Int)
  | stridedLengths (sizes strides : Nat)
  | stridedNegative
  | stridedReach (last : Option Int) (available : Int)
  | notPermutation (perm : List Nat) (rank : Nat)
  | unevenSplit (axis : Nat) (dim : Int) (count : Nat)
  | notMatrices (a b : Shape)
  | normDims (dims rank : Nat)
  | declined (node reason : String)
  | unresolved (id : TensorId)
  | producedCount (produced declared : Nat)
  | outputOverflow (index : Nat) (desc : TensorDesc)
  deriving DecidableEq, Repr

def Objection.message : Objection → String
  | .notFloat index dtype =>
    s!"input {index}: expected a floating point dtype, got " ++ dtype.render
  | .gateRank => "swiglu needs an input of rank >= 1"
  | .gateOdd hidden => s!"swiglu needs an even last dimension, got {hidden}"
  | .negativeLeading product x =>
    s!"leading dimension product {product} of input " ++ x.render ++ " is negative"
  | .paramsShape index expected actual =>
    s!"input {index}: expected shape " ++ expected.render ++ ", got " ++ actual.render
  | .rmsNormRank => "rms norm input must have rank >= 1"
  | .extentsDisagree declared a b =>
    "declared extents " ++ declared.describe ++ " disagree with operands " ++ a.render ++ " x " ++
      b.render
  | .biasShape columns actual =>
    s!"input 2: expected bias shape [{columns}], got " ++ actual.render
  | .rotaryGroups headDim rotaryCoeff =>
    s!"head dim {headDim} is not divisible by rotary coefficient {rotaryCoeff}"
  | .headDimMultiple index hidden headDim =>
    s!"input {index}: hidden size {hidden} is not a multiple of head dim {headDim}"
  | .headGroups headNum kvHeadNum =>
    s!"{headNum} query heads cannot be grouped over {kvHeadNum} key/value heads"
  | .batchLengths offsets lengths =>
    s!"{offsets} token offsets for {lengths} sequence lengths"
  | .negativeBatch => "token offsets and sequence lengths must be non-negative"
  | .queryHidden hidden headNum =>
    s!"query hidden size {hidden} is not a multiple of {headNum} heads"
  | .stridedLengths sizes strides => s!"as_strided has {sizes} sizes but {strides} strides"
  | .stridedNegative => "as_strided sizes, strides and offset must be non-negative"
  | .stridedReach last available =>
    "as_strided reaches element " ++ (last.map toString).getD "past i64::MAX" ++
      s!" of an input with {available} elements"
  | .notPermutation perm rank =>
    Text.listing (perm.map toString) ++ s!" is not a permutation of {rank} axes"
  | .unevenSplit axis dim count =>
    s!"dimension {axis} of size {dim} cannot be split into {count} parts"
  | .notMatrices a b => "matmul operands " ++ a.render ++ " x " ++ b.render ++ " are not 2d"
  | .normDims dims rank =>
    s!"cannot normalize over {dims} trailing dims of a rank {rank} input"
  | .declined node reason => node ++ ": " ++ reason
  | .unresolved id => id.render ++ " is not resolved"
  | .producedCount produced declared =>
    s!"operator produced {produced} outputs but the node declares {declared}"
  | .outputOverflow index desc =>
    s!"output {index} " ++ desc.render ++ " does not fit a 64 bit byte size"

inductive ShapeError where
  | inputCount (expected actual : Nat)
  | rank (index : Nat) (expected : RankRule) (actual : Shape)
  | dtype (index : Nat) (expected actual : ElementType)
  | format (index : Nat) (actual : Format)
  | dim (index axis : Nat) (expected actual : Int)
  | broadcast (lhs rhs : Shape)
  | axis (axis : Int) (rank : Nat)
  | family (expected found : Family)
  | invalid (objection : Objection)
  | fault (fault : Fault)
  deriving DecidableEq, Repr

def ShapeError.message : ShapeError → String
  | .inputCount expected actual => s!"expected {expected} inputs, got {actual}"
  | .rank index expected actual =>
    s!"input {index}: expected rank " ++ expected.render ++ ", got shape " ++ actual.render
  | .dtype index expected actual =>
    s!"input {index}: expected dtype " ++ expected.render ++ ", got " ++ actual.render
  | .format index actual =>
    s!"input {index}: format " ++ actual.render ++ " is not accepted by this operator"
  | .dim index position expected actual =>
    s!"input {index}: dimension {position} is {actual}, expected {expected}"
  | .broadcast lhs rhs =>
    "shapes " ++ lhs.render ++ " and " ++ rhs.render ++ " cannot be broadcast together"
  | .axis position count => s!"axis {position} is out of range for rank {count}"
  | .family expected found =>
    "expected operator parameter `" ++ expected.name ++ "`, found `" ++ found.name ++ "`"
  | .invalid objection => objection.message
  | .fault cause => cause.message

end OperatorGraph
