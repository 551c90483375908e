import OperatorGraph.Dispatch.Basic
import OperatorGraph.Shape.Broadcast

set_option autoImplicit false

namespace OperatorGraph

open Dispatch Shader

namespace Elementwise

/-- Multiplies by the scalar behind the thread count. -/
def scaleBody : List Stmt :=
  [.store (.tensor 2) .thread (.tensor 1 .thread * .asFloat (.info 1))]

def castBody (type : String) : List Stmt :=
  [.store (.tensor 2) .thread (.call type [.tensor 1 .thread])]

/-- Decodes the thread number into a coordinate of the output, last axis first, and follows the
strides of both operands along it. -/
def broadcastBody (op : BinaryOp) : List Stmt :=
  let rank : Expr := .var "rank"
  let axis : Expr := .var "axis"
  let coord : Expr := .var "coord"
  let rem : Expr := .var "rem"
  let i : Expr := .var "i"
  [.bind "rank" (.info 1),
    .declare "rem" .thread,
    .declare "lhs_index" 0,
    .declare "rhs_index" 0,
    .count .block "i" 0 rank
      [.bind "axis" (rank - 1 - i),
        .bind "coord" (rem % .infoAt (2 + axis)),
        .assign "rem" (rem / .infoAt (2 + axis)),
        .addTo "lhs_index" (coord * .infoAt (2 + rank + axis)),
        .addTo "rhs_index" (coord * .infoAt (2 + 2 * rank + axis))],
    .store (.tensor 3) .thread
      (.binary op (.tensor 1 (.var "lhs_index")) (.tensor 2 (.var "rhs_index")))]

def planScale (launch : Launch) (x out : Binding) (factor : Scalar) : Answer := do
  expectF32 launch
  let kernel ← Kernel.binding [x.desc.dtype, out.desc.dtype]
  let info ← words [x.desc.shape.elementCount]
  return [onBindings (kernel.withBody scaleBody) (info ++ [factor.bits]) [x, out]]

def planCast (x out : Binding) : Answer := do
  let kernel ← Kernel.binding [x.desc.dtype, out.desc.dtype]
  let type ← bindableType out.desc.dtype
  let info ← words [x.desc.shape.elementCount]
  return [onBindings (kernel.withBody (castBody type)) info [x, out]]

/-- The launch parameters of a broadcast: the thread count, the rank and the dimensions of the
output, and the strides of both operands along it. -/
def broadcastInfo (lhs rhs target : Shape) : List Int :=
  [target.elementCount, target.rank] ++ target.dims ++ lhs.broadcastStrides target ++
    rhs.broadcastStrides target

def planBroadcast (op : BinaryOp) (x y out : Binding) : Answer := do
  let (lhs, rhs) := (x.desc.shape, y.desc.shape)
  match lhs.broadcast? rhs with
  | none => reject (.shapes (.broadcast lhs rhs))
  | some target =>
    let info ← words (broadcastInfo lhs rhs target)
    let kernel ← Kernel.binding [x.desc.dtype, y.desc.dtype, out.desc.dtype]
    return [onBindings (kernel.withBody (broadcastBody op)) info [x, y, out]]

def plan (kind : Elementwise) (launch : Launch) : Answer := do
  let x ← item launch.inputs 0
  let out ← item launch.outputs 0
  let broadcast (op : BinaryOp) : Answer := do
    planBroadcast op x (← item launch.inputs 1) out
  match kind with
  | add => broadcast .add
  | sub => broadcast .sub
  | mul => broadcast .mul
  | realDiv => broadcast .div
  | scale factor => planScale launch x out factor
  | cast _ => planCast x out

end Elementwise

namespace Activation

/-- The function of one element. The gate uses the same function as the sigmoid linear unit. -/
def formula : Activation → Expr
  | relu => .call "max" [.var "x", .real "0.0"]
  | gelu =>
    let x : Expr := .var "x"
    let inner := x + .real "0.044715" * x * x * x
    .real "0.5" * x *
      .group (.real "1.0" + .call "tanh" [.real "0.7978845608" * .group inner])
  | fastGelu => .var "x" / .group (.real "1.0" + .call "exp" [.real "-1.702" * .var "x"])
  | silu | swiglu => .var "x" / .group (.real "1.0" + .call "exp" [-.var "x"])
  | sigmoid => .real "1.0" / .group (.real "1.0" + .call "exp" [-.var "x"])

def functionBody (kind : Activation) : Code :=
  .program [.bind "output" kind.formula]

def mapBody (f : Function) : List Stmt :=
  [.store (.tensor 2) .thread (f.call [.tensor 1 .thread])]

/-- Each output row gates the second half of an input row with the first. -/
def gateBody (f : Function) : List Stmt :=
  let half : Expr := .var "half"
  let base : Expr := .var "base"
  [.bind "half" (.info 1),
    .bind "base" (.group (.thread / half) * 2 * half + .thread % half),
    .store (.tensor 2) .thread (f.call [.tensor 1 base] * .tensor 1 (base + half))]

def plan (kind : Activation) (launch : Launch) : Answer := do
  expectF32 launch
  let x ← item launch.inputs 0
  let out ← item launch.outputs 0
  let kernel ← Kernel.binding [x.desc.dtype, out.desc.dtype]
  let (f, kernel) := kernel.define "f32" kind.functionBody [("x", "f32")]
  if kind = swiglu then
    let half := out.desc.shape.dims.getLast?.getD 1
    let info ← words [out.desc.shape.elementCount, half]
    return [onBindings (kernel.withBody (gateBody f)) info [x, out]]
  else
    let info ← words [x.desc.shape.elementCount]
    return [onBindings (kernel.withBody (mapBody f)) info [x, out]]

end Activation

end OperatorGraph
