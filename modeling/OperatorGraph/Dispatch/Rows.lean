import OperatorGraph.Dispatch.Basic

set_option autoImplicit false

namespace OperatorGraph

open Dispatch Shader

/-- Element `c` of the thread's row in a tensor. -/
def rowItem (binding : Nat) : Expr :=
  .tensor binding (.var "base" + .var "c")

/-- A loop over the columns of a row. -/
def overColumns (layout : Layout) (first : Expr) (body : List Stmt) : Stmt :=
  .count layout "c" first (.var "cols") body

def storeRowItem (binding : Nat) (value : Expr) : Stmt :=
  .store (.tensor binding) (.var "base" + .var "c") value

namespace LayerNorm

def body : List Stmt :=
  let cols : Expr := .var "cols"
  let mean : Expr := .var "mean"
  [.bind "cols" (.info 1),
    .bind "eps" (.asFloat (.info 2)),
    .bind "base" (.thread * cols),
    .declare "acc" (.real "0.0"),
    overColumns .inline 0 [.addTo "acc" (rowItem 1)],
    .bind "mean" (.var "acc" / .call "f32" [cols]),
    .declare "sq" (.real "0.0"),
    overColumns .block 0
      [.bind "d" (rowItem 1 - mean),
        .addTo "sq" (.var "d" * .var "d")],
    .bind "rstd" (.call "inverseSqrt" [.var "sq" / .call "f32" [cols] + .var "eps"]),
    overColumns .block 0
      [storeRowItem 4
        (.group (rowItem 1 - mean) * .var "rstd" * .tensor 2 (.var "c") + .tensor 3 (.var "c"))]]

/-- Mean and reciprocal deviation of the row. -/
def statsBody : List Stmt :=
  [.store (.tensor 5) .thread (.var "mean"), .store (.tensor 6) .thread (.var "rstd")]

/-- The outputs that a launch writes. -/
def outputs (p : LayerNorm) (launch : Launch) : Except KernelError (List Binding) := do
  let out ← item launch.outputs 0
  if p.withStats then
    return [out, ← item launch.outputs 1, ← item launch.outputs 2]
  else return [out]

def plan (p : LayerNorm) (launch : Launch) : Answer := do
  expectF32 launch
  let x ← item launch.inputs 0
  let gain ← item launch.inputs 1
  let bias ← item launch.inputs 2
  let shape := x.desc.shape
  match shape.axis? p.normAxis, shape.axis? p.paramsAxis with
  | some axis, some paramsAxis =>
    if axis ≠ paramsAxis then missing launch .normParams
    else
      let rows ← exactly (Bounded.product (shape.dims.take axis))
      let cols ← exactly (Bounded.product (shape.dims.drop axis))
      let info ← words [rows, cols]
      let outs ← p.outputs launch
      let kernel ← floatKernel (3 + outs.length)
      let whole := if p.withStats then body ++ statsBody else body
      return [onBindings (kernel.withBody whole) (info ++ [p.epsilon.bits])
        ([x, gain, bias] ++ outs)]
  | _, _ => reject (.normAxes shape)

end LayerNorm

/-- Rows of a shape whose last dimension holds so many columns. -/
def rowCount (shape : Shape) (cols : Int) : Int :=
  shape.elementCount.tdiv (max cols 1)

namespace RmsNorm

def body : List Stmt :=
  let cols : Expr := .var "cols"
  [.bind "cols" (.info 1),
    .bind "base" (.thread * cols),
    .declare "sq" (.real "0.0"),
    overColumns .inline 0 [.addTo "sq" (rowItem 1 * rowItem 1)],
    .bind "scale"
      (.call "inverseSqrt" [.var "sq" / .call "f32" [cols] + .asFloat (.info 2)]),
    overColumns .block 0
      [storeRowItem 3 (rowItem 1 * .var "scale" * .tensor 2 (.var "c"))]]

def plan (epsilon : Scalar) (launch : Launch) : Answer := do
  expectF32 launch
  let x ← item launch.inputs 0
  let gain ← item launch.inputs 1
  let out ← item launch.outputs 0
  let cols := x.desc.shape.dims.getLast?.getD 1
  let info ← words [rowCount x.desc.shape cols, cols]
  let kernel ← floatKernel 3
  return [onBindings (kernel.withBody body) (info ++ [epsilon.bits]) [x, gain, out]]

end RmsNorm

namespace Softmax

def body : List Stmt :=
  [.bind "cols" (.info 1),
    .bind "base" (.thread * .var "cols"),
    .declare "peak" (.tensor 1 (.var "base")),
    overColumns .inline 1 [.assign "peak" (.call "max" [.var "peak", rowItem 1])],
    .declare "total" (.real "0.0"),
    overColumns .block 0
      [.bind "e" (.call "exp" [rowItem 1 - .var "peak"]),
        storeRowItem 2 (.var "e"),
        .addTo "total" (.var "e")],
    overColumns .inline 0 [storeRowItem 2 (rowItem 2 / .var "total")]]

/-- The last axis of a shape, if it has one. -/
def innerAxis? (shape : Shape) : Option Nat :=
  if shape.rank = 0 then none else some (shape.rank - 1)

def plan (axis : Int) (launch : Launch) : Answer := do
  expectF32 launch
  let x ← item launch.inputs 0
  let out ← item launch.outputs 0
  let shape := x.desc.shape
  if shape.axis? axis ≠ innerAxis? shape then missing launch .innerAxis
  else
    let cols := shape.dims.getLast?.getD 1
    let info ← words [rowCount shape cols, cols]
    let kernel ← floatKernel 2
    return [onBindings (kernel.withBody body) info [x, out]]

end Softmax

end OperatorGraph
