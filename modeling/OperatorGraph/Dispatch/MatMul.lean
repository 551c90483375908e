import OperatorGraph.Dispatch.Basic

set_option autoImplicit false

namespace OperatorGraph.MatMul

open Dispatch Shader

/-- Where element `(row, i)` of the first operand is stored. -/
def lhsIndex (transposed : Bool) : Expr :=
  if transposed then .var "i" * .var "m" + .var "row" else .var "row" * .var "k" + .var "i"

/-- Where element `(i, col)` of the second operand is stored. -/
def rhsIndex (transposed : Bool) : Expr :=
  if transposed then .var "col" * .var "k" + .var "i" else .var "i" * .var "n" + .var "col"

def body (p : MatMul) : List Stmt :=
  [.bind "m" (.info 1),
    .bind "n" (.info 2),
    .bind "k" (.info 3),
    .bind "row" (.thread / .var "n"),
    .bind "col" (.thread % .var "n"),
    .declare "acc" (.real "0.0"),
    .count .block "i" 0 (.var "k")
      [.addTo "acc"
        (.tensor 1 (lhsIndex p.transposeA) * .tensor 2 (rhsIndex p.transposeB))],
    if p.hasBias then .addTo "acc" (.tensor 3 (.var "col")) else .blank,
    .store (.tensor (if p.hasBias then 4 else 3)) .thread (.var "acc")]

/-- The declared extents, or else those of the operands. -/
def planExtents? (p : MatMul) (a b : Shape) : Option Extents :=
  p.extents <|> p.extentsFor? a b

def plan (p : MatMul) (launch : Launch) : Answer := do
  expectF32 launch
  let a ← item launch.inputs 0
  let b ← item launch.inputs 1
  match p.planExtents? a.desc.shape b.desc.shape with
  | none => reject .notMatrices
  | some extents =>
    let threads ← exactly (Bounded.mul extents.m extents.n)
    let info ← words [threads, extents.m, extents.n, extents.k]
    let bias ← if p.hasBias then (fun bias => [bias]) <$> item launch.inputs 2 else pure []
    let out ← item launch.outputs 0
    let tensors := [a, b] ++ bias ++ [out]
    let kernel ← floatKernel tensors.length
    return [onBindings (kernel.withBody p.body) info tensors]

end OperatorGraph.MatMul
