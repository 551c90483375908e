import OperatorGraph.Dispatch.Basic

set_option autoImplicit false

namespace OperatorGraph.Gather

open Dispatch Shader

/-- One element of the output. An index outside the axis gathers zero. -/
def body (type : String) : List Stmt :=
  let n : Expr := .var "n"
  let inner : Expr := .var "inner"
  let picks : Expr := .var "picks"
  let rest : Expr := .var "rest"
  let row : Expr := .call "u32" [.var "row"]
  [.bind "n" (.info 1),
    .bind "inner" (.info 2),
    .bind "picks" (.info 3),
    .bind "col" (.thread % inner),
    .bind "rest" (.thread / inner),
    .bind "row" (.tensor 2 (rest % picks)),
    .when (.binary .or (.binary .less (.var "row") (.int 0)) (.binary .atLeast row n))
      [.store (.tensor 3) .thread (.call type [.int 0]),
        .stop],
    .store (.tensor 3) .thread
      (.tensor 1 (.group (.group (rest / picks) * n + row) * inner + .var "col"))]

def plan (axis : Int) (launch : Launch) : Answer := do
  let table ← item launch.inputs 0
  let indices ← item launch.inputs 1
  let out ← item launch.outputs 0
  if indices.desc.dtype ≠ .i32 then missing launch .indexType
  else match table.desc.shape.axis? axis with
    | none => reject (.axisRange .gather axis)
    | some position =>
      let dims := table.desc.shape.dims
      let outer ← exactly (Bounded.product (dims.take position))
      let inner ← exactly (Bounded.product (dims.drop (position + 1)))
      let picks := indices.desc.shape.elementCount
      let threads ← exactly (Bounded.mul outer picks >>= (Bounded.mul · inner))
      let info ← words [threads, ← dim table position, inner, picks]
      let kernel ← Kernel.binding [table.desc.dtype, .i32, out.desc.dtype]
      let type ← bindableType out.desc.dtype
      return [onBindings (kernel.withBody (body type)) info [table, indices, out]]

end OperatorGraph.Gather
