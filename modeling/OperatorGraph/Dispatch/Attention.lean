import OperatorGraph.Dispatch.Basic

set_option autoImplicit false

namespace OperatorGraph

open Dispatch Shader

namespace Rope

def body : List Stmt :=
  let heads : Expr := .var "heads"
  let headDim : Expr := .var "head_dim"
  let chunk : Expr := .var "chunk"
  let half : Expr := .var "half"
  let rem : Expr := .var "rem"
  let j : Expr := .var "j"
  let first : Expr := .var "a_pos"
  let second : Expr := .var "b_pos"
  let base : Expr := .var "base"
  let trig : Expr := .var "trig"
  [.bind "heads" (.info 1),
    .bind "head_dim" (.info 2),
    .bind "chunk" (.info 3),
    .bind "half" (headDim / 2),
    .bind "token" (.thread / .group (heads * half)),
    .bind "rem" (.thread % .group (heads * half)),
    .bind "j" (rem % half),
    .bind "a_pos" (.group (j / chunk) * 2 * chunk + j % chunk),
    .bind "b_pos" (first + chunk),
    .bind "base" (.var "token" * heads * headDim + .group (rem / half) * headDim),
    .bind "trig" (.var "token" * headDim),
    .bind "a" (.tensor 1 (base + first)),
    .bind "b" (.tensor 1 (base + second)),
    .store (.tensor 4) (base + first)
      (.var "a" * .tensor 2 (trig + first) - .var "b" * .tensor 3 (trig + first)),
    .store (.tensor 4) (base + second)
      (.var "b" * .tensor 2 (trig + second) + .var "a" * .tensor 3 (trig + second))]

/-- The rotation of one tensor. -/
def dispatch (headDim chunk : Int) (x cos sin out : Binding) : Except KernelError Dispatch := do
  let tokens ← dim x 0
  let hidden ← dim x 1
  let heads ← exactly (Bounded.div hidden headDim)
  let threads ← exactly (Bounded.mul tokens heads >>= (Bounded.mul · (headDim.tdiv 2)))
  let info ← words [threads, heads, headDim, chunk]
  let kernel ← floatKernel 4
  return onBindings (kernel.withBody body) info [x, cos, sin, out]

def plan (rotaryCoeff : Int) (launch : Launch) : Answer := do
  expectF32 launch
  let q ← item launch.inputs 0
  let k ← item launch.inputs 1
  let cos ← item launch.inputs 2
  let sin ← item launch.inputs 3
  let headDim ← dim cos 1
  if rotaryCoeff.tmod 2 ≠ 0 then missing launch (.oddRotation rotaryCoeff)
  else
    let chunk ← exactly (Bounded.div headDim rotaryCoeff)
    let qOut ← item launch.outputs 0
    let kOut ← item launch.outputs 1
    return [← dispatch headDim chunk q cos sin qOut, ← dispatch headDim chunk k cos sin kOut]

end Rope

namespace SelfAttention

/-- Finds the batch entry that owns the query row: where its query and key rows start, and how
many of its key rows the query row sees. -/
def scanBody : List Stmt :=
  let batch : Expr := .var "batch"
  let b : Expr := .var "b"
  let token : Expr := .var "token"
  let cached : Expr := .var "cached"
  let fresh : Expr := .var "fresh"
  [.declare "q_start" 0,
    .declare "kv_start" 0,
    .declare "visible" 0,
    .count .block "b" 0 batch
      [.bind "cached" (.infoAt (7 + b)),
        .bind "fresh" (.infoAt (7 + batch + b)),
        .when (.binary .less token (.var "q_start" + fresh))
          [.assign "visible" (cached + .group (token - .var "q_start") + 1),
            .leave],
        .addTo "q_start" fresh,
        .addTo "kv_start" (cached + fresh)]]

/-- The scores of all visible key rows, and the greatest of them. -/
def scoreBody : List Stmt :=
  let headDim : Expr := .var "head_dim"
  let j : Expr := .var "j"
  let e : Expr := .var "e"
  [.bind "q_row" (.var "token" * .var "heads" * headDim + .var "head" * headDim),
    .bind "kv_width" (.var "kv_heads" * headDim),
    .bind "row" (.thread * .var "max_kv"),
    .declare "peak" (.real "-3.4e38"),
    .count .block "j" 0 (.var "visible")
      [.bind "k_row" (.group (.var "kv_start" + j) * .var "kv_width" + .var "kv_head" * headDim),
        .declare "score" (.real "0.0"),
        .count .inline "e" 0 headDim
          [.addTo "score" (.tensor 1 (.var "q_row" + e) * .tensor 2 (.var "k_row" + e))],
        .mulBy "score" (.var "scale"),
        .store (.tensor 5) (.var "row" + j) (.var "score"),
        .assign "peak" (.call "max" [.var "peak", .var "score"])]]

/-- The weighted mean of the visible value rows. -/
def mixBody : List Stmt :=
  let headDim : Expr := .var "head_dim"
  let j : Expr := .var "j"
  let e : Expr := .var "e"
  let slot : Expr := .var "row" + j
  let valueIndex : Expr :=
    .group (.var "kv_start" + j) * .var "kv_width" + .var "kv_head" * headDim + e
  [.declare "total" (.real "0.0"),
    .count .block "j" 0 (.var "visible")
      [.bind "p" (.call "exp" [.tensor 5 slot - .var "peak"]),
        .store (.tensor 5) slot (.var "p"),
        .addTo "total" (.var "p")],
    .count .block "e" 0 headDim
      [.declare "acc" (.real "0.0"),
        .count .block "j" 0 (.var "visible")
          [.addTo "acc" (.tensor 5 slot * .tensor 3 valueIndex)],
        .store (.tensor 4) (.var "q_row" + e) (.var "acc" / .var "total")]]

def body : List Stmt :=
  let heads : Expr := .var "heads"
  [.bind "heads" (.info 1),
    .bind "kv_heads" (.info 2),
    .bind "head_dim" (.info 3),
    .bind "batch" (.info 4),
    .bind "max_kv" (.info 5),
    .bind "scale" (.asFloat (.info 6)),
    .bind "token" (.thread / heads),
    .bind "head" (.thread % heads),
    .bind "kv_head" (.var "head" / .group (heads / .var "kv_heads"))] ++
    scanBody ++ scoreBody ++ mixBody

def plan (p : SelfAttention) (launch : Launch) : Answer := do
  expectF32 launch
  let q ← item launch.inputs 0
  let k ← item launch.inputs 1
  let v ← item launch.inputs 2
  let out ← item launch.outputs 0
  match launch.scratch with
  | none => reject .missingScratch
  | some scratch =>
    let headDim ← exactly (Bounded.div (← dim q 1) p.headNum)
    let threads ← exactly (Bounded.mul p.tokens p.headNum)
    let sizes ← words [threads, p.headNum, p.kvHeadNum, headDim, p.batch, p.maxKvLen]
    let lengths ← words (p.tokenOffset ++ p.seqLen)
    let kernel ← floatKernel 5
    return [{
      kernel := kernel.withBody body
      info := sizes ++ [p.qkScale.bits] ++ lengths
      tensors := [q, k, v, out].map Binding.span ++ [scratch] }]

end SelfAttention

end OperatorGraph
