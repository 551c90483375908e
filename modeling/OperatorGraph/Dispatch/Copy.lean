import OperatorGraph.Dispatch.Basic

set_option autoImplicit false

namespace OperatorGraph

open Dispatch Shader

/-- The coordinates to visit, and where each lies in the source and in the destination. -/
structure StridedCopy where
  dims : List Int
  sourceOffset : Int
  sourceStrides : List Int
  targetOffset : Int
  targetStrides : List Int
  deriving DecidableEq, Repr

namespace StridedCopy

/-- Reads and writes a shape contiguously. -/
def contiguous (s : Shape) : StridedCopy where
  dims := s.dims
  sourceOffset := 0
  sourceStrides := s.contiguousStrides
  targetOffset := 0
  targetStrides := s.contiguousStrides

/-- Decodes the thread number into a coordinate, last axis first, and follows both strides. -/
def body : List Stmt :=
  let rank : Expr := .var "rank"
  let axis : Expr := .var "axis"
  let coord : Expr := .var "coord"
  let rem : Expr := .var "rem"
  let i : Expr := .var "i"
  [.bind "rank" (.info 1),
    .declare "rem" .thread,
    .declare "src" (.info 2),
    .declare "dst" (.info 3),
    .count .block "i" 0 rank
      [.bind "axis" (rank - 1 - i),
        .bind "coord" (rem % .infoAt (4 + axis)),
        .assign "rem" (rem / .infoAt (4 + axis)),
        .addTo "src" (coord * .infoAt (4 + rank + axis)),
        .addTo "dst" (coord * .infoAt (4 + 2 * rank + axis))],
    .store (.tensor 2) (.var "dst") (.tensor 1 (.var "src"))]

/-- The launch parameters behind the thread count. -/
def parameters (c : StridedCopy) : List Int :=
  [(c.dims.length : Int), c.sourceOffset, c.targetOffset] ++ c.dims ++ c.sourceStrides ++
    c.targetStrides

def dispatch (c : StridedCopy) (source target : Binding) : Except KernelError Dispatch := do
  let threads ← exactly (Bounded.product c.dims)
  let info ← words (threads :: c.parameters)
  let kernel ← Kernel.binding [source.desc.dtype, target.desc.dtype]
  return onBindings (kernel.withBody body) info [source, target]

end StridedCopy

/-- The reading's strides on the source side. -/
def Strided.copy (p : Strided) : StridedCopy :=
  { StridedCopy.contiguous ⟨p.size⟩ with sourceOffset := p.offset, sourceStrides := p.stride }

def Strided.plan (p : Strided) (launch : Launch) : Answer := do
  let x ← item launch.inputs 0
  let out ← item launch.outputs 0
  return [← p.copy.dispatch x out]

namespace Transposition

/-- The source is read along the permuted strides of its own shape. -/
def copy (perm : List Nat) (s : Shape) : Except KernelError StridedCopy := do
  let dims ← perm.mapM (item s.dims)
  let strides ← perm.mapM (item s.contiguousStrides)
  return { StridedCopy.contiguous ⟨dims⟩ with sourceStrides := strides }

def plan (perm : List Nat) (launch : Launch) : Answer := do
  let x ← item launch.inputs 0
  let c ← copy perm x.desc.shape
  let out ← item launch.outputs 0
  return [← c.dispatch x out]

end Transposition

namespace Split

/-- Part `part` of the source, which starts that many chunks into the axis. -/
def copy (s : Shape) (axis : Nat) (chunk : Int) (part : Nat) : Except KernelError StridedCopy := do
  let stride ← item s.contiguousStrides axis
  let start ← exactly (Bounded.mul part chunk)
  let offset ← exactly (Bounded.mul start stride)
  return { StridedCopy.contiguous ⟨s.dims.set axis chunk⟩ with
    sourceOffset := offset
    sourceStrides := s.contiguousStrides }

def plan (axis : Int) (count : Nat) (launch : Launch) : Answer := do
  let x ← item launch.inputs 0
  match x.desc.shape.axis? axis with
  | none => reject (.axisRange .split axis)
  | some position =>
    let whole ← dim x position
    let chunk ← exactly (Bounded.div whole (Bounded.signed (max count 1)))
    launch.outputs.zipIdx.mapM fun (out, part) => do
      let c ← copy x.desc.shape position chunk part
      c.dispatch x out

end Split

namespace Concat

/-- The dimensions of the result: those of the first part, except for the sum along the axis. -/
def joined (axis : Nat) (a b : Shape) : Except KernelError Shape := do
  let dims ← (a.dims.zip b.dims).zipIdx.mapM fun ((x, y), position) =>
    if position = axis then exactly (Bounded.add x y) else pure x
  return ⟨dims⟩

/-- One part, written into the result from an offset on. -/
def copy (part whole : Shape) (offset : Int) : StridedCopy :=
  { StridedCopy.contiguous part with
    targetOffset := offset
    targetStrides := whole.contiguousStrides }

def plan (axis : Int) (launch : Launch) : Answer := do
  let a ← item launch.inputs 0
  let b ← item launch.inputs 1
  let out ← item launch.outputs 0
  match a.desc.shape.axis? axis with
  | none => reject (.axisRange .concat axis)
  | some position =>
    let whole ← joined position a.desc.shape b.desc.shape
    let first ← (copy a.desc.shape whole 0).dispatch a out
    let size ← dim a position
    let stride ← item whole.contiguousStrides position
    let offset ← exactly (Bounded.mul size stride)
    let second ← (copy b.desc.shape whole offset).dispatch b out
    return [first, second]

end Concat

end OperatorGraph
