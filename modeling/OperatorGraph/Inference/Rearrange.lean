import OperatorGraph.Inference.Basic

set_option autoImplicit false

namespace OperatorGraph

open Inference

namespace Strided

/-- The greatest element index that the reading reaches, unless a step leaves the 64-bit range. -/
def lastElement? (p : Strided) : Option Int :=
  (p.size.zip p.stride).foldlM
    (fun reached (size, stride) => do
      let step ← Bounded.mul? (size - 1) stride
      Bounded.add? step reached)
    p.offset

/-- A reading that has elements stays inside a resolved input. -/
def checkReach (p : Strided) (x : Shape) : Except ShapeError Unit :=
  if x.Resolved ∧ ∀ size ∈ p.size, 0 < size then
    match p.lastElement? with
    | some last =>
      if last < x.elementCount then .ok ()
      else objection (.stridedReach (some last) x.elementCount)
    | none => objection (.stridedReach none x.elementCount)
  else .ok ()

def infer (p : Strided) : List TensorDesc → Answer
  | [x] => do
    if p.size.length ≠ p.stride.length then
      objection (.stridedLengths p.size.length p.stride.length)
    else if p.offset < 0 ∨ (p.size ++ p.stride).any (· < 0) then objection .stridedNegative
    else
      checkReach p x.shape
      return [x.withShape ⟨p.size⟩]
  | _ => missingInput

end Strided

namespace Transposition

/-- Every axis exists and none is named twice. -/
def isInjective (perm : List Nat) (rank : Nat) : Bool :=
  perm.all (· < rank) && decide perm.Nodup

def infer (perm : List Nat) : List TensorDesc → Answer
  | [x] =>
    if !isInjective perm x.shape.rank then objection (.notPermutation perm x.shape.rank)
    else if perm.length ≠ x.shape.rank then
      .error (.rank 0 (.exactly perm.length) x.shape)
    else do
      return [x.withShape ⟨← perm.mapM (dimAt x)⟩]
  | _ => missingInput

end Transposition

/-- Tiles need two dimensions. -/
def inferRelayout (target : Format) : List TensorDesc → Answer
  | [x] =>
    if target = .tiled ∧ x.shape.rank < 2 then .error (.rank 0 (.atLeast 2) x.shape)
    else .ok [{ x with format := target }]
  | _ => missingInput

/-- The parts of a split are equal. -/
def inferSplit (axis : Int) (count : Nat) : List TensorDesc → Answer
  | [x] => do
    let position ← axisOf x.shape axis
    let dim ← dimAt x position
    if count = 0 then objection (.unevenSplit position dim count)
    else if (← exactly (Bounded.rem dim (Bounded.signed count))) ≠ 0 then
      objection (.unevenSplit position dim count)
    else
      let part ← exactly (Bounded.div dim (Bounded.signed count))
      exactly (Bounded.reserve count)
      return List.replicate count (x.withShape ⟨x.shape.dims.set position part⟩)
  | _ => missingInput

namespace Concat

/-- Dimensions add up along the axis and agree elsewhere. -/
def joinDims (axis : Nat) (lhs rhs : List Int) : Except ShapeError (List Int) :=
  (lhs.zip rhs).zipIdx.mapM fun ((a, b), position) =>
    if position = axis then exactly (Bounded.add a b)
    else if a = b then .ok a
    else .error (.dim 1 position a b)

def infer (axis : Int) : List TensorDesc → Answer
  | [x, y] => do
    expectDtype 1 y x.dtype
    let position ← axisOf x.shape axis
    if x.shape.rank ≠ y.shape.rank then
      .error (.rank 1 (.exactly x.shape.rank) y.shape)
    else return [x.withShape ⟨← joinDims position x.shape.dims y.shape.dims⟩]
  | _ => missingInput

end Concat

/-- The index tensor's dimensions take the place of the gathered axis. -/
def inferGather (axis : Int) : List TensorDesc → Answer
  | [table, indices] => do
    if indices.dtype ≠ .i32 ∧ indices.dtype ≠ .i64 then .error (.dtype 1 .i32 indices.dtype)
    else
      let position ← axisOf table.shape axis
      let dims := table.shape.dims
      return [table.withShape
        ⟨dims.take position ++ indices.shape.dims ++ dims.drop (position + 1)⟩]
  | _ => missingInput

end OperatorGraph
