import OperatorGraph.Inference

set_option autoImplicit false

namespace OperatorGraph

structure HookContext where
  node : String
  tensor? : TensorId → Option TensorDesc

structure HookState where
  inputs : List TensorDesc
  param : Operator

namespace HookState

/-- Both states read the same inputs, but for their formats. -/
def SameTensors (s t : HookState) : Prop :=
  s.inputs.map (·.withFormat .rowMajor) = t.inputs.map (·.withFormat .rowMajor)

def input (s : HookState) (index : Nat) : Except ShapeError TensorDesc :=
  match s.inputs[index]? with
  | some x => .ok x
  | none => .error (.inputCount (index + 1) s.inputs.length)

def wrongFamily {α : Type} (s : HookState) (expected : Family) : Except ShapeError α :=
  .error (.family expected s.param.family)

/-- Reads one input in another format. -/
def withFormat (s : HookState) (index : Nat) (format : Format) : HookState :=
  { s with inputs := s.inputs.modify index (·.withFormat format) }

theorem withFormat_sameTensors (s : HookState) (index : Nat) (format : Format) :
    (s.withFormat index format).SameTensors s := by
  apply List.ext_getElem?
  intro i
  simp only [withFormat, List.getElem?_map, List.getElem?_modify]
  split <;> cases s.inputs[i]? <;> rfl

end HookState

/-- A hook that fails keeps the changes it made before. -/
structure Hook where
  run : HookContext → HookState → HookState × Except ShapeError Unit
  sameTensors : ∀ context s, (run context s).1.SameTensors s

namespace Hook

open Inference

instance : CoeFun Hook fun _ => HookContext → HookState → HookState × Except ShapeError Unit :=
  ⟨Hook.run⟩

/-- Takes another parameter or fails, and leaves the inputs alone. -/
def rewriting (change : HookContext → HookState → Except ShapeError Operator) : Hook where
  run context s := match change context s with
    | .ok param => ({ s with param }, .ok ())
    | .error refusal => (s, .error refusal)
  sameTensors context s := by
    split <;> rfl

/-- Declares the extents of a matrix product from its operands. -/
def matMulExtents : Hook := rewriting fun _ s => do
  let a ← s.input 0
  let b ← s.input 1
  match s.param with
  | .matMul p => match p.extentsFor? a.shape b.shape with
    | some extents => return .matMul { p with extents := some extents }
    | none => objection (.notMatrices a.shape b.shape)
  | _ => s.wrongFamily .matMul

/-- Normalizes over a number of trailing dimensions, whatever the rank of the input. -/
def layerNormAxis (dims : Nat) : Hook := rewriting fun _ s => do
  let x ← s.input 0
  if dims = 0 ∨ x.shape.rank < dims then objection (.normDims dims x.shape.rank)
  else match s.param with
    | .layerNorm p =>
      let axis : Int := (x.shape.rank - dims : Nat)
      return .layerNorm { p with normAxis := axis, paramsAxis := axis }
    | _ => s.wrongFamily .layerNorm

/-- Reads an input in another format. -/
def setFormat (index : Nat) (format : Format) : Hook where
  run _ s := match s.input index with
    | .ok _ => (s.withFormat index format, .ok ())
    | .error refusal => (s, .error refusal)
  sameTensors _ s := by
    split
    · exact s.withFormat_sameTensors index format
    · rfl

/-- Reads an input as tiled, for weights that were laid out ahead of time. -/
def tiledInput (index : Nat) : Hook :=
  setFormat index .tiled

/-- Declines with a reason. -/
def fail (reason : String) : Hook :=
  rewriting fun context _ => objection (.declined context.node reason)

/-- Takes another parameter. -/
def replace (param : Operator) : Hook :=
  rewriting fun _ _ => return param

/-- Reads the input with the sizes and the contiguous strides of a tensor of the graph. -/
def stridedLike (id : TensorId) : Hook := rewriting fun context s =>
  match context.tensor? id with
  | none => objection (.unresolved id)
  | some desc => match s.param with
    | .asStrided p =>
      let stride := desc.shape.contiguousStrides
      return .asStrided { p with size := desc.shape.dims, stride }
    | _ => s.wrongFamily .asStrided

/-- Does nothing. -/
def skip : Hook where
  run _ s := (s, .ok ())
  sameTensors _ _ := rfl

/-- Runs a second hook after a first that succeeded. -/
def andThen (first second : Hook) : Hook where
  run context s := match first context s with
    | (next, .ok ()) => second context next
    | (next, .error refusal) => (next, .error refusal)
  sameTensors context s := by
    have kept := first.sameTensors context s
    split
    · rename_i next success
      rw [success] at kept
      exact (second.sameTensors context next).trans kept
    · rename_i next refusal failed
      rwa [failed] at kept

/-- Runs hooks in order, up to the first that fails. -/
def chain : List Hook → Hook
  | [] => skip
  | hook :: rest => hook.andThen (chain rest)

end Hook

end OperatorGraph
