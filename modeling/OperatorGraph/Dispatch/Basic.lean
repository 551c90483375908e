import OperatorGraph.Launch
import OperatorGraph.Shader.Kernel

set_option autoImplicit false

namespace OperatorGraph

/-- A kernel, its launch parameters and the device ranges it is bound to. Shapes and scalars travel
in the launch parameters, so that a kernel depends on the operator and the element types alone. -/
structure Dispatch where
  kernel : Shader.Kernel
  info : List UInt32
  tensors : List Span
  deriving Repr

namespace Dispatch

/-- The dispatches of a launch, or why there are none. -/
abbrev Answer := Except KernelError (List Dispatch)

def reject {α : Type} (reason : Rejection) : Except KernelError α :=
  .error (.rejected reason)

def missing {α : Type} (launch : Launch) (reason : MissingKernel) : Except KernelError α :=
  .error (.unsupported launch.param.family reason)

/-- Arithmetic in a plan: a fault of it is the plan's. -/
def exactly {α : Type} (value : Except Fault α) : Except KernelError α :=
  value.mapError .fault

/-- An element of a list that a plan takes to be there. -/
def item {α : Type} (items : List α) (index : Nat) : Except KernelError α :=
  match items[index]? with
  | some found => .ok found
  | none => .error (.fault .indexOutOfRange)

def dim (b : Binding) (axis : Nat) : Except KernelError Int :=
  item b.desc.shape.dims axis

/-- A launch parameter: the integer has to fit 32 bits without a sign. -/
def word (value : Int) : Except KernelError UInt32 :=
  if 0 ≤ value ∧ value < 0x1_0000_0000 then .ok value.toNat.toUInt32 else reject (.wideWord value)

def words (values : List Int) : Except KernelError (List UInt32) :=
  values.mapM word

/-- Every tensor of the launch holds single precision floats. -/
def expectF32 (launch : Launch) : Except KernelError Unit :=
  match (launch.inputs ++ launch.outputs).find? (·.desc.dtype ≠ .f32) with
  | some tensor => missing launch (.dtype tensor.desc.dtype)
  | none => .ok ()

def onBindings (kernel : Shader.Kernel) (info : List UInt32) (tensors : List Binding) : Dispatch :=
  ⟨kernel, info, tensors.map Binding.span⟩

/-- A kernel over single precision tensors only. -/
def floatKernel (tensors : Nat) : Except KernelError Shader.Kernel :=
  Shader.Kernel.binding (List.replicate tensors .f32)

end Dispatch

end OperatorGraph
