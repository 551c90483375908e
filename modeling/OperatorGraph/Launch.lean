import OperatorGraph.Dispatch.Error
import OperatorGraph.Outcome

set_option autoImplicit false

namespace OperatorGraph

/-- A tensor as a kernel sees it. -/
structure Binding where
  desc : TensorDesc
  ptr : Address
  bytes : Nat
  deriving DecidableEq, Repr

def Binding.span (b : Binding) : Span :=
  ⟨b.ptr, b.bytes⟩

/-- One node with its effective parameter and the device ranges of its tensors. -/
structure Launch where
  node : String
  param : Operator
  inputs : List Binding
  outputs : List Binding
  /-- The node's part of the scratch region, if it asked for any. -/
  scratch : Option Span
  deriving DecidableEq, Repr

/-- Whatever runs launches. The state holds what a stream has recorded and what the registry keeps
between launches. -/
structure Registry (State : Type) where
  launch : Launch → State → Outcome State KernelError Unit

end OperatorGraph
