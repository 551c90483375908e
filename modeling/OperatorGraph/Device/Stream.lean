import OperatorGraph.Outcome
import OperatorGraph.Tensor

set_option autoImplicit false

namespace OperatorGraph

/-- A tensor range as it is bound on the device. A range without bytes binds the rest of its
buffer. -/
structure BufferBinding where
  address : Address
  size : Option Nat
  /-- The bytes that it covers. -/
  extent : Nat
  deriving DecidableEq, Repr

/-- Bytes per element of every tensor that can be bound. -/
def BufferBinding.elementSize : Nat := 4

/-- A dispatch with everything that it needs on the device. -/
structure Recorded where
  groups : Nat × Nat
  info : List UInt32
  bindings : List BufferBinding
  deriving DecidableEq, Repr

/-- The dispatches since the last flush. -/
abbrev Stream := List Recorded

namespace Stream

/-- What a flush adds to the log. A stream without dispatches has nothing to submit. -/
def submitted (s : Stream) : Log :=
  if s.isEmpty then [] else [⟨.trace, s!"submitting {s.length} dispatches"⟩]

end Stream

end OperatorGraph
