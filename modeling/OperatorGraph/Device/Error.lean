import OperatorGraph.Tensor

set_option autoImplicit false

namespace OperatorGraph

inductive DeviceError where
  | noAdapter
  | unknownAddress (ptr : Address)
  | outOfBounds (ptr : Address) (len : Nat)
  | misaligned (ptr : Address) (offset alignment : Nat)
  | unalignedLength (ptr : Address) (len alignment : Nat)
  /-- A download that the device never answered. -/
  | canceled
  deriving DecidableEq, Repr

def DeviceError.message : DeviceError → String
  | .noAdapter => "no compatible gpu adapter found"
  | .unknownAddress ptr => "address " ++ ptr.render ++ " is not inside any live allocation"
  | .outOfBounds ptr len =>
    s!"{len} bytes at " ++ ptr.render ++ " run past the end of their allocation"
  | .misaligned ptr offset alignment =>
    ptr.render ++ s!" sits {offset} bytes into its buffer, which is not a multiple of {alignment}"
  | .unalignedLength ptr len alignment =>
    s!"{len} bytes written at " ++ ptr.render ++ s!" is not a multiple of {alignment}"
  | .canceled => "buffer download was dropped before the device answered"

end OperatorGraph
