import OperatorGraph.Device.Error
import OperatorGraph.Inference.Error

set_option autoImplicit false

namespace OperatorGraph

/-- Launches that are sound but have no kernel. -/
inductive MissingKernel where
  | tiled (tensor : Nat)
  | dtype (dtype : ElementType)
  | normParams
  | innerAxis
  | indexType
  | oddRotation (rotaryCoeff : Int)
  | relayout
  deriving DecidableEq, Repr

def MissingKernel.message : MissingKernel → String
  | .tiled index => s!"tensor {index} is tiled, only row major layouts are implemented"
  | .dtype found => found.render ++ " tensors are not implemented"
  | .normParams => "gamma and beta must cover exactly the normalized dimensions"
  | .innerAxis => "only the last axis is implemented"
  | .indexType => "only i32 indices are implemented"
  | .oddRotation rotaryCoeff => s!"rotary coefficient {rotaryCoeff} is odd"
  | .relayout => "tiled layouts are not implemented on this device"

/-- Launches that a registry or a kernel rejects. -/
inductive Rejection where
  | wideWord (value : Int)
  | unbindable (dtype : ElementType)
  | shapes (cause : ShapeError)
  | normAxes (x : Shape)
  | notMatrices
  | axisRange (family : Family) (axis : Int)
  | missingScratch
  | disabled (family : Family)
  deriving DecidableEq, Repr

def Rejection.message : Rejection → String
  | .wideWord value => s!"{value} does not fit a 32 bit launch parameter"
  | .unbindable dtype => dtype.render ++ " tensors cannot be bound on this device"
  | .shapes cause => cause.message
  | .normAxes x => "normalization axes are out of range for " ++ x.render
  | .notMatrices => "matmul operands are not 2d"
  | .axisRange family axis => family.name ++ s!" axis {axis} out of range"
  | .missingScratch => "self attention needs scratch for its scores"
  | .disabled family => family.name ++ " is disabled in this registry"

inductive KernelError where
  | unsupported (family : Family) (reason : MissingKernel)
  | rejected (reason : Rejection)
  | device (cause : DeviceError)
  | fault (fault : Fault)
  deriving DecidableEq, Repr

def KernelError.message : KernelError → String
  | .unsupported family reason =>
    "no kernel for operator `" ++ family.name ++ "`: " ++ reason.message
  | .rejected reason => "kernel rejected the launch: " ++ reason.message
  | .device cause => "device error: " ++ cause.message
  | .fault cause => cause.message

end OperatorGraph
