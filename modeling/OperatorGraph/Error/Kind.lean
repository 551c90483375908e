import OperatorGraph.Error

set_option autoImplicit false

namespace OperatorGraph

def ShapeError.kind : ShapeError → String
  | .inputCount .. => "InputCount"
  | .rank .. => "Rank"
  | .dtype .. => "DataType"
  | .format .. => "Format"
  | .dim .. => "Dim"
  | .broadcast .. => "Broadcast"
  | .axis .. => "Axis"
  | .family .. => "Param"
  | .invalid .. => "Invalid"
  | .fault .. => "Fault"

def KernelError.kind : KernelError → String
  | .unsupported .. => "Unsupported"
  | .rejected .. => "Rejected"
  | .device .. => "Device"
  | .fault .. => "Fault"

def PoolError.kind : PoolError → String
  | .unregistered .. => "Unregistered"
  | .busy .. => "Busy"
  | .exhausted .. => "Exhausted"
  | .update .. => "Update"

def ConfigError.kind : ConfigError → String
  | .alignment .. => "Alignment"
  | .poolCapacity => "PoolCapacity"
  | .environment .. => "Env"

def DeviceError.kind : DeviceError → String
  | .noAdapter => "NoAdapter"
  | .unknownAddress .. => "UnknownAddress"
  | .outOfBounds .. => "OutOfBounds"
  | .misaligned .. => "Misaligned"
  | .unalignedLength .. => "UnalignedLength"
  | .canceled => "Canceled"

def Error.kind : Error → String
  | .invalidGraph .. => "InvalidGraph"
  | .setup _ _ source => "Setup." ++ source.kind
  | .view .. => "View"
  | .hook _ _ source => "Hook." ++ source.kind
  | .bindingCount .. => "BindingCount"
  | .binding .. => "Binding"
  | .outputMismatch .. => "OutputMismatch"
  | .unresolved .. => "Unresolved"
  | .workspace .. => "Workspace"
  | .state .. => "State"
  | .dispatch _ _ source => "Dispatch." ++ source.kind
  | .pool cause => "Pool." ++ cause.kind
  | .config cause => "Config." ++ cause.kind
  | .fault .. => "Fault"

end OperatorGraph
