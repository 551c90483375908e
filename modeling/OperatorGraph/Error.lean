import OperatorGraph.Config.Error
import OperatorGraph.Dispatch.Error
import OperatorGraph.Graph.Malformation
import OperatorGraph.Pool.Error
import OperatorGraph.Runner.State

set_option autoImplicit false

namespace OperatorGraph

/-- Which of the two tables that a caller binds. -/
inductive Side where
  | input
  | output
  deriving DecidableEq, Repr

namespace Side

def render : Side → String
  | input => "input"
  | output => "output"

def tensorId : Side → Nat → TensorId
  | input, index => .input index
  | output, index => .output index

end Side

/-- Why a bound tensor is refused. -/
inductive BindingFault where
  | overflow (desc : TensorDesc)
  | differs (bound resolved : TensorDesc)
  | notExternal (memory : Memory)
  deriving DecidableEq, Repr

def BindingFault.message : BindingFault → String
  | .overflow desc => desc.render ++ " does not fit a 64 bit byte size"
  | .differs bound resolved =>
    "descriptor " ++ bound.render ++ " differs from " ++ resolved.render ++ " used in setup"
  | .notExternal memory => "expected caller-owned device memory, got " ++ memory.describe

inductive Error where
  | invalidGraph (graph : String) (reason : Malformation)
  | setup (node : String) (family : Family) (source : ShapeError)
  | view (node : String) (family : Family) (input : Nat) (before after : Shape)
  | hook (node : String) (family : Family) (source : ShapeError)
  | bindingCount (graph : String) (side : Side) (expected actual : Nat)
  | binding (graph : String) (side : Side) (index : Nat) (reason : BindingFault)
  | outputMismatch (node : String) (family : Family) (index : Nat) (inferred bound : TensorDesc)
  | unresolved (name : String) (shape : Shape)
  | workspace (required provided : Nat)
  | state (graph : String) (state : RunnerState)
  | dispatch (node : String) (family : Family) (source : KernelError)
  | pool (cause : PoolError)
  | config (cause : ConfigError)
  | fault (fault : Fault)
  deriving DecidableEq, Repr

namespace Error

/-- A node as it is named in messages. -/
def nodeLabel (node : String) (family : Family) : String :=
  "node `" ++ node ++ "` (" ++ family.name ++ ")"

def message : Error → String
  | .invalidGraph graph reason => "graph `" ++ graph ++ "` is malformed: " ++ reason.message
  | .setup node family source => nodeLabel node family ++ ": " ++ source.message
  | .view node family index before after =>
    nodeLabel node family ++ s!": view on input {index} changed the element count from " ++
      before.render ++ " to " ++ after.render
  | .hook node family source =>
    nodeLabel node family ++ ": infer hook failed: " ++ source.message
  | .bindingCount graph side expected actual =>
    "graph `" ++ graph ++ s!"` expects {expected} " ++ side.render ++ s!" tensors, got {actual}"
  | .binding graph side index reason =>
    side.render ++ s!" tensor {index} of graph `" ++ graph ++ "`: " ++ reason.message
  | .outputMismatch node family index inferred bound =>
    nodeLabel node family ++ s!": output {index} inferred as " ++ inferred.render ++
      " but the bound tensor is " ++ bound.render
  | .unresolved name shape =>
    "internal tensor `" ++ name ++ "` has unresolved shape " ++ shape.render
  | .workspace required provided =>
    s!"workspace of {provided} bytes is smaller than the required {required} bytes"
  | .state graph actual =>
    "runner for `" ++ graph ++ "` is " ++ actual.describe ++ ", expected workspace planned"
  | .dispatch node family source =>
    nodeLabel node family ++ " failed to launch: " ++ source.message
  | .pool cause => cause.message
  | .config cause => cause.message
  | .fault cause => cause.message

/-- The fault behind an error that is no answer of the program. -/
def fault? : Error → Option Fault
  | .setup _ _ (.fault cause) | .hook _ _ (.fault cause) => some cause
  | .dispatch _ _ (.fault cause) => some cause
  | .fault cause => some cause
  | _ => none

end Error

end OperatorGraph
