import OperatorGraph.Error
import OperatorGraph.Graph

set_option autoImplicit false

namespace OperatorGraph.Graph

def slots (g : Graph) : Side → List Slot
  | .input => g.inputs
  | .output => g.outputs

/-- The caller names as many tensors as the graph has slots. -/
def checkCount (g : Graph) (side : Side) (tensors : List Tensor) : Except Error Unit :=
  if tensors.length = (g.slots side).length then .ok ()
  else .error (.bindingCount g.name side (g.slots side).length tensors.length)

/-- Binds tensors to the slots of one side, from an index on. -/
def bindFrom (side : Side) (g : Graph) (index : Nat) : List Tensor → Graph × Except Error Unit
  | [] => (g, .ok ())
  | tensor :: rest =>
    if tensor.desc.overflows then
      (g, .error (.binding g.name side index (.overflow tensor.desc)))
    else bindFrom side (g.fill (side.tensorId index) tensor) (index + 1) rest

def bindSide (g : Graph) (side : Side) (tensors : List Tensor) : Graph × Except Error Unit :=
  match g.checkCount side tensors with
  | .ok () => bindFrom side g 0 tensors
  | .error refusal => (g, .error refusal)

/-- Binds the inputs and then the outputs. -/
def bind (g : Graph) (pack : Pack) : Graph × Except Error Unit :=
  match g.bindSide .input pack.inputs with
  | (bound, .ok ()) => bound.bindSide .output pack.outputs
  | (bound, .error refusal) => (bound, .error refusal)

end OperatorGraph.Graph
