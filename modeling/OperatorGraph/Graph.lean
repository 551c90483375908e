import OperatorGraph.Graph.Hook
import OperatorGraph.Shape.View

set_option autoImplicit false

namespace OperatorGraph

/-- A place for a tensor, empty until setup binds or resolves it. -/
structure Slot where
  name : String
  tensor : Option Tensor
  deriving DecidableEq, Repr

namespace Slot

def empty (name : String) : Slot :=
  ⟨name, none⟩

end Slot

/-- One application of an operator. The declared parameter is what the graph was built with; the
effective one is what the last setup made of it. -/
structure Node where
  name : String
  declared : Operator
  inputs : List TensorId
  outputs : List TensorId
  views : List (Option View)
  hook : Option Hook
  effective : Operator
  resolvedInputs : List TensorDesc

namespace Node

def new (name : String) (declared : Operator) (inputs outputs : List TensorId) : Node where
  name := name
  declared := declared
  inputs := inputs
  outputs := outputs
  views := []
  hook := none
  effective := declared
  resolvedInputs := []

/-- Reads one input through a view. -/
def withView (n : Node) (index : Nat) (view : View) : Node :=
  let padding := List.replicate (index + 1 - n.views.length) none
  { n with views := (n.views ++ padding).set index (some view) }

/-- Reads several inputs through views, unless an index lies beyond every list. -/
def withViews (n : Node) : List (Nat × View) → Except Fault Node
  | [] => .ok n
  | (index, view) :: rest => do
    Bounded.reserve (index + 1)
    (n.withView index view).withViews rest

def withHook (n : Node) (hook : Hook) : Node :=
  { n with hook := some hook }

def view? (n : Node) (index : Nat) : Option View :=
  n.views[index]?.join

/-- The scratch that the effective parameter asks for on the resolved inputs. -/
def scratchBytes (n : Node) : Nat :=
  n.effective.scratchBytes n.resolvedInputs

end Node

@[ext] structure Graph where
  name : String
  inputs : List Slot
  outputs : List Slot
  internals : List Slot
  nodes : List Node

namespace Graph

/-- A graph whose tables hold nothing yet. -/
def new (name : String) (inputs outputs internals : List String) (nodes : List Node) : Graph where
  name := name
  inputs := inputs.map Slot.empty
  outputs := outputs.map Slot.empty
  internals := internals.map Slot.empty
  nodes := nodes

def slot? (g : Graph) : TensorId → Option Slot
  | .input index => g.inputs[index]?
  | .output index => g.outputs[index]?
  | .internal index => g.internals[index]?

def tensor? (g : Graph) (id : TensorId) : Option Tensor :=
  (g.slot? id).bind Slot.tensor

def desc? (g : Graph) (id : TensorId) : Option TensorDesc :=
  (g.tensor? id).map Tensor.desc

/-- Changes one slot, if it exists. -/
def modifySlot (g : Graph) (id : TensorId) (change : Slot → Slot) : Graph :=
  match id with
  | .input index => { g with inputs := g.inputs.modify index change }
  | .output index => { g with outputs := g.outputs.modify index change }
  | .internal index => { g with internals := g.internals.modify index change }

def fill (g : Graph) (id : TensorId) (tensor : Tensor) : Graph :=
  g.modifySlot id fun slot => { slot with tensor := some tensor }

/-- Empties every slot. -/
def clear (g : Graph) : Graph :=
  let emptied (slots : List Slot) := slots.map fun slot => Slot.empty slot.name
  { g with
    inputs := emptied g.inputs
    outputs := emptied g.outputs
    internals := emptied g.internals }

/-- The first node of a name, with its position. -/
def findNode? (g : Graph) (name : String) : Option (Nat × Node) :=
  let position := g.nodes.findIdx (·.name = name)
  g.nodes[position]?.map fun node => (position, node)

def inputIds (g : Graph) : List TensorId :=
  (List.range g.inputs.length).map .input

def outputIds (g : Graph) : List TensorId :=
  (List.range g.outputs.length).map .output

def internalIds (g : Graph) : List TensorId :=
  (List.range g.internals.length).map .internal

end Graph

end OperatorGraph
