import OperatorGraph.Error
import OperatorGraph.Graph

set_option autoImplicit false

namespace OperatorGraph

namespace Node

def checkArity (n : Node) : Except Malformation Unit :=
  if n.inputs.length ≠ n.declared.inputCount then
    .error (.inputCount n.name n.declared.family n.inputs.length n.declared.inputCount)
  else if n.outputs.length ≠ n.declared.outputCount then
    .error (.outputCount n.name n.declared.family n.outputs.length n.declared.outputCount)
  else .ok ()

/-- The positions of inputs that are read through a view. -/
def viewIndices (n : Node) : List Nat :=
  (List.range n.views.length).filter fun index => (n.view? index).isSome

def checkViews (n : Node) : Except Malformation Unit :=
  match n.viewIndices.find? (n.inputs.length ≤ ·) with
  | some index => .error (.viewIndex n.name index n.inputs.length)
  | none => .ok ()

end Node

namespace Graph

/-- The first name that occurred before it. -/
def firstDuplicate? (seen : List String) : List String → Option String
  | [] => none
  | name :: rest => if name ∈ seen then some name else firstDuplicate? (name :: seen) rest

/-- An input exists, and is bound by the caller or produced already. -/
def checkInput (g : Graph) (produced : List TensorId) (node : String) (id : TensorId) :
    Except Malformation Unit :=
  if (g.slot? id).isNone then .error (.readsMissing node id)
  else if id.isInput ∨ id ∈ produced then .ok ()
  else .error (.readsEarly node id)

/-- An output exists, is not the caller's to bind, and was not produced already. -/
def checkOutput (g : Graph) (node : String) (produced : List TensorId) (id : TensorId) :
    Except Malformation (List TensorId) :=
  if (g.slot? id).isNone then .error (.writesMissing node id)
  else if id.isInput then .error (.writesInput node id)
  else if id ∈ produced then .error (.producedTwice id node)
  else .ok (id :: produced)

/-- Checks a node against what was produced before it, and adds what it produces. -/
def checkNode (g : Graph) (produced : List TensorId) (n : Node) :
    Except Malformation (List TensorId) := do
  n.checkArity
  n.checkViews
  n.inputs.forM (g.checkInput produced n.name)
  n.outputs.foldlM (g.checkOutput n.name) produced

def check (g : Graph) : Except Malformation Unit := do
  match firstDuplicate? [] (g.nodes.map Node.name) with
  | some name => .error (.duplicateName name)
  | none =>
    let produced ← g.nodes.foldlM g.checkNode []
    match (g.outputIds ++ g.internalIds).find? (· ∉ produced) with
    | some id => .error (.neverProduced id)
    | none => .ok ()

/-- The order of the nodes is an order of execution, every tensor is produced once before it is
read, and nothing refers to a slot that does not exist. -/
def validate (g : Graph) : Except Error Unit :=
  g.check.mapError (.invalidGraph g.name)

end Graph

end OperatorGraph
