import OperatorGraph.Error
import OperatorGraph.Graph
import OperatorGraph.Outcome

set_option autoImplicit false

namespace OperatorGraph

namespace Graph

/-- The descriptor of a tensor that some node reads or writes. -/
def readDesc (g : Graph) (id : TensorId) : Except Error TensorDesc :=
  match g.desc? id with
  | some desc => .ok desc
  | none => .error (.invalidGraph g.name (.notBound id))

/-- The descriptor that the caller has bound to an output. -/
def boundOutput? (g : Graph) : TensorId → Option TensorDesc
  | .output index => g.desc? (.output index)
  | .input _ | .internal _ => none

end Graph

/-- A node's effective parameter and inputs, and the outputs that follow from them. -/
structure Resolution where
  param : Operator
  inputs : List TensorDesc
  outputs : List TensorDesc

namespace Node

/-- An input as the node reads it, through its view if it has one. -/
def readInput (n : Node) (g : Graph) (checkViews : Bool) (index : Nat) (id : TensorId) :
    Except Error TensorDesc := do
  let desc ← g.readDesc id
  match n.view? index with
  | none => return desc
  | some view =>
    if checkViews ∧ ¬ view.KeepsCount desc.shape then
      .error (.view n.name n.declared.family index desc.shape (view.apply desc.shape))
    else return desc.withShape (view.apply desc.shape)

def readInputs (n : Node) (g : Graph) (checkViews : Bool) : Except Error (List TensorDesc) :=
  n.inputs.zipIdx.mapM fun (id, index) => n.readInput g checkViews index id

/-- Runs the hook, if there is one, on the declared parameter. -/
def runHook (n : Node) (g : Graph) (inputs : List TensorDesc) : Except Error HookState :=
  match n.hook with
  | none => .ok ⟨inputs, n.declared⟩
  | some hook => match hook ⟨n.name, g.desc?⟩ ⟨inputs, n.declared⟩ with
    | (s, .ok ()) => .ok s
    | (s, .error refusal) => .error (.hook n.name s.param.family refusal)

/-- The outputs that the operator infers: as many as the node declares, all of a size that has a
representation. -/
def inferOutputs (n : Node) (s : HookState) : Except ShapeError (List TensorDesc) := do
  let outputs ← s.param.infer s.inputs
  if outputs.length ≠ n.outputs.length then
    .error (.invalid (.producedCount outputs.length n.outputs.length))
  else match outputs.zipIdx.find? fun (desc, _) => desc.overflows with
    | some (desc, index) => .error (.invalid (.outputOverflow index desc))
    | none => .ok outputs

def resolve (n : Node) (g : Graph) (checkViews : Bool) : Except Error Resolution := do
  let inputs ← n.readInputs g checkViews
  let s ← n.runHook g inputs
  let outputs ← (n.inferOutputs s).mapError (.setup n.name s.param.family)
  return ⟨s.param, s.inputs, outputs⟩

end Node

namespace Graph

/-- Puts a node's inferred outputs into their slots, from an index on. A tensor that the caller has
bound stays, and has to be compatible. -/
def placeFrom (node : String) (family : Family) (g : Graph) (index : Nat) :
    List (TensorId × TensorDesc) → Graph × Except Error Unit
  | [] => (g, .ok ())
  | (id, desc) :: rest => match g.boundOutput? id with
    | none => placeFrom node family (g.fill id ⟨desc, .unbound⟩) (index + 1) rest
    | some bound =>
      if bound.Compatible desc then placeFrom node family g (index + 1) rest
      else (g, .error (.outputMismatch node family index desc bound))

/-- Records the effective parameter and the inputs of a node. -/
def settle (g : Graph) (position : Nat) (r : Resolution) : Graph :=
  { g with nodes := g.nodes.modify position fun n =>
      { n with effective := r.param, resolvedInputs := r.inputs } }

/-- A resolved node in the log, with its shapes. -/
def resolvedLine (g : Graph) (n : Node) (r : Resolution) : LogLine :=
  let shapes (descs : List TensorDesc) := Text.listing (descs.map fun desc => desc.shape.render)
  ⟨.trace, "node `" ++ n.name ++ "` (" ++ r.param.name ++ "): " ++ shapes r.inputs ++ " -> " ++
    shapes (n.outputs.filterMap g.desc?)⟩

/-- Resolves the node at a position. -/
def resolveAt (checkViews : Bool) (g : Graph) (position : Nat) : Outcome Graph Error Unit :=
  match g.nodes[position]? with
  | none => .done g ()
  | some n => match n.resolve g checkViews with
    | .error refusal => .failed g refusal
    | .ok r => match placeFrom n.name r.param.family g 0 (n.outputs.zip r.outputs) with
      | (placed, .error refusal) => .failed placed refusal
      | (placed, .ok ()) => ⟨placed.settle position r, [placed.resolvedLine n r], .ok ()⟩

/-- Resolves all nodes in order. -/
def resolve (checkViews : Bool) (g : Graph) : Outcome Graph Error Unit :=
  Outcome.forEach (resolveAt checkViews) g (List.range g.nodes.length)

end Graph

end OperatorGraph
