import OperatorGraph.Graph
import OperatorGraph.Text.Quoted

set_option autoImplicit false

namespace OperatorGraph.Graph

open Text

/-- The vertex of a tensor, labelled with its descriptor once it is known. -/
def tensorVertex (g : Graph) (id : TensorId) : String :=
  let name := ((g.slot? id).map Slot.name).getD "?"
  let label := id.render ++ " " ++ name
  quote <| match g.desc? id with
    | some desc => label ++ ": " ++ desc.render
    | none => label

def nodeVertex (n : Node) : String :=
  quote (n.name ++ " (" ++ n.effective.name ++ ")")

def edge (first last : String) : String :=
  first ++ "->" ++ last

def nodeStatements (g : Graph) (n : Node) : List String :=
  nodeVertex n ::
    (n.inputs.map fun id => edge (g.tensorVertex id) (nodeVertex n)) ++
    (n.outputs.map fun id => edge (nodeVertex n) (g.tensorVertex id))

def draw (g : Graph) : String :=
  let tensors := (g.inputIds ++ g.outputIds ++ g.internalIds).map g.tensorVertex
  let statements := tensors ++ g.nodes.flatMap g.nodeStatements
  "digraph " ++ quote g.name ++ "\x7b" ++ String.join (statements.map (· ++ ";")) ++ "\x7d"

end OperatorGraph.Graph
