import OperatorGraph.Graph
import OperatorGraph.Text.Quoted

set_option autoImplicit false

namespace OperatorGraph.Node

open Text

def describe (n : Node) : String :=
  record "KernelGraphNode"
    [("name", quote n.name),
      ("param", n.effective.describe),
      ("inputs", listing (n.inputs.map TensorId.describe)),
      ("outputs", listing (n.outputs.map TensorId.describe)),
      ("views", listing (n.views.map fun view => optional (view.map View.describe))),
      ("hook", flag n.hook.isSome)]

end OperatorGraph.Node
