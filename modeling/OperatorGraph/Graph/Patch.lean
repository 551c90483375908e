import OperatorGraph.Graph
import OperatorGraph.Pool.Error

set_option autoImplicit false

namespace OperatorGraph

/-- A graph under update, with the positions of the nodes that were reached so far. -/
structure Patch where
  graph : Graph
  touched : List Nat

namespace Graph

/-- Changes the declared parameter of the node at a position. -/
def modifyDeclared (g : Graph) (position : Nat) (change : Operator → Operator) : Graph :=
  { g with nodes := g.nodes.modify position fun n => { n with declared := change n.declared } }

end Graph

namespace Patch

def start (graph : Graph) : Patch :=
  ⟨graph, []⟩

def touch (p : Patch) (position : Nat) : Patch :=
  if position ∈ p.touched then p else { p with touched := p.touched ++ [position] }

/-- Changes the declared parameter of a named node, which has to be of the given family. A node of
another family counts as reached. -/
def edit (p : Patch) (operation node : String) (family : Family)
    (change : Operator → Operator) : Patch × Except PoolError Unit :=
  match p.graph.findNode? node with
  | none => (p, .error (.update operation node .noSuchNode))
  | some (position, found) =>
    let reached := p.touch position
    if found.declared.family = family then
      ({ reached with graph := reached.graph.modifyDeclared position change }, .ok ())
    else
      (reached, .error (.update operation node (.family family found.declared.family)))

/-- Replaces the declared parameters of named nodes, one after the other. -/
def replaceAll (p : Patch) (operation : String) :
    List (String × Operator) → Patch × List (Except PoolError Unit)
  | [] => (p, [])
  | (node, param) :: rest =>
    let (next, result) := p.edit operation node param.family fun _ => param
    let (last, results) := next.replaceAll operation rest
    (last, result :: results)

end Patch

end OperatorGraph
