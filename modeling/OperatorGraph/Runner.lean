import OperatorGraph.Config
import OperatorGraph.Graph.Drawing
import OperatorGraph.Graph.Patch
import OperatorGraph.Graph.Validate
import OperatorGraph.Log
import OperatorGraph.Runner.State

set_option autoImplicit false

namespace OperatorGraph

/-- A graph on its way from unbound slots to launches. -/
structure Runner where
  graph : Graph
  config : Config
  state : RunnerState
  plan : WorkspacePlan

namespace Runner

/-- A runner of a graph that is well formed. -/
def new (graph : Graph) (config : Config) : Except Error Runner := do
  config.validate.mapError .config
  graph.validate
  return ⟨graph, config, .unbound, .empty⟩

/-- What a new runner adds to the log. -/
def drawn (r : Runner) : Log :=
  if r.config.dumpGraphs then
    [⟨.debug, "graph `" ++ r.graph.name ++ "`:\n" ++ r.graph.draw⟩]
  else []

/-- Forgets everything that the last setup has bound, resolved or planned. -/
def reset (r : Runner) : Runner :=
  { r with graph := r.graph.clear, plan := .empty, state := .unbound }

/-- Reaches the declared parameters. The next call has to set up again. -/
def update {α : Type} (r : Runner) (change : Patch → Patch × α) : Runner × α :=
  let fresh := r.reset
  let (patch, answer) := change (Patch.start fresh.graph)
  ({ fresh with graph := patch.graph }, answer)

def notPlanned (r : Runner) : Error :=
  .state r.graph.name r.state

def plan? (r : Runner) : Option WorkspacePlan :=
  if r.state.isPlanned then some r.plan else none

def workspaceSize (r : Runner) : Except Error Nat :=
  match r.plan? with
  | some plan => .ok plan.totalBytes
  | none => .error r.notPlanned

end Runner

end OperatorGraph
