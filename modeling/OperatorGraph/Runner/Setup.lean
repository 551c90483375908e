import OperatorGraph.Runner
import OperatorGraph.Runner.Binding
import OperatorGraph.Runner.Resolution

set_option autoImplicit false

namespace OperatorGraph

/-- The size of a tensor that has to be resolved. -/
def Slot.byteSize (slot : Slot) : Except Error Nat :=
  match slot.tensor with
  | none => .error (.unresolved slot.name Shape.scalar)
  | some tensor => match tensor.desc.byteSize? with
    | none => .error (.unresolved slot.name tensor.desc.shape)
    | some bytes => .ok bytes

namespace Graph

/-- The sizes of the internal tensors. -/
def internalBytes (g : Graph) : Except Error (List Nat) :=
  g.internals.mapM Slot.byteSize

/-- The greatest scratch that any node asks for. -/
def scratchBytes (g : Graph) : Nat :=
  (g.nodes.map Node.scratchBytes).max?.getD 0

/-- Gives the internal tensors their places in the workspace, from an index on. -/
def assignFrom (g : Graph) (index : Nat) : List Nat → Graph
  | [] => g
  | offset :: rest =>
    let place (slot : Slot) :=
      { slot with tensor := slot.tensor.map fun t => { t with memory := .workspace offset } }
    assignFrom (g.modifySlot (.internal index) place) (index + 1) rest

end Graph

namespace Runner

def plannedLine (r : Runner) (internals : Nat) : LogLine :=
  ⟨.debug, "graph `" ++ r.graph.name ++ s!"`: {internals} internal tensors at " ++
    Text.listing (r.plan.offsets.map toString) ++
    s!", {r.plan.scratchBytes} scratch bytes, {r.plan.totalBytes} bytes total"⟩

/-- Lays out the workspace of a graph whose nodes are resolved. -/
def planWorkspace (r : Runner) : Outcome Runner Error Nat :=
  match r.graph.internalBytes with
  | .error refusal => .failed r refusal
  | .ok bytes =>
    let plan := WorkspacePlan.build (r.graph.lifetimes bytes) r.graph.scratchBytes
      r.config.workspaceAlignment r.config.workspaceStrategy
    let planned : Runner :=
      { r with graph := r.graph.assignFrom 0 plan.offsets, plan, state := .workspacePlanned }
    ⟨planned, [planned.plannedLine bytes.length], .ok plan.totalBytes⟩

/-- Starts over with the tensors of a call. -/
def bind (r : Runner) (pack : Pack) : Outcome Runner Error Unit :=
  let fresh := r.reset
  let (graph, result) := fresh.graph.bind pack
  ⟨{ fresh with graph }, [], result⟩

def resolve (r : Runner) : Outcome Runner Error Unit :=
  (Graph.resolve r.config.checkViews r.graph).within fun graph => { r with graph }

/-- Binds a call's tensors, resolves every node and lays out the workspace. Answers the number of
workspace bytes that the call will need. -/
def setup (r : Runner) (pack : Pack) : Outcome Runner Error Nat :=
  (r.bind pack).andThen fun bound _ =>
    bound.resolve.andThen fun resolved _ =>
      { resolved with state := .shapesResolved }.planWorkspace

end Runner

end OperatorGraph
