import OperatorGraph.Proofs.Runner.Clobbering

set_option autoImplicit false

namespace OperatorGraph

/-- A change of nodes that leaves their names and the ids that they read and write. -/
structure Node.KeepsPlace (change : Node → Node) : Prop where
  name : ∀ n, (change n).name = n.name
  inputs : ∀ n, (change n).inputs = n.inputs
  outputs : ∀ n, (change n).outputs = n.outputs

namespace Graph

variable (g : Graph) (change : Node → Node)

theorem lastPosition_mapNodes (holds : Node → Bool) :
    (g.mapNodes change).lastPosition holds = g.lastPosition fun n => holds (change n) := by
  simp only [lastPosition, mapNodes, List.zipIdx_map, List.foldl_map]
  rfl

theorem assignFrom_mapNodes (offsets : List Nat) (index : Nat) :
    (g.mapNodes change).assignFrom index offsets =
      (g.assignFrom index offsets).mapNodes change := by
  induction offsets generalizing g index with
  | nil => rfl
  | cons offset rest ih =>
    rw [assignFrom, assignFrom, ← ih]
    rfl

theorem desc?_mapNodes : (g.mapNodes change).desc? = g.desc? := by
  funext id
  cases id <;> rfl

theorem scratchBytes_mapNodes
    (scratch : ∀ n ∈ g.nodes, (change n).scratchBytes = n.scratchBytes) :
    (g.mapNodes change).scratchBytes = g.scratchBytes := by
  have each : g.nodes.map (Node.scratchBytes ∘ change) = g.nodes.map Node.scratchBytes :=
    List.map_congr_left scratch
  simp only [Graph.scratchBytes, mapNodes, List.map_map, each]

/-- A node is settled alike before and after a change that its new parameter goes along with. -/
theorem settle_mapNodes {position : Nat} {n : Node} (found : g.nodes[position]? = some n)
    {r : Resolution} {op : Operator}
    (settles : change { n with effective := r.param, resolvedInputs := r.inputs } =
      { change n with effective := op, resolvedInputs := r.inputs }) :
    (g.mapNodes change).settle position { r with param := op } =
      (g.settle position r).mapNodes change := by
  simp only [settle, mapNodes, Graph.mk.injEq, true_and]
  apply List.ext_getElem?
  intro i
  simp only [List.getElem?_map, List.getElem?_modify]
  by_cases here : position = i
  · subst here
    simp only [found, if_true, Option.map_some]
    exact congrArg some settles.symm
  · simp only [here, if_false]
    cases g.nodes[i]? <;> rfl

section

variable {change} (keeps : Node.KeepsPlace change)
include keeps

theorem lifetimes_mapNodes (bytes : List Nat) :
    (g.mapNodes change).lifetimes bytes = g.lifetimes bytes := by
  simp only [lifetimes, lastPosition_mapNodes, keeps.inputs, keeps.outputs]

/-- A node that is resolved alike, but for a parameter of the same family, is placed and settled
alike. -/
theorem resolveAt_mapNodes {position : Nat} {n : Node} (found : g.nodes[position]? = some n)
    {checkViews : Bool} {r : Resolution} (resolved : n.resolve g checkViews = .ok r) {op : Operator}
    (changed : (change n).resolve (g.mapNodes change) checkViews = .ok { r with param := op })
    (family : op.family = r.param.family)
    (settles : change { n with effective := r.param, resolvedInputs := r.inputs } =
      { change n with effective := op, resolvedInputs := r.inputs }) :
    resolveAt checkViews (g.mapNodes change) position =
      (resolveAt checkViews g position).within (·.mapNodes change) := by
  have atChanged : (g.mapNodes change).nodes[position]? = some (change n) := by
    rw [getElem?_mapNodes, found, Option.map_some]
  have placings := placeFrom_mapNodes g change n.name r.param.family (n.outputs.zip r.outputs) 0
  simp only [resolveAt, found, resolved, atChanged, changed, keeps.name, keeps.outputs, family,
    placings]
  cases placing : placeFrom n.name r.param.family g 0 (n.outputs.zip r.outputs) with
  | mk placed result =>
    cases result with
    | error refusal => rfl
    | ok _ =>
      have kept : placed.nodes = g.nodes := by
        have nodes := nodes_placeFrom n.name r.param.family (n.outputs.zip r.outputs) g 0
        rwa [placing] at nodes
      have settled := placed.settle_mapNodes change (kept ▸ found) settles
      simp only [Outcome.within, settled, resolvedLine, Operator.name, family, desc?_mapNodes,
        keeps.name, keeps.outputs]

end

end Graph

namespace Runner

variable (r : Runner) (change : Node → Node)

/-- The runner with every node of its graph changed. -/
def mapNodes : Runner :=
  { r with graph := r.graph.mapNodes change }

theorem bind_mapNodes (pack : Pack) :
    (r.mapNodes change).bind pack = (r.bind pack).within (·.mapNodes change) := by
  have binding := r.graph.clear.bind_mapNodes change pack
  have cleared : (r.mapNodes change).graph.clear = r.graph.clear.mapNodes change := rfl
  simp only [Runner.bind, reset, cleared, binding]
  rfl

theorem callMemory_mapNodes (call : Pack) :
    (r.mapNodes change).callMemory call = r.callMemory call := by
  have addresses (side : Side) (tensors : List Tensor) :
      (r.mapNodes change).graph.callAddresses side tensors =
        r.graph.callAddresses side tensors := by
    cases side <;> rfl
  simp only [callMemory, addresses]
  rfl

section

variable {change} (keeps : Node.KeepsPlace change)
include keeps

theorem planWorkspace_mapNodes
    (scratch : ∀ n ∈ r.graph.nodes, (change n).scratchBytes = n.scratchBytes) :
    (r.mapNodes change).planWorkspace = r.planWorkspace.within (·.mapNodes change) := by
  have sizes : (r.mapNodes change).graph.internalBytes = r.graph.internalBytes := rfl
  simp only [planWorkspace, sizes]
  cases r.graph.internalBytes with
  | error refusal => rfl
  | ok bytes =>
    have lifetimes : (r.mapNodes change).graph.lifetimes bytes = r.graph.lifetimes bytes :=
      r.graph.lifetimes_mapNodes keeps bytes
    have scratch : (r.mapNodes change).graph.scratchBytes = r.graph.scratchBytes :=
      r.graph.scratchBytes_mapNodes change scratch
    have assigned (offsets : List Nat) : (r.mapNodes change).graph.assignFrom 0 offsets =
        (r.graph.assignFrom 0 offsets).mapNodes change :=
      r.graph.assignFrom_mapNodes change offsets 0
    simp only [lifetimes, scratch, assigned]
    rfl

/-- The launch of a changed node has its new parameter. -/
theorem launchOf_mapNodes (m : CallMemory) {n : Node}
    (read : (change n).resolvedInputs = n.resolvedInputs)
    (scratch : (change n).scratchBytes = n.scratchBytes) :
    (r.mapNodes change).launchOf m (change n) =
      (r.launchOf m n).map fun launch => { launch with param := (change n).effective } := by
  have part : (r.mapNodes change).scratchOf m (change n) = r.scratchOf m n := by
    simp only [scratchOf, scratch]
    rfl
  have input (id : TensorId) (desc : TensorDesc) :
      (r.mapNodes change).binding m id desc = r.binding m id desc := by
    cases id <;> rfl
  have output (id : TensorId) : (r.mapNodes change).graph.readDesc id = r.graph.readDesc id := by
    cases id <;> rfl
  simp only [launchOf, part, input, output, read, keeps.name, keeps.inputs, keeps.outputs]
  generalize (n.inputs.zip n.resolvedInputs).mapM (fun entry => r.binding m entry.1 entry.2) =
    inputs
  generalize n.outputs.mapM (fun id => do r.binding m id (← r.graph.readDesc id)) = outputs
  cases inputs with
  | error refusal => rfl
  | ok inputs => cases outputs <;> rfl

end

end Runner

end OperatorGraph
