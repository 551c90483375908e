import OperatorGraph.Proofs.Operator.Zeros
import OperatorGraph.Proofs.Runner.NodeChanges

set_option autoImplicit false

namespace OperatorGraph

/-- All hooks do the same to parameters that differ in the sign of zeros. -/
def Topology.FoldsZeros (t : Topology) : Prop :=
  ∀ n ∈ t.nodes, ∀ hook, n.hook = some hook → hook.FoldsZeros

def Resolution.foldZeros (r : Resolution) : Resolution :=
  { r with param := r.param.foldZeros }

namespace Node

def foldZeros (n : Node) : Node :=
  { n with declared := n.declared.foldZeros, effective := n.effective.foldZeros }

theorem foldZeros_keepsPlace : KeepsPlace foldZeros where
  name _ := rfl
  inputs _ := rfl
  outputs _ := rfl

theorem scratchBytes_foldZeros (n : Node) : n.foldZeros.scratchBytes = n.scratchBytes :=
  n.effective.scratchBytes_foldZeros n.resolvedInputs

end Node

namespace Graph

def foldZeros (g : Graph) : Graph :=
  g.mapNodes Node.foldZeros

@[simp] theorem topology_foldZeros (g : Graph) : g.foldZeros.topology = g.topology := by
  simp only [topology, foldZeros, mapNodes, List.map_map]
  rfl

@[simp] theorem declared_foldZeros (g : Graph) :
    g.foldZeros.declared = g.declared.map Operator.foldZeros := by
  simp only [declared, foldZeros, mapNodes, List.map_map]
  rfl

/-- Both graphs were built alike: only what setups made of them and the sign of zeros differ. -/
structure Like (g h : Graph) : Prop where
  topology : g.topology = h.topology
  declared : g.declared.map Operator.foldZeros = h.declared.map Operator.foldZeros

theorem Like.trans {g h k : Graph} (first : g.Like h) (second : h.Like k) : g.Like k :=
  ⟨first.topology.trans second.topology, first.declared.trans second.declared⟩

theorem like_of_blank {g h : Graph} (same : g.blank = h.blank) : g.Like h := by
  obtain ⟨topology, declared⟩ := blank_eq_iff.mp same
  exact ⟨topology, congrArg (List.map Operator.foldZeros) declared⟩

theorem Like.blank {g h : Graph} (alike : g.Like h) : g.foldZeros.blank = h.foldZeros.blank := by
  rw [blank_eq_iff, topology_foldZeros, topology_foldZeros, declared_foldZeros, declared_foldZeros]
  exact ⟨alike.topology, alike.declared⟩

end Graph

namespace Node

section

variable (n : Node) (g : Graph) (checkViews : Bool)

theorem readInputs_foldZeros :
    n.foldZeros.readInputs g.foldZeros checkViews = n.readInputs g checkViews := by
  have each (index : Nat) (id : TensorId) :
      n.foldZeros.readInput g.foldZeros checkViews index id =
        n.readInput g checkViews index id := by
    simp only [readInput, foldZeros, Operator.family_foldZeros]
    rfl
  simp only [readInputs, each]
  rfl

variable (hooked : ∀ hook, n.hook = some hook → hook.FoldsZeros)
include hooked

theorem runHook_foldZeros (inputs : List TensorDesc) :
    n.foldZeros.runHook g.foldZeros inputs = (n.runHook g inputs).map HookState.foldZeros := by
  cases present : n.hook with
  | none =>
    simp only [runHook, foldZeros, present]
    rfl
  | some hook =>
    have same := hooked hook present ⟨n.name, g.desc?⟩ ⟨inputs, n.declared⟩
    have context : g.foldZeros.desc? = g.desc? := by
      funext id
      cases id <;> rfl
    simp only [HookState.foldZeros] at same
    simp only [runHook, foldZeros, present, context, same]
    rcases hook ⟨n.name, g.desc?⟩ ⟨inputs, n.declared⟩ with ⟨s, refusal | _⟩
    · simp only [Operator.family_foldZeros]
      rfl
    · rfl

theorem resolve_foldZeros : n.foldZeros.resolve g.foldZeros checkViews =
    (n.resolve g checkViews).map Resolution.foldZeros := by
  simp only [resolve, readInputs_foldZeros]
  cases n.readInputs g checkViews with
  | error refusal => rfl
  | ok inputs =>
    simp only [bind, Except.bind, runHook_foldZeros n g hooked]
    cases n.runHook g inputs with
    | error refusal => rfl
    | ok s =>
      have inferred : n.foldZeros.inferOutputs s.foldZeros = n.inferOutputs s := by
        simp only [inferOutputs, HookState.foldZeros, Operator.infer_foldZeros]
        rfl
      simp only [Except.map, inferred]
      cases n.inferOutputs s with
      | error refusal =>
        simp only [Except.mapError, HookState.foldZeros, Operator.family_foldZeros]
        rfl
      | ok outputs => rfl

end

end Node

namespace Graph

section

variable (g : Graph)

variable (checkViews : Bool) (folds : g.topology.FoldsZeros)
include folds

theorem resolveAt_foldZeros (position : Nat) :
    resolveAt checkViews g.foldZeros position =
      (resolveAt checkViews g position).within foldZeros := by
  have node : g.foldZeros.nodes[position]? = g.nodes[position]?.map Node.foldZeros :=
    g.getElem?_mapNodes Node.foldZeros position
  cases found : g.nodes[position]? with
  | none =>
    simp only [resolveAt, node, found]
    rfl
  | some n =>
    have hooked : ∀ hook, n.hook = some hook → hook.FoldsZeros :=
      folds n.topology (List.mem_map.mpr ⟨n, List.mem_of_getElem? found, rfl⟩)
    have changed := n.resolve_foldZeros g checkViews hooked
    cases resolved : n.resolve g checkViews with
    | error refusal =>
      simp only [resolveAt, node, found, Option.map_some, changed, resolved]
      rfl
    | ok r =>
      rw [resolved] at changed
      exact g.resolveAt_mapNodes Node.foldZeros_keepsPlace found resolved changed
        r.param.family_foldZeros rfl

theorem resolve_foldZeros :
    resolve checkViews g.foldZeros = (resolve checkViews g).within foldZeros := by
  have sameLength : g.foldZeros.nodes.length = g.nodes.length := List.length_map _
  simp only [resolve, sameLength]
  refine Outcome.forEach_commutes
    (fun next position kept => next.resolveAt_foldZeros checkViews kept position) ?_ _ g folds
  intro next position kept
  rwa [(blank_eq_iff.mp (blank_resolveAt checkViews next position)).1]

end

end Graph

def Launch.foldZeros (launch : Launch) : Launch :=
  { launch with param := launch.param.foldZeros }

/-- The registry, on launches whose zeros have lost their sign. -/
def Registry.foldingZeros {State : Type} (registry : Registry State) : Registry State where
  launch launch stream := registry.launch launch.foldZeros stream

namespace Runner

def foldZeros (r : Runner) : Runner :=
  { r with graph := r.graph.foldZeros }

section

variable (r : Runner)

variable (folds : r.graph.topology.FoldsZeros)
include folds

/-- Setups over graphs that differ in the sign of zeros come to the same, up to that sign. -/
theorem setup_foldZeros (pack : Pack) :
    r.foldZeros.setup pack = (r.setup pack).within foldZeros := by
  have bound : r.foldZeros.bind pack = (r.bind pack).within foldZeros :=
    r.bind_mapNodes Node.foldZeros pack
  have boundFolds : (r.bind pack).state.graph.topology.FoldsZeros := by
    rwa [(Graph.blank_eq_iff.mp (r.blank_bind pack)).1]
  have resolved : (r.bind pack).state.foldZeros.resolve =
      (r.bind pack).state.resolve.within foldZeros := by
    simp only [Runner.resolve]
    rw [show (r.bind pack).state.foldZeros.graph = (r.bind pack).state.graph.foldZeros from rfl,
      Graph.resolve_foldZeros _ _ boundFolds]
    rfl
  simp only [setup, bound]
  cases binding : (r.bind pack).result with
  | error refusal => simp only [Outcome.andThen, Outcome.within, binding]
  | ok _ =>
    simp only [Outcome.andThen, Outcome.within, binding, resolved]
    cases resolution : (r.bind pack).state.resolve.result with
    | error refusal => rfl
    | ok _ =>
      have planned := planWorkspace_mapNodes
        { (r.bind pack).state.resolve.state with state := .shapesResolved }
        Node.foldZeros_keepsPlace fun n _ => n.scratchBytes_foldZeros
      simp only [mapNodes, foldZeros, Graph.foldZeros, Outcome.within] at planned ⊢
      simp only [planned]

end

section

variable (r : Runner) (m : CallMemory) (call : Pack)

theorem callMemory_foldZeros : r.foldZeros.callMemory call = r.callMemory call :=
  r.callMemory_mapNodes Node.foldZeros call

theorem launchOf_foldZeros (n : Node) :
    r.foldZeros.launchOf m n.foldZeros = (r.launchOf m n).map Launch.foldZeros := by
  refine (r.launchOf_mapNodes Node.foldZeros_keepsPlace m rfl n.scratchBytes_foldZeros).trans ?_
  cases launched : r.launchOf m n with
  | error refusal => rfl
  | ok launch =>
    obtain ⟨_, _, -, -, rfl⟩ := launchOf_ok launched
    rfl

theorem launches_foldZeros :
    r.foldZeros.launches call = (r.launches call).map (List.map Launch.foldZeros) := by
  simp only [launches, callMemory_foldZeros]
  cases r.callMemory call with
  | error refusal => rfl
  | ok m =>
    have nodes : r.foldZeros.graph.nodes = r.graph.nodes.map Node.foldZeros := rfl
    have each : r.foldZeros.launchOf m ∘ Node.foldZeros =
        fun n => (r.launchOf m n).map Launch.foldZeros :=
      funext fun n => r.launchOf_foldZeros m n
    simp only [Bind.bind, Except.bind, nodes, List.mapM_map, each]
    exact Answer.mapM_map_answers _ _ _

variable {State : Type} (registry : Registry State) (stream : State)

theorem launchNode_foldZeros (n : Node) :
    r.foldZeros.launchNode registry.foldingZeros m stream n.foldZeros =
      r.launchNode registry.foldingZeros m stream n := by
  simp only [launchNode, submit, launchOf_foldZeros]
  cases r.launchOf m n with
  | error refusal => rfl
  | ok launch =>
    have failing (source : KernelError) :
        r.foldZeros.launchFailed launch.foldZeros source = r.launchFailed launch source := by
      cases source <;>
        simp only [launchFailed, Launch.foldZeros, Operator.name_foldZeros] <;> rfl
    simp only [Except.map, Registry.foldingZeros, launchingLine, failing]
    simp only [Launch.foldZeros, Operator.foldZeros_foldZeros, Operator.name_foldZeros,
      Operator.family_foldZeros]

/-- On a registry that drops the sign of zeros, executions come to the same. -/
theorem execute_foldZeros : r.foldZeros.execute registry.foldingZeros stream call =
    (r.execute registry.foldingZeros stream call).within fun ran => (ran.1.foldZeros, ran.2) := by
  simp only [execute, callMemory_foldZeros]
  cases r.callMemory call with
  | error refusal => rfl
  | ok m =>
    have nodes : r.foldZeros.graph.nodes = r.graph.nodes.map Node.foldZeros := rfl
    have each (next : State) (n : Node) := r.launchNode_foldZeros m registry next n
    simp only [launchAll, nodes, Outcome.forEach_map, each]
    cases ran : (Outcome.forEach (r.launchNode registry.foldingZeros m) stream
        r.graph.nodes).result with
    | error refusal =>
      simp only [Outcome.andThen, Outcome.within, ran]
    | ok _ =>
      simp only [Outcome.andThen, Outcome.within, ran, Outcome.done]
      rfl

end

/-- No packs tell two runners apart, but for the sign of zeros: their setups come to the same, and
so do the launches of a call after it, and its execution. -/
structure Indistinguishable (r s : Runner) : Prop where
  setup : ∀ pack, SameSetup ((r.setup pack).within foldZeros) ((s.setup pack).within foldZeros)
  launches : ∀ pack call,
    ((r.setup pack).state.launches call).map (List.map Launch.foldZeros) =
      ((s.setup pack).state.launches call).map (List.map Launch.foldZeros)
  execute : ∀ pack call {State : Type} (registry : Registry State) (stream : State),
    ((r.setup pack).state.execute registry.foldingZeros stream call).within
        (fun ran => (ran.1.state, ran.2)) =
      ((s.setup pack).state.execute registry.foldingZeros stream call).within
        (fun ran => (ran.1.state, ran.2))

section

variable {r s : Runner} (alike : r.graph.Like s.graph) (config : r.config = s.config)
  (folds : s.graph.topology.FoldsZeros) (pack : Pack)
include alike config folds

theorem sameSetup_of_like :
    SameSetup ((r.setup pack).within foldZeros) ((s.setup pack).within foldZeros) := by
  rw [← r.setup_foldZeros (alike.topology ▸ folds), ← s.setup_foldZeros folds]
  have blank : r.foldZeros.graph.blank = s.foldZeros.graph.blank := alike.blank
  exact Runner.sameSetup blank config pack

/-- Where the setup fails, both runners refuse a call for the same reason. -/
theorem callMemory_of_failed (call : Pack) {failure : Error}
    (failed : (r.setup pack).result = .error failure) :
    ∃ refusal, (r.setup pack).state.callMemory call = .error refusal ∧
      (s.setup pack).state.callMemory call = .error refusal := by
  have same := sameSetup_of_like alike config folds pack
  have failed' := same.result.symm.trans failed
  have graphName : r.graph.name = s.graph.name := congrArg Topology.name alike.topology
  have nameOf (t : Runner) : (t.setup pack).state.graph.name = t.graph.name :=
    congrArg Topology.name (Graph.blank_eq_iff.mp (t.blank_setup pack).1).1
  have states : (r.setup pack).state.state = (s.setup pack).state.state := same.state
  refine ⟨_, callMemory_of_unplanned (not_planned_of_failed failed) call, ?_⟩
  rw [callMemory_of_unplanned (not_planned_of_failed failed') call]
  simp only [notPlanned, nameOf, graphName, states]

end

/-- Runners over graphs that were built alike are indistinguishable. -/
theorem indistinguishable_of_like {r s : Runner} (alike : r.graph.Like s.graph)
    (config : r.config = s.config) (folds : s.graph.topology.FoldsZeros) :
    r.Indistinguishable s := by
  have sameSetup := sameSetup_of_like alike config folds
  refine ⟨sameSetup, ?_, ?_⟩
  · intro pack call
    cases result : (r.setup pack).result with
    | error refusal =>
      obtain ⟨refusal, left, right⟩ := callMemory_of_failed alike config folds pack call result
      simp only [launches, left, right]
      rfl
    | ok bytes =>
      have same := (sameSetup pack).onSuccess bytes result
      simp only [Outcome.within] at same
      rw [← launches_foldZeros, ← launches_foldZeros, same]
  · intro pack call State registry stream
    cases result : (r.setup pack).result with
    | error refusal =>
      obtain ⟨refusal, left, right⟩ := callMemory_of_failed alike config folds pack call result
      have states : (r.setup pack).state.state = (s.setup pack).state.state :=
        (sameSetup pack).state
      simp only [Runner.execute, left, right, Outcome.failed, Outcome.within, states]
    | ok bytes =>
      have same := (sameSetup pack).onSuccess bytes result
      simp only [Outcome.within] at same
      have left := (r.setup pack).state.execute_foldZeros call registry stream
      have right := (s.setup pack).state.execute_foldZeros call registry stream
      rw [same, right] at left
      have shown := congrArg (fun ran => ran.within fun pair => (pair.1.state, pair.2)) left
      exact shown.symm

end Runner

end OperatorGraph
