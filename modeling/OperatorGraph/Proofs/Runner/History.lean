import OperatorGraph.Proofs.Runner.Setup
import OperatorGraph.Runner.Execute

set_option autoImplicit false

namespace OperatorGraph

/-- Access to the declared parameter of a named node, which has to be of the given family. -/
structure Edit where
  operation : String
  node : String
  family : Family
  change : Operator → Operator

namespace Patch

/-- Makes edits one after the other, whether or not the ones before succeeded. -/
def editAll (p : Patch) : List Edit → Patch × List (Except PoolError Unit)
  | [] => (p, [])
  | e :: rest =>
    let (next, result) := p.edit e.operation e.node e.family e.change
    let (last, results) := next.editAll rest
    (last, result :: results)

@[simp] theorem graph_touch (p : Patch) (position : Nat) : (p.touch position).graph = p.graph := by
  unfold touch
  split <;> rfl

@[simp] theorem topology_edit (p : Patch) (operation node : String) (family : Family)
    (change : Operator → Operator) :
    (p.edit operation node family change).1.graph.topology = p.graph.topology := by
  simp only [edit]
  split
  · rfl
  · split
    · simp only [graph_touch, Graph.topology_modifyDeclared]
    · simp only [graph_touch]

theorem topology_editAll (edits : List Edit) (p : Patch) :
    (p.editAll edits).1.graph.topology = p.graph.topology := by
  induction edits generalizing p with
  | nil => rfl
  | cons e rest ih => simp only [editAll, ih, topology_edit]

end Patch

inductive Call : Type 1 where
  | setUp (pack : Pack)
  | execute {State : Type} (registry : Registry State) (stream : State) (pack : Pack)
  | update (edits : List Edit)

/-- Two setups came to the same. Where they fail, the nodes they did not reach may still show what
an earlier setup made of them. -/
structure SameSetup (s t : Outcome Runner Error Nat) : Prop where
  result : s.result = t.result
  log : s.log = t.log
  state : s.state.state = t.state.state
  plan : s.state.plan = t.state.plan
  inputs : s.state.graph.inputs = t.state.graph.inputs
  outputs : s.state.graph.outputs = t.state.graph.outputs
  internals : s.state.graph.internals = t.state.graph.internals
  onSuccess : ∀ bytes, s.result = .ok bytes → s.state = t.state

namespace Runner

/-- The runner after a call, however the call ended. -/
def after (r : Runner) : Call → Runner
  | .setUp pack => (r.setup pack).state
  | .execute registry stream pack => (r.execute registry stream pack).state.1
  | .update edits => (r.update (·.editAll edits)).1

def afterAll (r : Runner) (calls : List Call) : Runner :=
  calls.foldl after r

/-- The launches of a call, in order. -/
def launches (r : Runner) (call : Pack) : Except Error (List Launch) := do
  let m ← r.callMemory call
  r.graph.nodes.mapM (r.launchOf m)

/-- Launches of a call are made where every node has one. -/
theorem launches_answer {r : Runner} {call : Pack} {m : CallMemory}
    (accepted : r.callMemory call = .ok m)
    (each : ∀ n ∈ r.graph.nodes, ∃ launch, r.launchOf m n = .ok launch) :
    ∃ made, r.launches call = .ok made := by
  obtain ⟨made, answered⟩ := Answer.mapM_answers each
  exact ⟨made, Answer.bind_eq_ok.mpr ⟨m, accepted, answered⟩⟩

theorem forEach_launchNode (r : Runner) {State : Type} (registry : Registry State) {m : CallMemory}
    {nodes : List Node} {made : List Launch} (answered : nodes.mapM (r.launchOf m) = .ok made)
    (stream : State) : Outcome.forEach (r.launchNode registry m) stream nodes =
      Outcome.forEach (r.submit registry) stream made := by
  induction nodes generalizing made stream with
  | nil =>
    obtain rfl : [] = made := by simpa using answered
    rfl
  | cons n rest ih =>
    simp only [List.mapM_cons, Answer.bind_eq_ok, Answer.pure_eq_ok] at answered
    obtain ⟨launch, first, later, answered, rfl⟩ := answered
    have here : r.launchNode registry m stream n = r.submit registry stream launch := by
      simp only [launchNode, first]
    simp only [Outcome.forEach_cons, here, ih answered]

/-- An execution hands the launches of the call to the registry, up to the first that fails. -/
theorem execute_of_launches {r : Runner} {call : Pack} {made : List Launch}
    (answered : r.launches call = .ok made) {State : Type} (registry : Registry State)
    (stream : State) : r.execute registry stream call =
      ((Outcome.forEach (r.submit registry) stream made).within (r, ·)).andThen
        fun (r, stream) _ => .done ({ r with state := .executed }, stream) () := by
  obtain ⟨m, accepted, launched⟩ := Answer.bind_eq_ok.mp answered
  simp only [execute, accepted, launchAll, r.forEach_launchNode registry launched]

/-- The launches of a call are those of the nodes, in order. -/
theorem forall₂_launches {r : Runner} {call : Pack} {m : CallMemory} {made : List Launch}
    (called : r.callMemory call = .ok m) (answered : r.launches call = .ok made) :
    List.Forall₂ (fun n launch => n ∈ r.graph.nodes ∧ r.launchOf m n = .ok launch)
      r.graph.nodes made := by
  obtain ⟨other, again, launched⟩ := Answer.bind_eq_ok.mp answered
  obtain rfl : m = other := Except.ok.inj (called.symm.trans again)
  exact Answer.forall₂_of_mapM launched

/-- A runner before its first call. -/
def fresh (topology : Topology) (declared : List Operator) (config : Config) : Runner :=
  ⟨topology.graph declared, config, .unbound, .empty⟩

/-- The runner without what the last setup made of its nodes. -/
def unresolved (r : Runner) : Runner :=
  { r with graph := r.graph.unresolved }

theorem new_ok {g : Graph} {config : Config} {r : Runner} (accepted : Runner.new g config = .ok r) :
    r = ⟨g, config, .unbound, .empty⟩ ∧ g.topology.WellFormed ∧
      Config.IsPowerOfTwo config.workspaceAlignment := by
  simp only [Runner.new, Answer.bind_eq_ok, Answer.pure_eq_ok, Answer.mapError_eq_ok,
    Graph.validate] at accepted
  obtain ⟨_, valid, _, formed, rfl⟩ := accepted
  refine ⟨rfl, Graph.wellFormed_of_check formed, ?_⟩
  unfold Config.validate at valid
  split at valid
  · simp at valid
  · rename_i power
    exact Decidable.not_not.mp power

section

variable (r : Runner) (pack : Pack)

/-- An execution marks the runner when it succeeds, and does nothing to it otherwise. -/
theorem runner_execute {State : Type} (registry : Registry State) (stream : State) :
    (r.execute registry stream pack).state.1 =
      match (r.execute registry stream pack).result with
      | .ok _ => { r with state := .executed }
      | .error _ => r := by
  simp only [execute]
  split
  · rfl
  · rename_i m _
    cases ran : (r.launchAll registry m stream).result <;>
      simp only [Outcome.andThen, Outcome.within, ran, Outcome.done]

theorem execute_keeps {State : Type} (registry : Registry State) (stream : State) :
    (r.execute registry stream pack).state.1 =
      { r with state := (r.execute registry stream pack).state.1.state } := by
  rw [runner_execute]
  split <;> rfl

theorem topology_update (edits : List Edit) :
    (r.update (·.editAll edits)).1.graph.topology = r.graph.topology := by
  have edited := Patch.topology_editAll edits (Patch.start r.reset.graph)
  have cleared := (Graph.blank_eq_iff.mp r.graph.blank_clear).1
  exact edited.trans cleared

theorem topology_after (call : Call) :
    (r.after call).graph.topology = r.graph.topology ∧ (r.after call).config = r.config := by
  cases call with
  | setUp pack =>
    obtain ⟨graph, config⟩ := r.blank_setup pack
    exact ⟨(Graph.blank_eq_iff.mp graph).1, config⟩
  | execute registry stream pack =>
    rw [after, r.execute_keeps pack registry stream]
    exact ⟨rfl, rfl⟩
  | update edits => exact ⟨r.topology_update edits, rfl⟩

theorem topology_afterAll (calls : List Call) :
    (r.afterAll calls).graph.topology = r.graph.topology ∧
      (r.afterAll calls).config = r.config := by
  induction calls generalizing r with
  | nil => exact ⟨rfl, rfl⟩
  | cons call rest ih =>
    obtain ⟨topology, config⟩ := r.topology_after call
    obtain ⟨topology', config'⟩ := ih (r.after call)
    exact ⟨topology'.trans topology, config'.trans config⟩

end

theorem bind_congr {r s : Runner} (graph : r.graph.blank = s.graph.blank)
    (config : r.config = s.config) (pack : Pack) :
    (r.bind pack).within unresolved = (s.bind pack).within unresolved := by
  have bound (g : Graph) :
      g.unresolved.bind pack = ((g.bind pack).1.unresolved, (g.bind pack).2) :=
    g.bind_mapNodes Node.unresolved pack
  have same : (r.graph.clear.unresolved).bind pack = (s.graph.clear.unresolved).bind pack :=
    congrArg (fun g : Graph => g.bind pack) graph
  rw [bound, bound, Prod.mk.injEq] at same
  simp only [Outcome.within_eq_within, Runner.bind, reset, unresolved, config, same, and_self]

theorem resolve_congr {r s : Runner} (alike : r.unresolved = s.unresolved) :
    r.resolve.within unresolved = s.resolve.within unresolved := by
  simp only [unresolved, Runner.mk.injEq] at alike
  obtain ⟨graph, config, state, plan⟩ := alike
  have resolved := Outcome.within_eq_within.mp (Graph.resolve_congr r.config.checkViews graph)
  simp only [Runner.resolve, Outcome.within, unresolved, ← config, state, plan, resolved]

theorem resolve_eq_of_ok {r s : Runner} (alike : r.unresolved = s.unresolved)
    (success : r.resolve.result = .ok ()) : r.resolve = s.resolve := by
  simp only [unresolved, Runner.mk.injEq] at alike
  obtain ⟨graph, config, state, plan⟩ := alike
  have resolved := Graph.resolve_eq_of_ok graph success
  simp only [Runner.resolve, resolved, ← config, state, plan]

/-- Setups over the same graph with the same declared parameters come to the same. -/
theorem setup_congr {r s : Runner} (graph : r.graph.blank = s.graph.blank)
    (config : r.config = s.config) (pack : Pack) :
    (r.setup pack).within unresolved = (s.setup pack).within unresolved ∧
      ∀ bytes, (r.setup pack).result = .ok bytes → r.setup pack = s.setup pack := by
  obtain ⟨bound, log, result⟩ := Outcome.within_eq_within.mp (bind_congr graph config pack)
  simp only [setup]
  cases binding : (r.bind pack).result with
  | error refusal =>
    rw [binding] at result
    simp only [Outcome.andThen_of_error _ binding, Outcome.andThen_of_error _ result.symm]
    exact ⟨Outcome.within_eq_within.mpr ⟨bound, log, rfl⟩, fun bytes success => by simp at success⟩
  | ok _ =>
    rw [binding] at result
    simp only [Outcome.andThen_of_ok _ binding, Outcome.andThen_of_ok _ result.symm, log]
    obtain ⟨resolved, lines, ending⟩ := Outcome.within_eq_within.mp (resolve_congr bound)
    cases resolution : (r.bind pack).state.resolve.result with
    | error refusal =>
      rw [resolution] at ending
      simp only [Outcome.andThen_of_error _ resolution, Outcome.andThen_of_error _ ending.symm,
        lines]
      exact ⟨Outcome.within_eq_within.mpr ⟨resolved, rfl, rfl⟩,
        fun bytes success => by simp at success⟩
    | ok _ =>
      -- From here on the two runners are the same, resolved nodes included.
      rw [resolve_eq_of_ok bound resolution]
      exact ⟨rfl, fun _ _ => rfl⟩

theorem sameSetup {r s : Runner} (graph : r.graph.blank = s.graph.blank)
    (config : r.config = s.config) (pack : Pack) : SameSetup (r.setup pack) (s.setup pack) := by
  obtain ⟨alike, onSuccess⟩ := setup_congr graph config pack
  obtain ⟨runner, log, result⟩ := Outcome.within_eq_within.mp alike
  simp only [unresolved, Graph.unresolved, Graph.mapNodes, Runner.mk.injEq, Graph.mk.injEq]
    at runner
  obtain ⟨⟨-, inputs, outputs, internals, -⟩, -, state, plan⟩ := runner
  exact ⟨result, log, state, plan, inputs, outputs, internals,
    fun bytes success => congrArg Outcome.state (onSuccess bytes success)⟩

/-- A setup comes to what it comes to on a fresh runner, whatever calls it follows. Neither it nor
an execution changes a declared parameter. -/
theorem setup_independent_of_history (r : Runner) (calls : List Call) (pack : Pack) :
    let reached := r.afterAll calls
    let fresh := fresh r.graph.topology reached.graph.declared r.config
    (reached.setup pack).state.graph.declared = reached.graph.declared ∧
      (∀ {State : Type} (registry : Registry State) (stream : State),
        (reached.execute registry stream pack).state.1.graph.declared = reached.graph.declared) ∧
      SameSetup (reached.setup pack) (fresh.setup pack) := by
  intro reached fresh
  obtain ⟨topology, config⟩ := r.topology_afterAll calls
  have graph : reached.graph.blank = fresh.graph.blank := by
    have rebuilt : fresh.graph = reached.graph.blank := by
      rw [Graph.blank_eq, topology]
      rfl
    rw [rebuilt, Graph.blank_eq_iff]
    simp
  refine ⟨(Graph.blank_eq_iff.mp (reached.blank_setup pack).1).2, ?_, sameSetup graph config pack⟩
  intro State registry stream
  rw [reached.execute_keeps pack registry stream]

end Runner

end OperatorGraph
