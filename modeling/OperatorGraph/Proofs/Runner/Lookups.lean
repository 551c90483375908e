import OperatorGraph.Proofs.Runner.Clobbering
import OperatorGraph.Proofs.Runner.Serving
import OperatorGraph.Proofs.Runner.Standing

set_option autoImplicit false

namespace OperatorGraph

namespace Runner

/-- Every lookup that the launches of a call make finds what it looks for. -/
structure LookupsAnswer (r : Runner) (m : CallMemory) : Prop where
  inputs : m.inputs.length = r.graph.inputs.length
  outputs : m.outputs.length = r.graph.outputs.length
  offsets : r.plan.offsets.length = r.graph.internals.length
  addresses : ∀ n ∈ r.graph.nodes, ∀ id ∈ n.inputs ++ n.outputs, ∃ ptr, r.address m id = .ok ptr
  /-- No launch binds fewer tensors than its node names. -/
  launches : ∀ n ∈ r.graph.nodes, n.resolvedInputs.length = n.inputs.length ∧
    ∃ launch, r.launchOf m n = .ok launch ∧ launch.inputs.length = n.inputs.length ∧
      launch.outputs.length = n.outputs.length
  /-- In a plan of 64-bit words the scratch that a node asks for lies inside the workspace. -/
  scratch : r.PlanFits → ∀ n ∈ r.graph.nodes, n.scratchBytes ≠ 0 →
    ∃ span, r.scratchOf m n = some span ∧ span.len = n.scratchBytes

theorem Ready.scratchOf_answers {r : Runner} {m : CallMemory} {sizes : List Nat}
    (ready : r.Ready m sizes) {n : Node} (member : n ∈ r.graph.nodes) (asks : n.scratchBytes ≠ 0) :
    ∃ span, r.scratchOf m n = some span ∧ span.len = n.scratchBytes := by
  have most := r.graph.le_scratchBytes member
  have planned := ready.sound.scratch
  have inside := ready.sound.scratchInside
  have workspace := ready.workspace
  have fits : r.plan.scratchOffset + n.scratchBytes ≤ m.workspace.len := by omega
  simp [scratchOf, asks, Span.slice?, fits]

theorem Complete.lookupsAnswer {r : Runner} (complete : r.Complete)
    (power : Config.IsPowerOfTwo r.config.workspaceAlignment) {call : Pack} {m : CallMemory}
    (accepted : r.callMemory call = .ok m) : r.LookupsAnswer m := by
  have covered := complete.covered accepted
  refine ⟨covered.inputs, covered.outputs, covered.offsets, ?_, ?_, ?_⟩
  · intro n member id mentioned
    exact covered.address_answers (Graph.has_of_mentioned complete.formed member mentioned)
  · intro n member
    have resolved := (complete.reads n member).1
    obtain ⟨launch, launched, inputs, outputs⟩ := covered.launchOf_answers member
    refine ⟨resolved, launch, launched, ?_, outputs⟩
    rw [inputs, List.length_zip, resolved, Nat.min_self]
  · intro fits n member asks
    obtain ⟨sizes, ready⟩ := complete.ready power fits accepted
    exact ready.scratchOf_answers member asks

/-- An execution of a complete runner never puts its graph at fault. -/
theorem Complete.refusal_of_execute {r : Runner} (complete : r.Complete) {call : Pack}
    {State : Type} {registry : Registry State} {stream : State} {refusal : Error}
    (failed : (r.execute registry stream call).result = .error refusal) :
    refusal.blamesGraph = false := by
  cases accepted : r.callMemory call with
  | error reason =>
    rw [execute, accepted] at failed
    obtain rfl : reason = refusal := Except.error.inj failed
    exact complete.refusal_of_callMemory accepted
  | ok m =>
    have covered := complete.covered accepted
    obtain ⟨made, answered⟩ := launches_answer accepted fun n member =>
      (covered.launchOf_answers member).imp fun _ launched => launched.1
    have served := r.execute_serves registry answered stream
    rw [failed] at served
    obtain ⟨launch, -, source, rfl⟩ := served.dispatch
    rfl

/-- Validation is sound for whole runs: whatever setups, executions and updates a runner has gone
through, no setup and no execution finds fault with its graph, and every lookup of a call that it
accepts has an answer. -/
theorem lookups_answer {g : Graph} {config : Config} {created : Runner}
    (accepted : Runner.new g config = .ok created) (calls : List Call) :
    let r := created.afterAll calls
    (∀ pack refusal, (r.setup pack).result = .error refusal → refusal.blamesGraph = false) ∧
      (∀ (call : Pack) {State : Type} (registry : Registry State) (stream : State) refusal,
        (r.execute registry stream call).result = .error refusal → refusal.blamesGraph = false) ∧
      ∀ call m, r.callMemory call = .ok m → r.LookupsAnswer m := by
  intro r
  obtain ⟨rfl, formed, power⟩ := new_ok accepted
  obtain ⟨topology, config⟩ := topology_afterAll ⟨g, config, .unbound, .empty⟩ calls
  have complete (planned : r.state.isPlanned) : r.Complete := by
    obtain ⟨pack, bytes, stands⟩ := standsOn_of_planned rfl planned
    exact (setUpFor_of_standsOn formed stands).complete
  refine ⟨fun pack refusal failed => refusal_of_setup (topology ▸ formed) failed, ?_, ?_⟩
  · intro call State registry stream refusal failed
    cases planned : r.state.isPlanned with
    | true => exact (complete planned).refusal_of_execute failed
    | false =>
      rw [execute, callMemory_of_unplanned planned] at failed
      rw [← Except.error.inj failed]
      rfl
  · intro call m called
    exact (complete (callMemory_eq_ok.mp called).1).lookupsAnswer (config ▸ power) called

/-- Neither a setup that fails nor an update stands in the way of the next setup. -/
theorem chain_lookups :
    let r := (⟨chain, .default, .unbound, .empty⟩ : Runner).afterAll
      [.setUp ⟨[], [], none⟩,
        .update [⟨"probe", "second", .activation, fun _ => .activation .relu⟩], .setUp chainPack]
    let m : CallMemory := ⟨[4096], [8192], ⟨65536, 512⟩⟩
    r.callMemory chainPack = .ok m ∧ r.LookupsAnswer m := by
  intro r m
  have accepted : Runner.new chain .default = .ok ⟨chain, .default, .unbound, .empty⟩ := rfl
  have called : r.callMemory chainPack = .ok m := by decide +kernel
  exact ⟨called, (lookups_answer accepted _).2.2 chainPack m called⟩

end Runner

end OperatorGraph
