import OperatorGraph.Proofs.Dispatch.Layouts
import OperatorGraph.Proofs.Runner.Containment
import OperatorGraph.Proofs.Runner.Inferred

set_option autoImplicit false

namespace OperatorGraph

namespace Runner

/-- A launch of a ready runner carries what setup has established about its node. -/
theorem Ready.accepted {r : Runner} {m : CallMemory} {sizes : List Nat} (ready : r.Ready m sizes)
    (infers : r.graph.Infers) {n : Node} (member : n ∈ r.graph.nodes) {launch : Launch}
    (launched : r.launchOf m n = .ok launch) : ∃ inferred, launch.Accepted inferred := by
  obtain ⟨inferred, answer, fits, produced⟩ := infers n member
  obtain ⟨descs, -, count⟩ := lengths_of_launch (ready.reads n member).1 launched
  have param := launch_param launched
  refine ⟨inferred, ?_, fits, ?_, ?_, ?_⟩
  · rw [param, descs]
    exact answer
  · refine Answer.forall₂_of_getElem? (count.trans produced.length_eq)
      fun i b desc bound inferredAt => ?_
    obtain ⟨id, atId, present, -⟩ := launch_output launched bound
    obtain ⟨held, alsoPresent, compatible⟩ := Answer.getElem?_of_forall₂ produced atId inferredAt
    obtain rfl : b.desc = held := Option.some.inj (present.symm.trans alsoPresent)
    exact compatible
  · intro b inEither
    rcases List.mem_append.mp inEither with input | output
    · obtain ⟨i, found⟩ := List.getElem?_of_mem input
      obtain ⟨-, -, -, -, bytes⟩ := launch_input launched found
      exact bytes
    · obtain ⟨i, found⟩ := List.getElem?_of_mem output
      obtain ⟨-, -, -, -, bytes⟩ := launch_output launched found
      exact bytes
  · intro asks
    have asksNode : n.scratchBytes ≠ 0 := by
      rw [param, descs] at asks
      exact asks
    obtain ⟨span, given, -⟩ := ready.scratchOf_answers member asksNode
    rw [launch_scratch launched, given]
    rfl

/-- Setup and planning agree: whatever came before a setup that succeeded with a plan of 64-bit
words, an execution that the runner accepts after it serves launches that can be planned, one for
each node, wherever the inputs of the node were resolved to known dimensions. -/
theorem launches_plannable {g : Graph} {config : Config} {created : Runner}
    (accepted : Runner.new g config = .ok created) {calls : List Call} {pack : Pack} {bytes : Nat}
    (stands : created.StandsOn calls pack bytes) (fits : (created.afterAll calls).PlanFits)
    {call : Pack} {m : CallMemory} (called : (created.afterAll calls).callMemory call = .ok m) :
    let r := created.afterAll calls
    ∃ made, r.launches call = .ok made ∧
      (∀ {State : Type} (registry : Registry State) (stream : State),
        let ran := r.execute registry stream call
        registry.Serves stream made ran.result ran.state.2) ∧
      List.Forall₂ (fun n launch =>
        (∀ desc ∈ n.resolvedInputs, desc.shape.Resolved) → launch.Plannable) r.graph.nodes made := by
  intro r
  obtain ⟨rfl, formed, power⟩ := new_ok accepted
  have setUp := setUpFor_of_standsOn formed stands
  have kept := (topology_afterAll ⟨g, config, .unbound, .empty⟩ calls).2
  obtain ⟨sizes, ready⟩ := setUp.complete.ready (kept ▸ power) fits called
  have infers := infers_of_standsOn formed stands
  obtain ⟨made, answered, -⟩ := setUp.launches_of_accepted called
  refine ⟨made, answered, fun registry stream => r.execute_serves registry answered stream, ?_⟩
  refine (forall₂_launches called answered).imp fun n launch ⟨member, launched⟩ resolved => ?_
  obtain ⟨inferred, established⟩ := ready.accepted infers member launched
  refine established.plannable fun b bound => ?_
  obtain ⟨descs, -, -⟩ := lengths_of_launch (ready.reads n member).1 launched
  refine resolved b.desc ?_
  rw [← descs]
  exact List.mem_map_of_mem bound

/-- The launch of attention is planned with its scratch. -/
theorem attending_plannable :
    let r := (⟨attending, .default, .unbound, .empty⟩ : Runner).afterAll [.setUp attendingPack]
    ∃ made, r.launches attendingPack = .ok made ∧
      (∀ n ∈ r.graph.nodes, ∀ desc ∈ n.resolvedInputs, desc.shape.Resolved) ∧
      ∀ launch ∈ made, launch.Plannable := by
  intro r
  have accepted : Runner.new attending .default = .ok ⟨attending, .default, .unbound, .empty⟩ := rfl
  have stands : StandsOn ⟨attending, .default, .unbound, .empty⟩ [.setUp attendingPack]
      attendingPack 512 := ⟨[], [], rfl, by simp, by decide +kernel⟩
  have called : r.callMemory attendingPack =
      .ok ⟨[4096, 8192, 12288], [16384], ⟨65536, 512⟩⟩ := by decide +kernel
  have fits : r.PlanFits := ⟨[32], by decide +kernel, by decide +kernel⟩
  have resolved : ∀ n ∈ r.graph.nodes, ∀ desc ∈ n.resolvedInputs, desc.shape.Resolved := by
    decide +kernel
  obtain ⟨made, answered, -, plannable⟩ := launches_plannable accepted stands fits called
  refine ⟨made, answered, resolved, fun launch member => ?_⟩
  obtain ⟨i, found⟩ := List.getElem?_of_mem member
  have inside : i < r.graph.nodes.length := by
    rw [plannable.length_eq]
    exact (List.getElem?_eq_some_iff.mp found).1
  have atNode := List.getElem?_eq_getElem inside
  exact Answer.getElem?_of_forall₂ plannable atNode found (resolved _ (List.mem_of_getElem? atNode))

/-- Every launch of a complete runner is one that inference has let through. -/
theorem Complete.infers_launch {r : Runner} (complete : r.Complete) (infers : r.graph.Infers)
    {m : CallMemory} {n : Node} (member : n ∈ r.graph.nodes) {launch : Launch}
    (launched : r.launchOf m n = .ok launch) :
    ∃ inferred, launch.param.infer (launch.inputs.map Binding.desc) = .ok inferred := by
  obtain ⟨inferred, answer, -, -⟩ := infers n member
  obtain ⟨descs, -, -⟩ := lengths_of_launch (complete.reads n member).1 launched
  have param := launch_param launched
  exact ⟨inferred, by rw [param, descs, answer]⟩

/-- Whatever came before a setup that succeeded, an execution that the runner accepts after it
serves launches of which every plan is made of well-formed dispatches. -/
theorem dispatches_wellFormed {g : Graph} {config : Config} {created : Runner}
    (accepted : Runner.new g config = .ok created) {calls : List Call} {pack : Pack} {bytes : Nat}
    (stands : created.StandsOn calls pack bytes) {call : Pack} {m : CallMemory}
    (called : (created.afterAll calls).callMemory call = .ok m) :
    let r := created.afterAll calls
    ∃ made, r.launches call = .ok made ∧
      (∀ {State : Type} (registry : Registry State) (stream : State),
        let ran := r.execute registry stream call
        registry.Serves stream made ran.result ran.state.2) ∧
      ∀ launch ∈ made, ∀ ds, launch.plan = .ok ds → ∀ d ∈ ds, launch.WellFormed d := by
  intro r
  obtain ⟨rfl, formed, -⟩ := new_ok accepted
  have setUp := setUpFor_of_standsOn formed stands
  have infers := infers_of_standsOn formed stands
  obtain ⟨made, answered, -⟩ := setUp.launches_of_accepted called
  refine ⟨made, answered, fun registry stream => r.execute_serves registry answered stream, ?_⟩
  intro launch member ds planned
  obtain ⟨n, -, inNodes, launched⟩ :=
    Answer.exists_mem_zip (forall₂_launches called answered) member
  obtain ⟨inferred, accepts⟩ := setUp.complete.infers_launch infers inNodes launched
  exact Launch.wellFormed_of_plan accepts planned

/-- Attention is bound to its four tensors and to scratch, and has two launch parameters for the one
entry of its batch behind its seven others. -/
theorem attending_dispatches :
    let r := (⟨attending, .default, .unbound, .empty⟩ : Runner).afterAll [.setUp attendingPack]
    let measures (launch : Launch) : Option (List (Nat × Nat)) :=
      launch.plan.toOption.map (·.map fun d => (d.tensors.length, d.info.length))
    ∃ made, r.launches attendingPack = .ok made ∧
      made.map measures = [some [(5, 9)], some [(2, 1)]] ∧
      ∀ launch ∈ made, ∀ ds, launch.plan = .ok ds → ∀ d ∈ ds, launch.WellFormed d := by
  intro r measures
  have accepted : Runner.new attending .default = .ok ⟨attending, .default, .unbound, .empty⟩ := rfl
  have stands : StandsOn ⟨attending, .default, .unbound, .empty⟩ [.setUp attendingPack]
      attendingPack 512 := ⟨[], [], rfl, by simp, by decide +kernel⟩
  have called : r.callMemory attendingPack =
      .ok ⟨[4096, 8192, 12288], [16384], ⟨65536, 512⟩⟩ := by decide +kernel
  have measured : (r.launches attendingPack).toOption.map (List.map measures) =
      some [some [(5, 9)], some [(2, 1)]] := by decide +kernel
  obtain ⟨made, answered, -, wellFormed⟩ := dispatches_wellFormed accepted stands called
  rw [answered] at measured
  exact ⟨made, answered, Option.some.inj measured, wellFormed⟩

end Runner

end OperatorGraph
