import OperatorGraph.Proofs.Runner.Clobbering
import OperatorGraph.Proofs.Runner.Serving
import OperatorGraph.Proofs.Runner.Standing

set_option autoImplicit false

namespace OperatorGraph

/-- The call names the tensors of a setup, in memory of the caller. -/
structure Pack.Repeats (call pack : Pack) : Prop where
  descs : ∀ side, (call.tensors side).map Tensor.desc = (pack.tensors side).map Tensor.desc
  external : ∀ side, ∀ tensor ∈ call.tensors side, ∃ ptr, tensor.memory = .external ptr

/-- The call brings so many bytes of workspace. Where none are asked for, it need not bring any. -/
def Pack.Provides (call : Pack) (bytes : Nat) : Prop :=
  0 < bytes → ∃ span, call.workspace = some span ∧ bytes ≤ span.len

namespace Runner

theorem callWorkspace_answers {r : Runner} {call : Pack} :
    (∃ span, r.callWorkspace call.workspace = .ok span) ↔ call.Provides r.plan.totalBytes := by
  simp only [callWorkspace_eq_ok, exists_eq_left, Pack.Provides]
  cases call.workspace with
  | none => simp
  | some span =>
    simp only [Option.getD_some, Option.some.injEq, exists_eq_left']
    omega

namespace SetUpFor

variable {r : Runner} {pack : Pack} {bytes : Nat} (ready : r.SetUpFor pack bytes)
include ready

/-- The slots of a side are what the tensors of the setup made them. -/
theorem names_iff (side : Side) (tensors : List Tensor) : r.graph.Names side tensors ↔
    tensors.map Tensor.desc = (pack.tensors side).map Tensor.desc ∧
      ∀ tensor ∈ tensors, ∃ ptr, tensor.memory = .external ptr := by
  obtain ⟨count, bound⟩ := ready.bound side
  constructor
  · intro names
    refine ⟨List.ext_getElem? fun index => ?_, names.external⟩
    have lengths : tensors.length = (pack.tensors side).length := names.count.trans count.symm
    cases named : tensors[index]? with
    | none =>
      have beyond := List.getElem?_eq_none_iff.mp named
      simp [named, List.getElem?_eq_none_iff.mpr (lengths ▸ beyond)]
    | some tensor =>
      have inside := (List.getElem?_eq_some_iff.mp named).1
      have there : (pack.tensors side)[index]? = some (pack.tensors side)[index] :=
        List.getElem?_eq_getElem (lengths ▸ inside)
      have held := names.descs index tensor named
      rw [bound index _ there, Option.some.injEq] at held
      simp [named, there, held]
  · rintro ⟨descs, external⟩
    have lengths : tensors.length = (pack.tensors side).length := by
      simpa using congrArg List.length descs
    refine ⟨lengths.trans count, fun index tensor named => ?_, external⟩
    have same := congrArg (fun list => list[index]?) descs
    simp only [List.getElem?_map, named, Option.map_some] at same
    obtain ⟨other, there, desc⟩ := Option.map_eq_some_iff.mp same.symm
    rw [bound index other there, desc]

/-- A runner accepts the calls that repeat the tensors of its setup in enough workspace. -/
theorem accepts_iff (call : Pack) :
    (∃ m, r.callMemory call = .ok m) ↔ call.Repeats pack ∧ call.Provides bytes := by
  simp only [callMemory_eq_ok, ← ready.total, ← callWorkspace_answers]
  constructor
  · rintro ⟨m, -, inputs, outputs, workspace⟩
    have names (side : Side) : r.graph.Names side (call.tensors side) := by
      cases side with
      | input => exact (Graph.callAddresses_ok inputs).2
      | output => exact (Graph.callAddresses_ok outputs).2
    have named (side : Side) := (ready.names_iff side (call.tensors side)).mp (names side)
    exact ⟨⟨fun side => (named side).1, fun side => (named side).2⟩, m.workspace, workspace⟩
  · rintro ⟨repeats, span, workspace⟩
    have names (side : Side) : r.graph.Names side (call.tensors side) :=
      (ready.names_iff side (call.tensors side)).mpr ⟨repeats.descs side, repeats.external side⟩
    obtain ⟨inputs, first⟩ := Graph.callAddresses_answers (names .input)
    obtain ⟨outputs, second⟩ := Graph.callAddresses_answers (names .output)
    exact ⟨⟨inputs, outputs, span⟩, ready.planned, first, second, workspace⟩

/-- A call that falls short of the workspace is told how much the setup asked for. -/
theorem callMemory_of_short {call : Pack} (repeats : call.Repeats pack)
    (short : ¬ call.Provides bytes) :
    r.callMemory call = .error (.workspace bytes (call.workspace.getD ⟨0, 0⟩).len) := by
  have names (side : Side) : r.graph.Names side (call.tensors side) :=
    (ready.names_iff side (call.tensors side)).mpr ⟨repeats.descs side, repeats.external side⟩
  obtain ⟨inputs, first⟩ := Graph.callAddresses_answers (names .input)
  obtain ⟨outputs, second⟩ := Graph.callAddresses_answers (names .output)
  simp only [Pack.tensors] at first second
  rw [← ready.total, ← callWorkspace_answers] at short
  have refused : r.callWorkspace call.workspace =
      .error (.workspace bytes (call.workspace.getD ⟨0, 0⟩).len) := by
    rw [← ready.total]
    simp only [callWorkspace] at short ⊢
    split
    · rename_i fits
      simp [fits] at short
    · rfl
  simp only [callMemory, ready.planned, if_true, first, second, refused]
  rfl

/-- An accepted call has one launch for each node, in order. -/
theorem launches_of_accepted {call : Pack} {m : CallMemory} (accepted : r.callMemory call = .ok m) :
    ∃ made, r.launches call = .ok made ∧ made.map Launch.node = r.graph.nodes.map Node.name := by
  have covered := ready.complete.covered accepted
  obtain ⟨made, answered⟩ := launches_answer accepted fun n member =>
    (covered.launchOf_answers member).imp fun _ launched => launched.1
  refine ⟨made, answered, ?_⟩
  have names : List.Forall₂ (· = ·) (r.graph.nodes.map Node.name) (made.map Launch.node) := by
    rw [List.forall₂_map_left_iff, List.forall₂_map_right_iff]
    refine (forall₂_launches accepted answered).imp fun n launch ⟨_, launched⟩ => ?_
    obtain ⟨_, _, -, -, rfl⟩ := launchOf_ok launched
    rfl
  rw [List.forall₂_eq_eq_eq] at names
  exact names.symm

end SetUpFor

/-- Every execution of the call is refused for the same reason, before it has launched anything. -/
def Refuses (r : Runner) (call : Pack) (refusal : Error) : Prop :=
  ∀ {State : Type} (registry : Registry State) (stream : State),
    r.execute registry stream call = .failed (r, stream) refusal

theorem refuses_of_callMemory {r : Runner} {call : Pack} {refusal : Error}
    (refused : r.callMemory call = .error refusal) : r.Refuses call refusal := by
  intro State registry stream
  simp only [execute, refused]

/-- What an execution does on a runner that was created for a graph and went through some calls. -/
structure Protocol (created : Runner) (calls : List Call) (call : Pack) : Prop where
  /-- A runner that executed is marked so. Nothing else about it changes, and nothing at all when
  the execution fails. -/
  keeps : ∀ {State : Type} (registry : Registry State) (stream : State),
    ((created.afterAll calls).execute registry stream call).state.1 =
      match ((created.afterAll calls).execute registry stream call).result with
      | .ok _ => { created.afterAll calls with state := .executed }
      | .error _ => created.afterAll calls
  /-- Unless the call repeats the tensors of a standing setup in enough workspace, it is refused. -/
  refused : (¬ ∃ pack bytes, created.StandsOn calls pack bytes ∧ call.Repeats pack ∧
      call.Provides bytes) → ∃ refusal, (created.afterAll calls).Refuses call refusal
  /-- Otherwise the nodes are launched in their order, up to the first launch that fails. -/
  serves : ∀ pack bytes, created.StandsOn calls pack bytes → call.Repeats pack →
    call.Provides bytes → ∃ made, (created.afterAll calls).launches call = .ok made ∧
      made.map Launch.node = created.graph.nodes.map Node.name ∧
      ∀ {State : Type} (registry : Registry State) (stream : State),
        let ran := (created.afterAll calls).execute registry stream call
        registry.Serves stream made ran.result ran.state.2 ∧
          (ran.result = .ok () ↔ ∃ taken, registry.Accepts stream made taken)
  /-- With the tensors of the setup and too little workspace, the call is told what it lacks. -/
  short : ∀ pack bytes, created.StandsOn calls pack bytes → call.Repeats pack →
    ¬ call.Provides bytes → (created.afterAll calls).Refuses call
      (.workspace bytes (call.workspace.getD ⟨0, 0⟩).len)

/-- Every execution follows the protocol, whatever setups, executions and updates came before. -/
theorem execute_protocol {g : Graph} {config : Config} {created : Runner}
    (accepted : Runner.new g config = .ok created) (calls : List Call) (call : Pack) :
    Protocol created calls call := by
  obtain ⟨rfl, formed, -⟩ := new_ok accepted
  have setUpFor {pack : Pack} {bytes : Nat}
      (stands : StandsOn ⟨g, config, .unbound, .empty⟩ calls pack bytes) :=
    setUpFor_of_standsOn formed stands
  refine ⟨fun registry stream => runner_execute _ call registry stream, ?_, ?_, ?_⟩
  · intro never
    cases called : (afterAll ⟨g, config, .unbound, .empty⟩ calls).callMemory call with
    | error refusal => exact ⟨refusal, refuses_of_callMemory called⟩
    | ok m =>
      obtain ⟨pack, bytes, stands⟩ := standsOn_of_planned rfl (callMemory_eq_ok.mp called).1
      exact absurd ⟨pack, bytes, stands, ((setUpFor stands).accepts_iff call).mp ⟨m, called⟩⟩ never
  · intro pack bytes stands repeats provides
    obtain ⟨m, called⟩ := ((setUpFor stands).accepts_iff call).mpr ⟨repeats, provides⟩
    obtain ⟨made, answered, names⟩ := (setUpFor stands).launches_of_accepted called
    refine ⟨made, answered, names.trans ?_, ?_⟩
    · have topology := (topology_afterAll ⟨g, config, .unbound, .empty⟩ calls).1
      have nodes := congrArg (fun t => t.nodes.map NodeTopology.name) topology
      simpa [Graph.topology, Function.comp_def, Node.topology] using nodes
    · intro State registry stream
      have served := execute_serves _ registry answered stream
      exact ⟨served, served.result_ok⟩
  · intro pack bytes stands repeats short
    exact refuses_of_callMemory ((setUpFor stands).callMemory_of_short repeats short)

/-- The chain is set up and launched with the same tensors. -/
theorem chain_served :
    let r := (⟨chain, .default, .unbound, .empty⟩ : Runner).afterAll [.setUp chainPack]
    let ran := r.execute (Registry.filling 7) (fun _ => 0) chainPack
    ∃ made, r.launches chainPack = .ok made ∧
      made.map Launch.node = ["first", "second", "third"] ∧
      (Registry.filling 7).Serves (fun _ => 0) made ran.result ran.state.2 := by
  have accepted : Runner.new chain .default = .ok ⟨chain, .default, .unbound, .empty⟩ := rfl
  have stands : StandsOn ⟨chain, .default, .unbound, .empty⟩ [.setUp chainPack] chainPack 512 :=
    ⟨[], [], rfl, by simp, rfl⟩
  have repeats : chainPack.Repeats chainPack := by
    refine ⟨fun _ => rfl, fun side tensor member => ?_⟩
    cases side with
    | input => exact ⟨4096, by simp_all [Pack.tensors, chainPack]⟩
    | output => exact ⟨8192, by simp_all [Pack.tensors, chainPack]⟩
  obtain ⟨made, answered, names, served⟩ :=
    (execute_protocol accepted [.setUp chainPack] chainPack).serves chainPack 512 stands repeats
      fun _ => ⟨⟨65536, 512⟩, rfl, by decide⟩
  exact ⟨made, answered, names, (served (Registry.filling 7) fun _ => 0).1⟩

end Runner

end OperatorGraph
