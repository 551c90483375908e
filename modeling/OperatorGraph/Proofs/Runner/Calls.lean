import OperatorGraph.Proofs.Runner.Completeness
import OperatorGraph.Proofs.Workspace.Geometry
import OperatorGraph.Runner.Execute

set_option autoImplicit false

namespace OperatorGraph

namespace Graph

theorem callAddress_eq_ok {g : Graph} {side : Side} {index : Nat} {tensor : Tensor}
    {ptr : Address} : g.callAddress side index tensor = .ok ptr ↔
      g.desc? (side.tensorId index) = some tensor.desc ∧ tensor.memory = .external ptr := by
  simp only [callAddress, Answer.bind_eq_ok, readDesc_eq_ok]
  constructor
  · rintro ⟨held, bound, answered⟩
    split at answered
    · simp at answered
    · rename_i same
      obtain rfl := Decidable.not_not.mp same
      split at answered
      · rename_i external
        obtain rfl := Answer.pure_eq_ok.mp answered
        exact ⟨bound, external⟩
      · simp at answered
  · rintro ⟨bound, external⟩
    exact ⟨tensor.desc, bound, by simp [external]⟩

/-- What a side of a call has to look like: one tensor for every slot, with the descriptor that the
slot holds, in memory of the caller. -/
structure Names (g : Graph) (side : Side) (tensors : List Tensor) : Prop where
  count : tensors.length = (g.slots side).length
  descs : ∀ (index : Nat) (tensor : Tensor), tensors[index]? = some tensor →
    g.desc? (side.tensorId index) = some tensor.desc
  external : ∀ tensor ∈ tensors, ∃ ptr, tensor.memory = .external ptr

theorem callAddresses_ok {g : Graph} {side : Side} {tensors : List Tensor} {table : List Address}
    (answered : g.callAddresses side tensors = .ok table) :
    table.length = (g.slots side).length ∧ g.Names side tensors := by
  simp only [callAddresses, Answer.bind_eq_ok] at answered
  obtain ⟨_, counted, answered⟩ := answered
  have count := checkCount_eq_ok.mp counted
  have length := Answer.length_mapM answered
  rw [List.length_zipIdx, count] at length
  have each (index : Nat) (tensor : Tensor) (named : tensors[index]? = some tensor) :
      ∃ ptr, g.desc? (side.tensorId index) = some tensor.desc ∧ tensor.memory = .external ptr := by
    have inside := (List.getElem?_eq_some_iff.mp named).1
    have answer := Answer.getElem?_mapM answered index
    rw [List.getElem?_zipIdx, named, List.getElem?_eq_getElem (by omega)] at answer
    simp only [Option.map_some, Option.some.injEq, Nat.zero_add] at answer
    exact ⟨_, callAddress_eq_ok.mp answer⟩
  refine ⟨length, count, fun index tensor named => ?_, fun tensor member => ?_⟩
  · obtain ⟨ptr, bound, -⟩ := each index tensor named
    exact bound
  · obtain ⟨index, named⟩ := List.getElem?_of_mem member
    obtain ⟨ptr, -, external⟩ := each index tensor named
    exact ⟨ptr, external⟩

theorem callAddresses_answers {g : Graph} {side : Side} {tensors : List Tensor}
    (names : g.Names side tensors) : ∃ table, g.callAddresses side tensors = .ok table := by
  obtain ⟨table, answered⟩ : ∃ table, tensors.zipIdx.mapM
      (fun entry => g.callAddress side entry.2 entry.1) = .ok table := by
    apply Answer.mapM_answers
    rintro ⟨tensor, index⟩ member
    have named : tensors[index]? = some tensor := List.mk_mem_zipIdx_iff_getElem?.mp member
    obtain ⟨ptr, external⟩ := names.external tensor (List.mem_of_getElem? named)
    exact ⟨ptr, callAddress_eq_ok.mpr ⟨names.descs index tensor named, external⟩⟩
  exact ⟨table, Answer.bind_eq_ok.mpr ⟨(), checkCount_eq_ok.mpr names.count, answered⟩⟩

/-- A side that is refused does not put the graph at fault, as long as its slots are filled. -/
theorem refusal_of_callAddresses {g : Graph} {side : Side} {tensors : List Tensor}
    {refusal : Error}
    (bound : ∀ index < (g.slots side).length, ∃ desc, g.desc? (side.tensorId index) = some desc)
    (failed : g.callAddresses side tensors = .error refusal) : refusal.blamesGraph = false := by
  simp only [callAddresses, Answer.bind_eq_error] at failed
  rcases failed with counting | ⟨_, counted, naming⟩
  · exact refusal_of_checkCount counting
  · obtain ⟨⟨tensor, index⟩, member, refused⟩ := Answer.of_mapM_eq_error naming
    have named : tensors[index]? = some tensor := List.mk_mem_zipIdx_iff_getElem?.mp member
    have inside := (List.getElem?_eq_some_iff.mp named).1
    obtain ⟨desc, present⟩ := bound index (checkCount_eq_ok.mp counted ▸ inside)
    simp only [callAddress, Answer.bind_eq_error, readDesc_eq_ok.mpr present] at refused
    rcases refused with unread | ⟨held, -, differing⟩
    · simp at unread
    · split at differing
      · rw [← Except.error.inj differing]
        rfl
      · split at differing
        · simp [pure, Except.pure] at differing
        · rw [← Except.error.inj differing]
          rfl

end Graph

namespace Runner

theorem callMemory_of_unplanned {r : Runner} (unplanned : r.state.isPlanned = false) (call : Pack) :
    r.callMemory call = .error r.notPlanned := by
  simp only [callMemory, unplanned, Bool.false_eq_true, if_false]

theorem callMemory_eq_ok {r : Runner} {call : Pack} {m : CallMemory} :
    r.callMemory call = .ok m ↔ r.state.isPlanned ∧
      r.graph.callAddresses .input call.inputs = .ok m.inputs ∧
      r.graph.callAddresses .output call.outputs = .ok m.outputs ∧
      r.callWorkspace call.workspace = .ok m.workspace := by
  unfold callMemory
  split
  · rename_i planned
    simp only [Answer.bind_eq_ok, Answer.pure_eq_ok, planned, true_and]
    constructor
    · rintro ⟨inputs, first, outputs, second, workspace, third, rfl⟩
      exact ⟨first, second, third⟩
    · rintro ⟨first, second, third⟩
      exact ⟨_, first, _, second, _, third, rfl⟩
  · rename_i unplanned
    simp [unplanned]

theorem callWorkspace_eq_ok {r : Runner} {workspace : Option Span} {span : Span} :
    r.callWorkspace workspace = .ok span ↔
      span = workspace.getD ⟨0, 0⟩ ∧ r.plan.totalBytes ≤ span.len := by
  simp only [callWorkspace]
  constructor
  · intro answered
    split at answered
    · rename_i fits
      obtain rfl := Except.ok.inj answered
      exact ⟨rfl, fits⟩
    · simp at answered
  · rintro ⟨rfl, fits⟩
    simp [fits]

theorem workspace_of_accepted {r : Runner} {call : Pack} {m : CallMemory}
    (accepted : r.callMemory call = .ok m) : r.plan.totalBytes ≤ m.workspace.len :=
  (callWorkspace_eq_ok.mp (callMemory_eq_ok.mp accepted).2.2.2).2

theorem entry_eq_ok {α : Type} {table : List α} {index : Nat} {a : α} :
    entry table index = .ok a ↔ table[index]? = some a := by
  cases found : table[index]? <;> simp [entry, found]

theorem entry_answers {α : Type} {table : List α} {index : Nat} (inside : index < table.length) :
    ∃ a, entry table index = .ok a :=
  ⟨_, entry_eq_ok.mpr (List.getElem?_eq_getElem inside)⟩

/-- The tables of a call have an entry for every tensor of the graph, and every tensor that a node
may write has a descriptor. -/
structure Covered (r : Runner) (m : CallMemory) : Prop where
  formed : r.graph.topology.WellFormed
  inputs : m.inputs.length = r.graph.inputs.length
  outputs : m.outputs.length = r.graph.outputs.length
  offsets : r.plan.offsets.length = r.graph.internals.length
  bound : ∀ id, r.graph.topology.Has id → id.isInput = false →
    ∃ desc, r.graph.desc? id = some desc

namespace Covered

variable {r : Runner} {m : CallMemory} (covered : r.Covered m)
include covered

theorem address_answers {id : TensorId} (has : r.graph.topology.Has id) :
    ∃ ptr, r.address m id = .ok ptr := by
  cases id with
  | input index =>
    have inside : index < r.graph.inputs.length := by
      simpa only [Topology.Has, Graph.topology, List.length_map] using has
    exact entry_answers (by rwa [covered.inputs])
  | output index =>
    have inside : index < r.graph.outputs.length := by
      simpa only [Topology.Has, Graph.topology, List.length_map] using has
    exact entry_answers (by rwa [covered.outputs])
  | internal index =>
    have inside : index < r.graph.internals.length := by
      simpa only [Topology.Has, Graph.topology, List.length_map] using has
    obtain ⟨offset, planned⟩ : ∃ offset, entry r.plan.offsets index = .ok offset :=
      entry_answers (by rwa [covered.offsets])
    exact ⟨m.workspace.ptr.offset offset, by simp [address, planned]⟩

/-- Every node has a launch, with a binding for each of its resolved inputs and its outputs. -/
theorem launchOf_answers {n : Node} (member : n ∈ r.graph.nodes) :
    ∃ launch, r.launchOf m n = .ok launch ∧
      launch.inputs.length = (n.inputs.zip n.resolvedInputs).length ∧
      launch.outputs.length = n.outputs.length := by
  have inTopology : n.topology ∈ r.graph.topology.nodes := List.mem_map_of_mem member
  have bound (id : TensorId) (has : r.graph.topology.Has id) (desc : TensorDesc) :
      ∃ b, r.binding m id desc = .ok b := by
    obtain ⟨ptr, found⟩ := covered.address_answers has
    exact ⟨⟨desc, ptr, desc.byteSize?.getD 0⟩, by simp [binding, found]⟩
  obtain ⟨inputs, first⟩ : ∃ inputs, (n.inputs.zip n.resolvedInputs).mapM
      (fun read => r.binding m read.1 read.2) = .ok inputs := by
    apply Answer.mapM_answers
    rintro ⟨id, desc⟩ pair
    exact bound id (covered.formed.readsExist _ inTopology id (List.of_mem_zip pair).1) desc
  obtain ⟨outputs, second⟩ : ∃ outputs, (n.outputs.mapM fun id => do
      r.binding m id (← r.graph.readDesc id)) = .ok outputs := by
    apply Answer.mapM_answers
    intro id written
    obtain ⟨has, notInput⟩ := covered.formed.writesExist _ inTopology id written
    obtain ⟨desc, present⟩ := covered.bound id has notInput
    obtain ⟨b, answer⟩ := bound id has desc
    exact ⟨b, Answer.bind_eq_ok.mpr ⟨desc, Graph.readDesc_eq_ok.mpr present, answer⟩⟩
  refine ⟨⟨n.name, n.effective, inputs, outputs, r.scratchOf m n⟩, ?_, Answer.length_mapM first,
    Answer.length_mapM second⟩
  simp only [launchOf, first, second, Answer.bind_eq_ok, Answer.pure_eq_ok]
  exact ⟨inputs, rfl, outputs, rfl, rfl⟩

end Covered

namespace Complete

variable {r : Runner} (complete : r.Complete)
include complete

theorem bound_side (side : Side) (index : Nat) (inside : index < (r.graph.slots side).length) :
    ∃ desc, r.graph.desc? (side.tensorId index) = some desc :=
  complete.bound _ ((r.graph.has_tensorId side index).mpr inside)

theorem covered {call : Pack} {m : CallMemory} (accepted : r.callMemory call = .ok m) :
    r.Covered m := by
  obtain ⟨-, inputs, outputs, -⟩ := callMemory_eq_ok.mp accepted
  obtain ⟨sizes, sized, plan⟩ := complete.planned
  refine ⟨complete.formed, (Graph.callAddresses_ok inputs).1, (Graph.callAddresses_ok outputs).1,
    ?_, fun id has _ => complete.bound id has⟩
  have count := Answer.length_mapM sized
  rw [plan, WorkspacePlan.build, WorkspacePlan.length_offsetsFor, Graph.lifetimes, List.length_map,
    List.length_zipIdx, count]

/-- A complete runner finds fault with a call at most, not with its graph. -/
theorem refusal_of_callMemory {call : Pack} {refusal : Error}
    (failed : r.callMemory call = .error refusal) : refusal.blamesGraph = false := by
  unfold callMemory at failed
  split at failed
  · simp only [Answer.bind_eq_error] at failed
    rcases failed with inputs | ⟨_, -, outputs | ⟨_, -, workspace | ⟨_, -, answered⟩⟩⟩
    · exact Graph.refusal_of_callAddresses (complete.bound_side .input) inputs
    · exact Graph.refusal_of_callAddresses (complete.bound_side .output) outputs
    · simp only [callWorkspace] at workspace
      split at workspace
      · simp at workspace
      · rw [← Except.error.inj workspace]
        rfl
    · simp [pure, Except.pure] at answered
  · rw [← Except.error.inj failed]
    rfl

end Complete

end Runner

end OperatorGraph
