import OperatorGraph.Proofs.Graph.Topology
import OperatorGraph.Proofs.Graph.Validation

set_option autoImplicit false

namespace OperatorGraph

namespace Topology

/-- The topology has a slot for a reference. -/
def Has (t : Topology) : TensorId → Prop
  | .input index => index < t.inputs.length
  | .output index => index < t.outputs.length
  | .internal index => index < t.internals.length

/-- The node at a position produces a tensor. -/
def Produces (t : Topology) (position : Nat) (id : TensorId) : Prop :=
  ∃ n, t.nodes[position]? = some n ∧ id ∈ n.outputs

structure WellFormed (t : Topology) : Prop where
  distinctNames : (t.nodes.map NodeTopology.name).Nodup
  viewsOnInputs : ∀ n ∈ t.nodes, ∀ index view, n.views[index]? = some (some view) →
    index < n.inputs.length
  readsExist : ∀ n ∈ t.nodes, ∀ id ∈ n.inputs, t.Has id
  readsEarlier : ∀ position n, t.nodes[position]? = some n → ∀ id ∈ n.inputs,
    id.isInput = false → ∃ earlier < position, t.Produces earlier id
  writesExist : ∀ n ∈ t.nodes, ∀ id ∈ n.outputs, t.Has id ∧ id.isInput = false
  producedOnce : (t.nodes.flatMap NodeTopology.outputs).Nodup
  allProduced : ∀ id, t.Has id → id.isInput = false → ∃ position, t.Produces position id

/-- No two nodes produce one tensor. -/
theorem WellFormed.producer_unique {t : Topology} (formed : t.WellFormed) {p q : Nat}
    {id : TensorId} (first : t.Produces p id) (second : t.Produces q id) : p = q := by
  obtain ⟨n, atFirst, writes⟩ := first
  obtain ⟨m, atSecond, alsoWrites⟩ := second
  have apart := (List.nodup_flatMap.mp formed.producedOnce).2
  rw [List.pairwise_iff_getElem] at apart
  obtain ⟨inside, rfl⟩ := List.getElem?_eq_some_iff.mp atFirst
  obtain ⟨inside', rfl⟩ := List.getElem?_eq_some_iff.mp atSecond
  by_contra different
  rcases Nat.lt_or_gt_of_ne different with before | after
  · exact apart p q inside inside' before writes alsoWrites
  · exact apart q p inside' inside after alsoWrites writes

theorem WellFormed.outputs_nodup {t : Topology} (formed : t.WellFormed) {n : NodeTopology}
    (member : n ∈ t.nodes) : n.outputs.Nodup :=
  (List.nodup_flatMap.mp formed.producedOnce).1 n member

end Topology

namespace Graph

theorem slot?_isSome_iff (g : Graph) (id : TensorId) :
    (g.slot? id).isSome ↔ g.topology.Has id := by
  cases id <;> simp [slot?, Topology.Has, topology]

theorem topology_node (g : Graph) (position : Nat) :
    g.topology.nodes[position]? = g.nodes[position]?.map Node.topology := by
  simp only [topology, List.getElem?_map]

theorem topology_of_found {g : Graph} {position : Nat} {n : Node}
    (found : g.nodes[position]? = some n) :
    g.topology.nodes[position]? = some n.topology := by
  rw [topology_node, found, Option.map_some]

theorem produces_iff {g : Graph} {position : Nat} {id : TensorId} :
    g.topology.Produces position id ↔ ∃ n, g.nodes[position]? = some n ∧ id ∈ n.outputs := by
  constructor
  · rintro ⟨_, atPosition, written⟩
    rw [topology_node] at atPosition
    obtain ⟨n, found, rfl⟩ := Option.map_eq_some_iff.mp atPosition
    exact ⟨n, found, written⟩
  · rintro ⟨n, found, written⟩
    exact ⟨n.topology, topology_of_found found, written⟩

theorem produces_of_writes {g : Graph} {position : Nat} {n : Node} {id : TensorId}
    (found : g.nodes[position]? = some n) (written : id ∈ n.outputs) :
    g.topology.Produces position id :=
  produces_iff.mpr ⟨n, found, written⟩

theorem has_of_mentioned {g : Graph} (formed : g.topology.WellFormed) {n : Node}
    (member : n ∈ g.nodes) {id : TensorId} (mentioned : id ∈ n.inputs ++ n.outputs) :
    g.topology.Has id := by
  have inTopology : n.topology ∈ g.topology.nodes := List.mem_map_of_mem member
  rcases List.mem_append.mp mentioned with read | written
  · exact formed.readsExist _ inTopology id read
  · exact (formed.writesExist _ inTopology id written).1

/-- The topology of a well-formed graph is well formed. -/
theorem WellFormed.topology {g : Graph} (formed : g.WellFormed) : g.topology.WellFormed := by
  have node (t : NodeTopology) (member : t ∈ g.topology.nodes) : ∃ n ∈ g.nodes, n.topology = t :=
    List.mem_map.mp member
  have flat : g.topology.nodes.flatMap NodeTopology.outputs = g.nodes.flatMap Node.outputs := by
    simp only [Graph.topology, List.flatMap_map]
    rfl
  refine ⟨?_, ?_, ?_, ?_, ?_, ?_, ?_⟩
  · simp only [Graph.topology, List.map_map]
    exact formed.distinctNames
  · intro t member index view viewed
    obtain ⟨n, inside, rfl⟩ := node t member
    refine (formed.shaped n inside).viewsOnInputs index ?_
    have read : n.view? index = some view := congrArg Option.join viewed
    rw [read, Option.isSome_some]
  · intro t member id read
    obtain ⟨n, inside, rfl⟩ := node t member
    exact (slot?_isSome_iff g id).mp (formed.idsExist n inside id (List.mem_append_left _ read))
  · intro position t found id read notInput
    rw [topology_node] at found
    obtain ⟨n, inside, rfl⟩ := Option.map_eq_some_iff.mp found
    rcases formed.readsEarlier position n inside id read with input | earlier
    · simp [notInput] at input
    · obtain ⟨q, before, m, writer, written⟩ := earlier
      exact ⟨q, before, produces_of_writes writer written⟩
  · intro t member id written
    obtain ⟨n, inside, rfl⟩ := node t member
    rw [← slot?_isSome_iff]
    exact formed.writes inside written
  · rw [flat]
    exact formed.nodup_outputs
  · intro id has notInput
    have listed := mem_outputIds_append_internalIds.mpr ⟨(slot?_isSome_iff g id).mpr has, notInput⟩
    obtain ⟨n, inside, written⟩ := List.mem_flatMap.mp (formed.mem_outputs listed)
    obtain ⟨position, found⟩ := List.getElem?_of_mem inside
    exact ⟨position, produces_of_writes found written⟩

theorem wellFormed_of_check {g : Graph} (passed : g.check = .ok ()) : g.topology.WellFormed :=
  (check_eq_ok_iff_wellFormed.mp passed).topology

end Graph

end OperatorGraph
