import OperatorGraph.Proofs.Runner.Setup

set_option autoImplicit false

namespace OperatorGraph

/-- The tensors of a call for one side of a graph. -/
def Pack.tensors (pack : Pack) : Side → List Tensor
  | .input => pack.inputs
  | .output => pack.outputs

namespace Graph

theorem slot?_tensorId (g : Graph) (side : Side) (index : Nat) :
    g.slot? (side.tensorId index) = (g.slots side)[index]? := by
  cases side <;> rfl

theorem has_tensorId (g : Graph) (side : Side) (index : Nat) :
    g.topology.Has (side.tensorId index) ↔ index < (g.slots side).length := by
  rw [← slot?_isSome_iff, slot?_tensorId, isSome_getElem?]

theorem length_slots_of_topology {g h : Graph} (same : g.topology = h.topology) (side : Side) :
    (g.slots side).length = (h.slots side).length := by
  have inputs := congrArg (fun t => t.inputs.length) same
  have outputs := congrArg (fun t => t.outputs.length) same
  simp only [topology, List.length_map] at inputs outputs
  cases side with
  | input => exact inputs
  | output => exact outputs

theorem desc?_fill_self {g : Graph} {id : TensorId} (present : (g.slot? id).isSome)
    (tensor : Tensor) : (g.fill id tensor).desc? id = some tensor.desc := by
  obtain ⟨slot, found⟩ := Option.isSome_iff_exists.mp present
  cases id <;>
    · simp only [slot?] at found
      simp [desc?, tensor?, slot?, fill, modifySlot, found]

theorem checkCount_eq_ok {g : Graph} {side : Side} {tensors : List Tensor} :
    g.checkCount side tensors = .ok () ↔ tensors.length = (g.slots side).length := by
  unfold checkCount
  split <;> simp_all

theorem slot?_bindFrom {side : Side} {index : Nat} {id : TensorId}
    (elsewhere : ∀ later, index ≤ later → side.tensorId later ≠ id) (tensors : List Tensor)
    (g : Graph) : (bindFrom side g index tensors).1.slot? id = g.slot? id := by
  induction tensors generalizing g index with
  | nil => rfl
  | cons tensor rest ih =>
    by_cases overflows : tensor.desc.overflows
    · simp only [bindFrom, overflows, if_true]
    · simp only [bindFrom, overflows, Bool.false_eq_true, if_false]
      rw [ih fun later after => elsewhere later (by omega),
        slot?_fill_of_ne _ (elsewhere index (Nat.le_refl index))]

theorem tensorId_injective (side : Side) {i j : Nat} (same : side.tensorId i = side.tensorId j) :
    i = j := by
  cases side with
  | input => exact TensorId.input.inj same
  | output => exact TensorId.output.inj same

theorem desc?_bindFrom {side : Side} {tensors : List Tensor} {g : Graph} {index : Nat}
    (success : (bindFrom side g index tensors).2 = .ok ())
    (room : index + tensors.length ≤ (g.slots side).length) {k : Nat} {tensor : Tensor}
    (bound : tensors[k]? = some tensor) :
    (bindFrom side g index tensors).1.desc? (side.tensorId (index + k)) = some tensor.desc := by
  induction tensors generalizing g index k with
  | nil => simp at bound
  | cons first rest ih =>
    by_cases overflows : first.desc.overflows
    · simp [bindFrom, overflows] at success
    simp only [bindFrom, overflows, Bool.false_eq_true, if_false] at success ⊢
    simp only [List.length_cons] at room
    cases k with
    | zero =>
      obtain rfl : first = tensor := by simpa using bound
      have present : (g.slot? (side.tensorId index)).isSome := by
        rw [slot?_isSome_iff, has_tensorId]
        omega
      have elsewhere (later : Nat) (after : index + 1 ≤ later) :
          side.tensorId later ≠ side.tensorId index := by
        intro same
        have equal := tensorId_injective side same
        omega
      simp only [Nat.add_zero, desc?, tensor?, slot?_bindFrom elsewhere]
      exact desc?_fill_self present first
    | succ k =>
      rw [show index + (k + 1) = index + 1 + k by omega]
      refine ih success ?_ (by simpa using bound)
      have same := (blank_eq_iff.mp (g.blank_fill (side.tensorId index) first)).1
      rw [length_slots_of_topology same]
      omega

theorem bindSide_ok {g next : Graph} {side : Side} {tensors : List Tensor}
    (bound : g.bindSide side tensors = (next, .ok ())) :
    tensors.length = (g.slots side).length ∧ bindFrom side g 0 tensors = (next, .ok ()) := by
  unfold bindSide at bound
  cases counted : g.checkCount side tensors with
  | error refusal => simp [counted] at bound
  | ok _ =>
    rw [counted] at bound
    exact ⟨checkCount_eq_ok.mp counted, bound⟩

theorem bind_ok {g : Graph} {pack : Pack} (success : (g.bind pack).2 = .ok ()) :
    ∃ next, g.bindSide .input pack.inputs = (next, .ok ()) ∧
      next.bindSide .output pack.outputs = ((g.bind pack).1, .ok ()) := by
  unfold Graph.bind at success ⊢
  cases inputs : g.bindSide .input pack.inputs with
  | mk next result =>
    cases result with
    | error refusal => simp [inputs] at success
    | ok _ =>
      simp only [inputs] at success ⊢
      exact ⟨next, rfl, Prod.ext rfl success⟩

section

variable {g : Graph} {pack : Pack} (success : (g.bind pack).2 = .ok ())
include success

theorem count_bind (side : Side) : (pack.tensors side).length = (g.slots side).length := by
  obtain ⟨next, inputs, outputs⟩ := bind_ok success
  cases side with
  | input => exact (bindSide_ok inputs).1
  | output =>
    have blank := blank_bindSide g .input pack.inputs
    rw [inputs] at blank
    rw [← length_slots_of_topology (blank_eq_iff.mp blank).1]
    exact (bindSide_ok outputs).1

theorem desc?_bind (side : Side) {index : Nat} {tensor : Tensor}
    (bound : (pack.tensors side)[index]? = some tensor) :
    (g.bind pack).1.desc? (side.tensorId index) = some tensor.desc := by
  obtain ⟨next, inputs, outputs⟩ := bind_ok success
  obtain ⟨inputCount, inputs⟩ := bindSide_ok inputs
  obtain ⟨outputCount, outputs⟩ := bindSide_ok outputs
  cases side with
  | input =>
    have apart (later : Nat) (_ : 0 ≤ later) : Side.output.tensorId later ≠ .input index := by
      simp [Side.tensorId]
    have kept := slot?_bindFrom apart pack.outputs next
    have held := desc?_bindFrom (congrArg Prod.snd inputs) (by omega) bound
    simp only [inputs, Nat.zero_add] at held
    simp only [outputs] at kept
    simpa only [desc?, tensor?, Side.tensorId, kept] using held
  | output =>
    have held := desc?_bindFrom (congrArg Prod.snd outputs) (by omega) bound
    simpa only [outputs, Nat.zero_add] using held

end

theorem desc?_placeFrom {node : String} {family : Family} {index : Nat} {d : TensorDesc}
    (placed : List (TensorId × TensorDesc)) {g : Graph} (position : Nat)
    (bound : g.desc? (.output index) = some d) :
    (placeFrom node family g position placed).1.desc? (.output index) = some d := by
  induction placed generalizing g position with
  | nil => exact bound
  | cons entry rest ih =>
    obtain ⟨id, desc⟩ := entry
    simp only [placeFrom]
    split
    · rename_i unbound
      have different : id ≠ .output index := by
        rintro rfl
        simp [boundOutput?, bound] at unbound
      refine ih _ ?_
      simpa only [desc?, tensor?, slot?_fill_of_ne _ different] using bound
    · split
      · exact ih _ bound
      · exact bound

theorem desc?_resolve {checkViews : Bool} {g : Graph} {index : Nat} {d : TensorDesc}
    (bound : g.desc? (.output index) = some d) :
    (resolve checkViews g).state.desc? (.output index) = some d := by
  refine Outcome.forEach_keeps (fun next => next.desc? (.output index) = some d) _ ?_ g bound
  intro next position _ bound
  rcases state_resolveAt checkViews next position with kept | ⟨n, r, placed, -, rfl, kept | kept⟩
  · rwa [kept]
  · rw [kept]
    exact desc?_placeFrom _ 0 bound
  · rw [kept]
    simpa only [desc?, tensor?, slot?_settle] using desc?_placeFrom _ 0 bound

theorem slot?_resolve_input {checkViews : Bool} {g : Graph} (formed : g.topology.WellFormed)
    (success : (resolve checkViews g).result = .ok ()) (index : Nat) :
    (resolve checkViews g).state.slot? (.input index) = g.slot? (.input index) := by
  refine slot?_resolve_of_later success (Nat.zero_le _) (.input index) ?_
  intro position n _ found written
  have member : n.topology ∈ g.topology.nodes := List.mem_map_of_mem (List.mem_of_getElem? found)
  simpa [TensorId.isInput] using (formed.writesExist n.topology member _ written).2

end Graph

namespace Runner

section

variable {r : Runner} {pack : Pack} {bytes : Nat} (success : (r.setup pack).result = .ok bytes)
include success

theorem desc?_setup {index : Nat} {x : Tensor} (bound : pack.outputs[index]? = some x) :
    (r.setup pack).state.graph.desc? (.output index) = some x.desc := by
  obtain ⟨g, binding, -, -, descs⟩ := resolved_setup success
  have held := Graph.desc?_bind (congrArg Prod.snd binding) .output bound
  rw [binding] at held
  rw [descs]
  exact Graph.desc?_resolve held

/-- A setup that succeeds was given a tensor for every slot of the caller, and its descriptor is
what the slot holds. -/
theorem bound_setup (formed : r.graph.topology.WellFormed) (side : Side) :
    (pack.tensors side).length = ((r.setup pack).state.graph.slots side).length ∧
      ∀ (index : Nat) (tensor : Tensor), (pack.tensors side)[index]? = some tensor →
        (r.setup pack).state.graph.desc? (side.tensorId index) = some tensor.desc := by
  obtain ⟨g, binding, resolution, -, descs⟩ := resolved_setup success
  have bound := congrArg Prod.snd binding
  have topology := Graph.topology_of_bind binding
  refine ⟨?_, fun index tensor named => ?_⟩
  · have blank := Graph.blank_eq_iff.mp (r.blank_setup pack).1
    have cleared := Graph.blank_eq_iff.mp r.graph.blank_clear
    rw [Graph.count_bind bound, Graph.length_slots_of_topology (cleared.1.trans blank.1.symm)]
  · cases side with
    | output => exact desc?_setup success named
    | input =>
      have held := Graph.desc?_bind bound .input named
      rw [binding] at held
      rw [descs, ← held]
      simp only [Graph.desc?, Graph.tensor?, Side.tensorId,
        Graph.slot?_resolve_input (topology ▸ formed) resolution]

end

end Runner

end OperatorGraph
