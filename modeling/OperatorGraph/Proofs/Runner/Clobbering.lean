import OperatorGraph.Proofs.Runner.History
import OperatorGraph.Proofs.Runner.Ranges

set_option autoImplicit false

namespace OperatorGraph

/-- The ranges that a launch is handed for writing. -/
def Launch.writable (launch : Launch) : List Span :=
  launch.outputs.map Binding.span ++ launch.scratch.toList

/-- A launch changes no byte outside the ranges that it may write. What the state shows of device
memory is a parameter. -/
def Registry.Confined {State : Type} (registry : Registry State)
    (memory : State → Address → UInt8) : Prop :=
  ∀ launch s x, (∀ span ∈ launch.writable, ¬ span.Covers x) →
    memory (registry.launch launch s).state x = memory s x

/-- A registry that fills all it may write with one byte. -/
def Registry.filling (byte : UInt8) : Registry (Address → UInt8) where
  launch launch memory :=
    .done (fun x => if ∃ span ∈ launch.writable, span.Covers x then byte else memory x) ()

theorem Registry.filling_confined (byte : UInt8) : (Registry.filling byte).Confined id := by
  intro launch memory x outside
  have uncovered : ¬ ∃ span ∈ launch.writable, span.Covers x := by
    rintro ⟨span, writable, covered⟩
    exact outside span writable covered
  exact if_neg uncovered

namespace Runner

/-- The caller's output tensors lie outside the workspace of the call. -/
def OutputsOutside (r : Runner) (m : CallMemory) : Prop :=
  ∀ (index : Nat) (ptr : Address) (desc : TensorDesc), m.outputs[index]? = some ptr →
    r.graph.desc? (.output index) = some desc →
    Span.Disjoint ⟨ptr, desc.byteSize?.getD 0⟩ m.workspace

section

variable {State : Type} (r : Runner) (registry : Registry State) (m : CallMemory) (stream : State)

/-- The launches of the first nodes. -/
def launchFirst (count : Nat) : Outcome State Error Unit :=
  Outcome.forEach (r.launchNode registry m) stream (r.graph.nodes.take count)

theorem launchAll_eq_launchFirst :
    r.launchAll registry m stream = r.launchFirst registry m stream r.graph.nodes.length := by
  rw [launchFirst, List.take_length, launchAll]

/-- An execution ends where the launches of all nodes do. -/
theorem execute_launchFirst {call : Pack} (called : r.callMemory call = .ok m) :
    (r.execute registry stream call).state.2 =
        (r.launchFirst registry m stream r.graph.nodes.length).state ∧
      (r.execute registry stream call).result =
        (r.launchFirst registry m stream r.graph.nodes.length).result := by
  rw [← launchAll_eq_launchFirst]
  simp only [execute, called, Outcome.within]
  cases ran : (r.launchAll registry m stream).result with
  | error refusal => rw [Outcome.andThen_of_error _ rfl]; exact ⟨rfl, rfl⟩
  | ok _ => rw [Outcome.andThen_of_ok _ rfl]; exact ⟨rfl, rfl⟩

/-- The launch of a node runs on what the launches before it left. -/
theorem launchFirst_succ {position : Nat} {n : Node} (found : r.graph.nodes[position]? = some n) :
    r.launchFirst registry m stream (position + 1) =
      (r.launchFirst registry m stream position).andThen fun next _ =>
        r.launchNode registry m next n := by
  rw [launchFirst, List.take_add_one, found, Option.toList_some, Outcome.forEach_append]
  simp only [Outcome.forEach_singleton, launchFirst]

end

theorem address_internal {r : Runner} {m : CallMemory} {index : Nat} {ptr : Address}
    (found : r.address m (.internal index) = .ok ptr) : ptr = (r.internalSpan m index).ptr := by
  simp only [address, Answer.bind_eq_ok, entry_eq_ok, Answer.pure_eq_ok] at found
  obtain ⟨offset, planned, rfl⟩ := found
  simp only [internalSpan, planned, Option.getD_some]

theorem binding_eq_ok {r : Runner} {m : CallMemory} {id : TensorId} {desc : TensorDesc}
    {b : Binding} (bound : r.binding m id desc = .ok b) :
    b.desc = desc ∧ r.address m id = .ok b.ptr ∧ b.bytes = desc.byteSize?.getD 0 := by
  simp only [binding, Answer.bind_eq_ok, Answer.pure_eq_ok] at bound
  obtain ⟨ptr, found, rfl⟩ := bound
  exact ⟨rfl, found, rfl⟩

section

variable {r : Runner} {m : CallMemory} {n : Node} {launch : Launch}
  (launched : r.launchOf m n = .ok launch)
include launched

theorem launchOf_ok : ∃ inputs outputs,
    (n.inputs.zip n.resolvedInputs).mapM (fun (id, desc) => r.binding m id desc) = .ok inputs ∧
    (n.outputs.mapM fun id => do r.binding m id (← r.graph.readDesc id)) = .ok outputs ∧
    launch = ⟨n.name, n.effective, inputs, outputs, r.scratchOf m n⟩ := by
  simp only [launchOf, Answer.bind_eq_ok, Answer.pure_eq_ok] at launched
  obtain ⟨inputs, first, outputs, second, rfl⟩ := launched
  exact ⟨inputs, outputs, first, second, rfl⟩

theorem launch_param : launch.param = n.effective := by
  obtain ⟨inputs, outputs, -, -, rfl⟩ := launchOf_ok launched
  rfl

theorem launch_scratch : launch.scratch = r.scratchOf m n := by
  obtain ⟨inputs, outputs, -, -, rfl⟩ := launchOf_ok launched
  rfl

theorem launch_input {index : Nat} {b : Binding} (found : launch.inputs[index]? = some b) :
    ∃ id, n.inputs[index]? = some id ∧ n.resolvedInputs[index]? = some b.desc ∧
      r.address m id = .ok b.ptr ∧ b.bytes = b.desc.byteSize?.getD 0 := by
  obtain ⟨inputs, outputs, answered, -, rfl⟩ := launchOf_ok launched
  have answer := Answer.getElem?_mapM answered index
  rw [found, Option.map_some] at answer
  obtain ⟨⟨id, desc⟩, pair, bound⟩ := Option.map_eq_some_iff.mp answer
  obtain ⟨atId, atDesc⟩ := List.getElem?_zip_eq_some.mp pair
  obtain ⟨same, address, bytes⟩ := binding_eq_ok bound
  subst same
  exact ⟨id, atId, atDesc, address, bytes⟩

theorem launch_output {index : Nat} {b : Binding} (found : launch.outputs[index]? = some b) :
    ∃ id, n.outputs[index]? = some id ∧ r.graph.desc? id = some b.desc ∧
      r.address m id = .ok b.ptr ∧ b.bytes = b.desc.byteSize?.getD 0 := by
  obtain ⟨inputs, outputs, -, answered, rfl⟩ := launchOf_ok launched
  have answer := Answer.getElem?_mapM answered index
  rw [found, Option.map_some] at answer
  obtain ⟨id, atId, bound⟩ := Option.map_eq_some_iff.mp answer
  simp only [Answer.bind_eq_ok] at bound
  obtain ⟨desc, read, bound⟩ := bound
  obtain ⟨same, address, bytes⟩ := binding_eq_ok bound
  subst same
  exact ⟨id, atId, Graph.readDesc_eq_ok.mp read, address, bytes⟩

theorem span_of_internal_output {i index : Nat} {b : Binding}
    (atId : n.outputs[i]? = some (.internal index)) (found : launch.outputs[i]? = some b) :
    b.span = r.internalSpan m index := by
  obtain ⟨id, alsoAtId, desc, address, bytes⟩ := launch_output launched found
  obtain rfl : id = .internal index := by
    rw [atId] at alsoAtId
    exact (Option.some.inj alsoAtId).symm
  rw [Binding.span, address_internal address, bytes]
  simp only [internalSpan, desc, Option.bind_some]

end

/-- A launch has a binding for every tensor that its node names, and reads the inputs as the node
was resolved. -/
theorem lengths_of_launch {r : Runner} {m : CallMemory} {n : Node} {launch : Launch}
    (resolved : n.resolvedInputs.length = n.inputs.length)
    (launched : r.launchOf m n = .ok launch) :
    launch.inputs.map Binding.desc = n.resolvedInputs ∧
      launch.inputs.length = n.inputs.length ∧ launch.outputs.length = n.outputs.length := by
  obtain ⟨inputs, outputs, first, second, same⟩ := launchOf_ok launched
  have count : launch.inputs.length = n.inputs.length := by
    rw [same, Answer.length_mapM first, List.length_zip, resolved, Nat.min_self]
  refine ⟨List.ext_getElem? fun index => ?_, count, by rw [same, Answer.length_mapM second]⟩
  rw [List.getElem?_map]
  cases bound : launch.inputs[index]? with
  | none =>
    have beyond := List.getElem?_eq_none_iff.mp bound
    rw [Option.map_none, eq_comm, List.getElem?_eq_none_iff]
    omega
  | some b =>
    obtain ⟨_, -, desc, -⟩ := launch_input launched bound
    rw [desc, Option.map_some]

namespace Ready

variable {r : Runner} {m : CallMemory} {sizes : List Nat} (ready : r.Ready m sizes)
include ready

theorem desc_of_output {id : TensorId} (has : r.graph.topology.Has id)
    (notInput : id.isInput = false) : ∃ desc, r.graph.desc? id = some desc := by
  cases id with
  | input index => simp [TensorId.isInput] at notInput
  | output index =>
    have inside : index < r.graph.outputs.length := by
      simpa only [Topology.Has, Graph.topology, List.length_map] using has
    exact ready.outputsBound index inside
  | internal index =>
    obtain ⟨offset, t, desc, -, -, present, -⟩ := ready.internal has
    exact ⟨desc, present⟩

theorem covered : r.Covered m := by
  refine ⟨ready.formed, ready.inputs, ready.outputs, ?_, fun id => ready.desc_of_output⟩
  have sizes := Answer.length_mapM ready.sized
  rw [ready.sound.laid.length, Graph.lifetimes, List.length_map, List.length_zipIdx, sizes]

theorem launchOf_answers {n : Node} (member : n ∈ r.graph.nodes) :
    ∃ launch, r.launchOf m n = .ok launch := by
  obtain ⟨launch, launched, -⟩ := ready.covered.launchOf_answers member
  exact ⟨launch, launched⟩

/-- A launch writes outside an internal tensor that is live at its node and not the node's own. -/
theorem writes_apart (outside : r.OutputsOutside m) {position : Nat} {n : Node}
    (found : r.graph.nodes[position]? = some n) {launch : Launch}
    (launched : r.launchOf m n = .ok launch) {index : Nat}
    (has : r.graph.topology.Has (.internal index)) (elsewhere : .internal index ∉ n.outputs)
    (live : ∀ t, (r.graph.lifetimes sizes)[index]? = some t →
      t.produced ≤ position ∧ position ≤ t.lastUsed) :
    ∀ span ∈ launch.writable, span.Disjoint (r.internalSpan m index) := by
  have member := List.mem_of_getElem? found
  have inTopology : n.topology ∈ r.graph.topology.nodes := List.mem_map_of_mem member
  intro span writable
  rcases List.mem_append.mp writable with output | scratch
  · obtain ⟨b, bound, rfl⟩ := List.mem_map.mp output
    obtain ⟨i, atOutput⟩ := List.getElem?_of_mem bound
    obtain ⟨id, atId, desc, address, bytes⟩ := launch_output launched atOutput
    have written := List.mem_of_getElem? atId
    obtain ⟨hasOutput, notInput⟩ := ready.formed.writesExist _ inTopology id written
    cases id with
    | input other => simp [TensorId.isInput] at notInput
    | output other =>
      intro x covered inside
      refine outside other b.ptr b.desc (entry_eq_ok.mp address) desc x ?_
        (ready.covers_workspace has inside)
      rwa [Binding.span, bytes] at covered
    | internal other =>
      have different : other ≠ index := fun same => elsewhere (same ▸ written)
      rw [span_of_internal_output launched atId atOutput]
      refine ready.internals_apart position different hasOutput has ?_
      intro k t either lifetime
      rcases either with rfl | rfl
      · exact ready.live_of_touched lifetime
          ⟨n, found, List.mem_append.mpr (.inr written)⟩
      · exact live t lifetime
  · rw [launch_scratch launched] at scratch
    exact ready.scratch_apart member (Option.mem_toList.mp scratch) has

variable {State : Type} {registry : Registry State} {memory : State → Address → UInt8}

/-- A launch leaves an internal tensor alone that is live at its node and not the node's own. -/
theorem launchNode_keeps (confined : registry.Confined memory) (outside : r.OutputsOutside m)
    {position : Nat} {n : Node} (found : r.graph.nodes[position]? = some n) {index : Nat}
    (has : r.graph.topology.Has (.internal index)) (elsewhere : .internal index ∉ n.outputs)
    (live : ∀ t, (r.graph.lifetimes sizes)[index]? = some t →
      t.produced ≤ position ∧ position ≤ t.lastUsed)
    (stream : State) {x : Address} (covered : (r.internalSpan m index).Covers x) :
    memory (r.launchNode registry m stream n).state x = memory stream x := by
  unfold launchNode
  cases launched : r.launchOf m n with
  | error refusal => rfl
  | ok launch =>
    have kept := confined launch stream x fun span writable inSpan =>
      ready.writes_apart outside found launched has elsewhere live span writable x inSpan covered
    simp only [submit]
    split <;> exact kept

section

variable (confined : registry.Confined memory) (outside : r.OutputsOutside m) (stream : State)
  {producer reader index : Nat} (produces : r.graph.topology.Produces producer (.internal index))
  (reads : r.graph.Touches reader (.internal index))
include confined outside produces reads

/-- Between its producer and a reader no launch writes into an internal tensor. -/
theorem launchFirst_keeps {position : Nat} (after : producer < position)
    (before : position < reader) {x : Address} (covered : (r.internalSpan m index).Covers x) :
    memory (r.launchFirst registry m stream (position + 1)).state x =
      memory (r.launchFirst registry m stream position).state x := by
  have has : r.graph.topology.Has (.internal index) := by
    obtain ⟨k, atProducer, written⟩ := produces
    exact (ready.formed.writesExist k (List.mem_of_getElem? atProducer) _ written).1
  obtain ⟨n, found⟩ : ∃ n, r.graph.nodes[position]? = some n := by
    obtain ⟨k, atReader, -⟩ := reads
    have inside := (List.getElem?_eq_some_iff.mp atReader).1
    exact ⟨_, List.getElem?_eq_getElem (by omega)⟩
  have elsewhere : .internal index ∉ n.outputs := by
    intro written
    have same := ready.formed.producer_unique produces (Graph.produces_of_writes found written)
    omega
  have live (t : Lifetime) (lifetime : (r.graph.lifetimes sizes)[index]? = some t) :
      t.produced ≤ position ∧ position ≤ t.lastUsed := by
    have first := Graph.produced_lifetimes lifetime ready.formed produces
    have last := Graph.le_lastUsed_lifetimes lifetime reads
    omega
  rw [r.launchFirst_succ registry m stream found]
  cases ended : (r.launchFirst registry m stream position).result with
  | error refusal => rw [Outcome.andThen_of_error _ ended]
  | ok _ =>
    rw [Outcome.andThen_of_ok _ ended]
    exact ready.launchNode_keeps confined outside found has elsewhere live _ covered

/-- From the launch of its producer to the launch of a reader an internal tensor keeps its bytes. -/
theorem launches_keep (before : producer < reader) {x : Address}
    (covered : (r.internalSpan m index).Covers x) :
    memory (r.launchFirst registry m stream reader).state x =
      memory (r.launchFirst registry m stream (producer + 1)).state x := by
  have upTo (distance : Nat) (within : producer + 1 + distance ≤ reader) :
      memory (r.launchFirst registry m stream (producer + 1 + distance)).state x =
        memory (r.launchFirst registry m stream (producer + 1)).state x := by
    induction distance with
    | zero => rfl
    | succ distance ih =>
      have earlier := ih (by omega)
      have step := ready.launchFirst_keeps confined outside stream produces reads
        (show producer < producer + 1 + distance by omega) (by omega) covered
      exact step.trans earlier
  have whole := upTo (reader - (producer + 1)) (by omega)
  rwa [Nat.add_sub_of_le (by omega)] at whole

end

end Ready

/-- At one of the places of a node its launch is handed a range of an internal tensor. The places of
the inputs come before those of the outputs. -/
def Hands (n : Node) (launch : Launch) (place index : Nat) (b : Binding) : Prop :=
  (n.inputs ++ n.outputs)[place]? = some (.internal index) ∧
    (launch.inputs ++ launch.outputs)[place]? = some b

/-- What a launch is handed of internal tensors and of the scratch has no byte in common, but for a
tensor that the node reads twice. -/
structure HandedApart (n : Node) (launch : Launch) : Prop where
  internals : ∀ i j a b x y, i ≠ j → Hands n launch i a x → Hands n launch j b y →
    (i < n.inputs.length ∧ j < n.inputs.length ∧ a = b) ∨ x.span.Disjoint y.span
  scratch : ∀ span, launch.scratch = some span → ∀ i a x, Hands n launch i a x →
    span.Disjoint x.span

/-- No internal tensor is read beyond its end. -/
def KeepsTo (r : Runner) (m : CallMemory) (n : Node) (launch : Launch) : Prop :=
  ∀ (i index : Nat) (b : Binding), n.inputs[i]? = some (.internal index) →
    launch.inputs[i]? = some b → b.bytes ≤ (r.internalSpan m index).len

/-- What a launch of a node finds in the workspace, and how the ranges it is handed lie. -/
structure Undisturbed {State : Type} (r : Runner) (registry : Registry State)
    (memory : State → Address → UInt8) (m : CallMemory) (stream : State) (position : Nat) (n : Node)
    (launch : Launch) : Prop where
  /-- The launch runs on what the launches of the nodes before it left. -/
  runs : r.launchFirst registry m stream (position + 1) =
    (r.launchFirst registry m stream position).andThen fun next _ => r.submit registry next launch
  /-- An internal tensor that the node reads was produced by one earlier node, and holds what that
  node's launch left in it. -/
  intact : ∀ index, .internal index ∈ n.inputs → ∃ producer < position,
    (∀ other, r.graph.topology.Produces other (.internal index) ↔ other = producer) ∧
    ∀ x, (r.internalSpan m index).Covers x →
      memory (r.launchFirst registry m stream position).state x =
        memory (r.launchFirst registry m stream (producer + 1)).state x
  /-- Internal tensors at two places of the node are apart, unless it reads one tensor twice. -/
  internalsApart : ∀ i j a b, i ≠ j →
    (n.inputs ++ n.outputs)[i]? = some (.internal a) →
    (n.inputs ++ n.outputs)[j]? = some (.internal b) →
    (i < n.inputs.length ∧ j < n.inputs.length ∧ a = b) ∨
      (r.internalSpan m a).Disjoint (r.internalSpan m b)
  scratchApart : ∀ span, launch.scratch = some span → ∀ index,
    .internal index ∈ n.inputs ++ n.outputs → span.Disjoint (r.internalSpan m index)
  /-- Every place of the node has a binding. -/
  lengths : launch.inputs.length = n.inputs.length ∧ launch.outputs.length = n.outputs.length
  /-- Bindings of internal tensors start where the tensors do. With views checked they end there,
  and bindings of outputs always do. -/
  inputBinding : ∀ (i index : Nat) (b : Binding), n.inputs[i]? = some (.internal index) →
    launch.inputs[i]? = some b → b.ptr = (r.internalSpan m index).ptr ∧
      (r.config.checkViews → b.bytes ≤ (r.internalSpan m index).len)
  outputBinding : ∀ (i index : Nat) (b : Binding), n.outputs[i]? = some (.internal index) →
    launch.outputs[i]? = some b → b.span = r.internalSpan m index
  /-- With views checked, and wherever else no view reaches beyond its tensor, the ranges that the
  launch is handed are apart as well. -/
  handedApart : r.config.checkViews ∨ r.KeepsTo m n launch → HandedApart n launch

namespace Ready

section

variable {r : Runner} {m : CallMemory} {sizes : List Nat} (ready : r.Ready m sizes)
  {position : Nat} {n : Node} (found : r.graph.nodes[position]? = some n)
include ready found

/-- An internal tensor is read from where it lies, and with views checked no byte beyond it. -/
theorem internal_input {launch : Launch} (launched : r.launchOf m n = .ok launch) {i index : Nat}
    {b : Binding} (atId : n.inputs[i]? = some (.internal index))
    (atBinding : launch.inputs[i]? = some b) :
    b.ptr = (r.internalSpan m index).ptr ∧
      (r.config.checkViews → b.bytes ≤ (r.internalSpan m index).len) := by
  have member := List.mem_of_getElem? found
  obtain ⟨id, alsoAtId, atDesc, address, size⟩ := launch_input launched atBinding
  obtain rfl : id = .internal index := by
    rw [atId] at alsoAtId
    exact (Option.some.inj alsoAtId).symm
  refine ⟨address_internal address, fun checked => ?_⟩
  have has := Graph.has_of_mentioned ready.formed member
    (List.mem_append.mpr (.inl (List.mem_of_getElem? atId)))
  obtain ⟨offset, t, desc, -, -, present, sized, span, -⟩ := ready.internal has
  obtain ⟨held, alsoPresent, dtype, count⟩ := (ready.reads n member).2 i _ _ atId atDesc
  obtain rfl : desc = held := by
    rw [present] at alsoPresent
    exact Option.some.inj alsoPresent
  rw [size, span]
  exact TensorDesc.byteSize?_getD_le dtype (count checked) sized

/-- Internal tensors that a node names at two places are apart, unless it reads one tensor twice. -/
theorem mentioned_apart {i j a b : Nat} (different : i ≠ j)
    (atI : (n.inputs ++ n.outputs)[i]? = some (.internal a))
    (atJ : (n.inputs ++ n.outputs)[j]? = some (.internal b)) :
    (i < n.inputs.length ∧ j < n.inputs.length ∧ a = b) ∨
      (r.internalSpan m a).Disjoint (r.internalSpan m b) := by
  have member := List.mem_of_getElem? found
  have mentionedA := List.mem_of_getElem? atI
  have mentionedB := List.mem_of_getElem? atJ
  by_cases same : a = b
  · subst same
    left
    have first := Graph.reads_of_repeated ready.formed found different atI atJ
    have second := Graph.reads_of_repeated ready.formed found different.symm atJ atI
    exact ⟨first, second, rfl⟩
  · right
    refine ready.internals_apart position same
      (Graph.has_of_mentioned ready.formed member mentionedA)
      (Graph.has_of_mentioned ready.formed member mentionedB) ?_
    rintro k t (rfl | rfl) lifetime
    · exact ready.live_of_touched lifetime ⟨n, found, mentionedA⟩
    · exact ready.live_of_touched lifetime ⟨n, found, mentionedB⟩

/-- What is handed of an internal tensor lies in its range, if the node does not read beyond it. -/
theorem handed_within {launch : Launch} (launched : r.launchOf m n = .ok launch)
    (keeps : r.KeepsTo m n launch) {place index : Nat} {b : Binding}
    (hands : Hands n launch place index b) :
    b.ptr = (r.internalSpan m index).ptr ∧ b.bytes ≤ (r.internalSpan m index).len := by
  obtain ⟨atId, atBinding⟩ := hands
  obtain ⟨-, inputs, -⟩ := lengths_of_launch
    (ready.reads n (List.mem_of_getElem? found)).1 launched
  by_cases reading : place < n.inputs.length
  · rw [List.getElem?_append_left reading] at atId
    rw [List.getElem?_append_left (by omega)] at atBinding
    have starts := (ready.internal_input found launched atId atBinding).1
    exact ⟨starts, keeps place index b atId atBinding⟩
  · rw [List.getElem?_append_right (by omega)] at atId
    rw [List.getElem?_append_right (by omega), inputs] at atBinding
    have span := span_of_internal_output launched atId atBinding
    exact ⟨congrArg Span.ptr span, Nat.le_of_eq (congrArg Span.len span)⟩

theorem handedApart {launch : Launch} (launched : r.launchOf m n = .ok launch)
    (keeps : r.KeepsTo m n launch) : HandedApart n launch where
  internals := by
    intro i j a b x y different handsX handsY
    obtain ⟨ptrX, lenX⟩ := ready.handed_within found launched keeps handsX
    obtain ⟨ptrY, lenY⟩ := ready.handed_within found launched keeps handsY
    rcases ready.mentioned_apart found different handsX.1 handsY.1 with twice | apart
    · exact .inl twice
    · exact .inr (apart.mono ptrX lenX ptrY lenY)
  scratch := by
    intro span scratch i a x hands
    obtain ⟨ptr, len⟩ := ready.handed_within found launched keeps hands
    have member := List.mem_of_getElem? found
    have has := Graph.has_of_mentioned ready.formed member (List.mem_of_getElem? hands.1)
    rw [launch_scratch launched] at scratch
    exact (ready.scratch_apart member scratch has).mono rfl (Nat.le_refl _) ptr len

end

theorem undisturbed {r : Runner} {m : CallMemory} {sizes : List Nat} (ready : r.Ready m sizes)
    (outside : r.OutputsOutside m) {State : Type} {registry : Registry State}
    {memory : State → Address → UInt8} (confined : registry.Confined memory) (stream : State)
    {position : Nat} {n : Node} (found : r.graph.nodes[position]? = some n) {launch : Launch}
    (launched : r.launchOf m n = .ok launch) :
    r.Undisturbed registry memory m stream position n launch where
  runs := by
    rw [r.launchFirst_succ registry m stream found]
    simp only [launchNode, launched]
  intact := by
    intro index read
    have atPosition := Graph.topology_of_found found
    obtain ⟨producer, before, produces⟩ :=
      ready.formed.readsEarlier position n.topology atPosition _ read rfl
    refine ⟨producer, before, fun other => ⟨fun also => ?_, fun same => same ▸ produces⟩, ?_⟩
    · exact ready.formed.producer_unique also produces
    · intro x covered
      have touched : r.graph.Touches position (.internal index) :=
        ⟨n, found, List.mem_append.mpr (.inl read)⟩
      exact ready.launches_keep confined outside stream produces touched before covered
  inputBinding i index b atId atBinding := ready.internal_input found launched atId atBinding
  outputBinding i index b atId atBinding := span_of_internal_output launched atId atBinding
  internalsApart i j a b different atI atJ := ready.mentioned_apart found different atI atJ
  scratchApart := by
    intro span scratch index mentioned
    have member := List.mem_of_getElem? found
    rw [launch_scratch launched] at scratch
    exact ready.scratch_apart member scratch
      (Graph.has_of_mentioned ready.formed member mentioned)
  lengths := (lengths_of_launch (ready.reads n (List.mem_of_getElem? found)).1 launched).2
  handedApart := by
    rintro (checked | keeps)
    · apply ready.handedApart found launched
      intro i index b atId atBinding
      exact (ready.internal_input found launched atId atBinding).2 checked
    · exact ready.handedApart found launched keeps

end Ready

/-- Launches that write where they may do not disturb one another: on a runner over a well formed
graph, after any calls and a setup that succeeds with a plan of 64-bit words, in an execution of
whatever call it accepts. -/
theorem launches_undisturbed {g : Graph} {config : Config} {created ready : Runner}
    (accepted : Runner.new g config = .ok created) (calls : List Call) {pack : Pack} {bytes : Nat}
    (success : ((created.afterAll calls).setup pack).result = .ok bytes)
    (reached : ((created.afterAll calls).setup pack).state = ready) (fits : ready.PlanFits)
    {callPack : Pack} {m : CallMemory} (called : ready.callMemory callPack = .ok m)
    (outside : ready.OutputsOutside m) {State : Type} {registry : Registry State}
    {memory : State → Address → UInt8} (confined : registry.Confined memory) (stream : State)
    {position : Nat} {n : Node} (found : ready.graph.nodes[position]? = some n) :
    ((ready.execute registry stream callPack).state.2 =
        (ready.launchFirst registry m stream ready.graph.nodes.length).state ∧
      (ready.execute registry stream callPack).result =
        (ready.launchFirst registry m stream ready.graph.nodes.length).result) ∧
    ∃ launch, ready.launchOf m n = .ok launch ∧
      ready.Undisturbed registry memory m stream position n launch := by
  refine ⟨ready.execute_launchFirst registry m stream called, ?_⟩
  subst reached
  obtain ⟨rfl, formed, power⟩ := new_ok accepted
  obtain ⟨topology, config⟩ := topology_afterAll ⟨g, config, .unbound, .empty⟩ calls
  obtain ⟨sizes, ready⟩ := ready_of_setup (topology ▸ formed) (config ▸ power) success fits called
  obtain ⟨launch, launched⟩ := ready.launchOf_answers (List.mem_of_getElem? found)
  exact ⟨launch, launched, ready.undisturbed outside confined stream found launched⟩

theorem outputsOutside_of_single {r : Runner} {m : CallMemory} {ptr : Address} {desc : TensorDesc}
    (table : m.outputs = [ptr]) (held : r.graph.desc? (.output 0) = some desc)
    (apart : Span.Disjoint ⟨ptr, desc.byteSize?.getD 0⟩ m.workspace) : r.OutputsOutside m := by
  intro index address other bound present
  rw [table] at bound
  cases index with
  | zero =>
    obtain rfl := Option.some.inj bound
    obtain rfl := Option.some.inj (held.symm.trans present)
    exact apart
  | succ index => simp at bound

/-- Two activations in a row, whose results are added up. -/
def chain : Graph :=
  Graph.new "chain" ["x"] ["y"] ["a", "b"] [
    Node.new "first" (.activation .relu) [.input 0] [.internal 0],
    Node.new "second" (.activation .gelu) [.internal 0] [.internal 1],
    Node.new "third" (.elementwise .add) [.internal 0, .internal 1] [.output 0]]

def chainPack : Pack where
  inputs := [⟨.rowMajor .f32 ⟨[2, 4]⟩, .external 4096⟩]
  outputs := [⟨.rowMajor .f32 ⟨[2, 4]⟩, .external 8192⟩]
  workspace := some ⟨65536, 512⟩

theorem chain_undisturbed :
    let ready := ((⟨chain, .default, .unbound, .empty⟩ : Runner).setup chainPack).state
    let m : CallMemory := ⟨[4096], [8192], ⟨65536, 512⟩⟩
    ∃ n launch, ready.graph.nodes[2]? = some n ∧ ready.launchOf m n = .ok launch ∧
      ready.Undisturbed (Registry.filling 7) id m (fun _ => 0) 2 n launch ∧
      HandedApart n launch := by
  intro ready m
  have called : ready.callMemory chainPack = .ok m := by decide +kernel
  have fits : ready.PlanFits := ⟨[32, 32], rfl, by decide +kernel⟩
  have held : ready.graph.desc? (.output 0) = some (.rowMajor .f32 ⟨[2, 4]⟩) := rfl
  have outside : ready.OutputsOutside m :=
    outputsOutside_of_single rfl held (Span.disjoint_of_le (by decide) (by decide))
  obtain ⟨n, found⟩ : ∃ n, ready.graph.nodes[2]? = some n := ⟨_, rfl⟩
  have accepted : Runner.new chain .default = .ok ⟨chain, .default, .unbound, .empty⟩ := rfl
  have planned :
      ((⟨chain, .default, .unbound, .empty⟩ : Runner).setup chainPack).result = .ok 512 := rfl
  obtain ⟨-, launch, launched, undisturbed⟩ := launches_undisturbed accepted [] planned rfl fits
    called outside (Registry.filling_confined 7) (fun _ => 0) found
  exact ⟨n, launch, found, launched, undisturbed, undisturbed.handedApart (.inl rfl)⟩

/-- Activations in a row, of which the second reads its input as if it were twice as long. -/
def stretching : Graph :=
  Graph.new "stretching" ["x"] ["y"] ["a", "b"] [
    Node.new "first" (.activation .relu) [.input 0] [.internal 0],
    (Node.new "second" (.activation .relu) [.internal 0] [.internal 1]).withView 0
      (.reshape ⟨[128]⟩),
    Node.new "third" (.activation .relu) [.internal 1] [.output 0]]

def stretchingPack : Pack where
  inputs := [⟨.rowMajor .f32 ⟨[64]⟩, .external 4096⟩]
  outputs := [⟨.rowMajor .f32 ⟨[128]⟩, .external 8192⟩]
  workspace := some ⟨65536, 768⟩

/-- Where views are not checked, a node may read on into what it writes. -/
theorem unchecked_view_overlaps :
    ¬ ∀ (g : Graph) (config : Config) (r : Runner) (pack : Pack) (bytes : Nat) (m : CallMemory)
      (position : Nat) (n : Node) (launch : Launch), Runner.new g config = .ok r →
      (r.setup pack).result = .ok bytes → (r.setup pack).state.PlanFits →
      (r.setup pack).state.callMemory pack = .ok m → (r.setup pack).state.OutputsOutside m →
      (r.setup pack).state.graph.nodes[position]? = some n →
      (r.setup pack).state.launchOf m n = .ok launch → HandedApart n launch := by
  intro claimed
  let config : Config := ⟨256, .linear, 64, false, false⟩
  let r : Runner := ⟨stretching, config, .unbound, .empty⟩
  let m : CallMemory := ⟨[4096], [8192], ⟨65536, 768⟩⟩
  let a : Binding := ⟨.rowMajor .f32 ⟨[128]⟩, 65536, 512⟩
  let b : Binding := ⟨.rowMajor .f32 ⟨[128]⟩, 65792, 512⟩
  let launch : Launch := ⟨"second", .activation .relu, [a], [b], none⟩
  have valid : stretching.validate = .ok () := by decide +kernel
  have accepted : Runner.new stretching config = .ok r := by
    simp only [Runner.new, Answer.bind_eq_ok, Answer.mapError_eq_ok]
    exact ⟨(), by decide, (), valid, rfl⟩
  have planned : (r.setup stretchingPack).result = .ok 768 := by decide +kernel
  have fits : (r.setup stretchingPack).state.PlanFits :=
    ⟨[256, 512], by decide +kernel, by decide +kernel⟩
  have called : (r.setup stretchingPack).state.callMemory stretchingPack = .ok m := by
    decide +kernel
  have held : (r.setup stretchingPack).state.graph.desc? (.output 0) =
      some (.rowMajor .f32 ⟨[128]⟩) := by decide +kernel
  have outside : (r.setup stretchingPack).state.OutputsOutside m :=
    outputsOutside_of_single rfl held (Span.disjoint_of_le (by decide) (by decide))
  have named : (r.setup stretchingPack).state.graph.nodes[1]?.map
      (fun n => (n.inputs, n.outputs)) = some ([.internal 0], [.internal 1]) := by decide +kernel
  obtain ⟨n, found, names⟩ := Option.map_eq_some_iff.mp named
  obtain ⟨inputs, outputs⟩ := Prod.mk.inj names
  have launched : (r.setup stretchingPack).state.graph.nodes[1]?.map
      ((r.setup stretchingPack).state.launchOf m) = some (.ok launch) := by decide +kernel
  rw [found, Option.map_some, Option.some.injEq] at launched
  have apart := claimed stretching config r stretchingPack 768 m 1 n launch accepted planned fits
    called outside found launched
  have first : Hands n launch 0 0 a := by simp [Hands, inputs, launch]
  have second : Hands n launch 1 1 b := by simp [Hands, inputs, outputs, launch]
  rcases apart.internals 0 1 0 1 a b (by decide) first second with ⟨-, -, same⟩ | disjoint
  · exact absurd same (by decide)
  · exact disjoint 65792 ⟨256, by decide, by decide⟩ ⟨0, by decide, by decide⟩

end Runner

end OperatorGraph
