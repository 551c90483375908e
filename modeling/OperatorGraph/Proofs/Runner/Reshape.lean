import OperatorGraph.Proofs.Dispatch.Shapes
import OperatorGraph.Proofs.Runner.Binding
import OperatorGraph.Proofs.Runner.History
import OperatorGraph.Proofs.Products

set_option autoImplicit false

namespace OperatorGraph

/-- The same bytes, under shapes that hold as many elements. -/
structure TensorDesc.Reshapes (d e : TensorDesc) : Prop where
  compatible : d.Compatible e
  bytes : d.byteSize? = e.byteSize?

theorem TensorDesc.Reshapes.refl (d : TensorDesc) : d.Reshapes d :=
  ⟨⟨rfl, rfl, rfl⟩, rfl⟩

/-- The same bytes at the same place. -/
structure Tensor.Reshapes (x y : Tensor) : Prop where
  memory : x.memory = y.memory
  desc : x.desc.Reshapes y.desc

/-- The same place, under resolved shapes that hold as many elements. -/
structure Tensor.Rebinds (x y : Tensor) : Prop where
  memory : x.memory = y.memory
  compatible : x.desc.Compatible y.desc
  resolved : x.desc.shape.Resolved ∧ y.desc.shape.Resolved

theorem Tensor.Rebinds.reshapes {x y : Tensor} (rebinds : x.Rebinds y)
    (fits : x.desc.overflows = false) (fits' : y.desc.overflows = false) : x.Reshapes y := by
  obtain ⟨memory, ⟨dtype, format, count⟩, known, known'⟩ := rebinds
  have bytes : x.desc.byteSize? = y.desc.byteSize? := by
    rw [TensorDesc.byteSize?_of_resolved known fits, TensorDesc.byteSize?_of_resolved known' fits',
      dtype, count]
  exact ⟨memory, ⟨dtype, format, count⟩, bytes⟩

/-- Both lists hold the same tensors, counted from an index, but that free ones may be bound under
other shapes. -/
def Tensor.Rebound (free : Nat → Prop) (index : Nat) (xs ys : List Tensor) : Prop :=
  ∀ k, xs[k]? = ys[k]? ∨
    free (index + k) ∧ ∃ x y, xs[k]? = some x ∧ ys[k]? = some y ∧ x.Rebinds y

/-- The packs hold the same tensors, but that free outputs may be bound under other shapes. -/
structure Pack.Reshapes (free : Nat → Prop) (a b : Pack) : Prop where
  inputs : a.inputs = b.inputs
  workspace : a.workspace = b.workspace
  outputs : Tensor.Rebound free 0 a.outputs b.outputs

theorem Pack.Reshapes.memories {free : Nat → Prop} {a b : Pack} (packs : a.Reshapes free b) :
    a.outputs.map Tensor.memory = b.outputs.map Tensor.memory := by
  apply List.ext_getElem?
  intro index
  simp only [List.getElem?_map]
  rcases packs.outputs index with same | ⟨-, x, y, left, right, rebinds⟩
  · rw [same]
  · rw [left, right, Option.map_some, Option.map_some, rebinds.memory]

/-- The hook comes to the same whatever the free outputs are bound to. -/
def Hook.Ignores (hook : Hook) (free : Nat → Prop) : Prop :=
  ∀ (context context' : HookContext) (s : HookState), context.node = context'.node →
    (∀ id, (∀ index, free index → id ≠ .output index) →
      context.tensor? id = context'.tensor? id) →
    hook context s = hook context' s

/-- Free outputs are read neither by a node nor by its hook. -/
structure Topology.Unread (t : Topology) (free : Nat → Prop) : Prop where
  inputs : ∀ n ∈ t.nodes, ∀ index, free index → .output index ∉ n.inputs
  hooks : ∀ n ∈ t.nodes, ∀ hook, n.hook = some hook → hook.Ignores free

namespace Graph

/-- The graphs hold the same, but that free outputs may have other shapes. -/
structure Reshapes (free : Nat → Prop) (g h : Graph) : Prop where
  name : g.name = h.name
  inputs : g.inputs = h.inputs
  internals : g.internals = h.internals
  nodes : g.nodes = h.nodes
  outputs : ∀ index, g.outputs[index]? = h.outputs[index]? ∨
    free index ∧ ∃ name x y, g.outputs[index]? = some ⟨name, some x⟩ ∧
      h.outputs[index]? = some ⟨name, some y⟩ ∧ x.Reshapes y

namespace Reshapes

variable {free : Nat → Prop} {g h : Graph} (alike : g.Reshapes free h)

theorem refl (g : Graph) : g.Reshapes free g :=
  ⟨rfl, rfl, rfl, rfl, fun _ => .inl rfl⟩

include alike

theorem slot? {id : TensorId} (bound : ∀ index, free index → id ≠ .output index) :
    g.slot? id = h.slot? id := by
  cases id with
  | input index => exact congrArg (·[index]?) alike.inputs
  | internal index => exact congrArg (·[index]?) alike.internals
  | output index =>
    rcases alike.outputs index with same | ⟨isFree, -⟩
    · exact same
    · exact absurd rfl (bound index isFree)

theorem desc? {id : TensorId} (bound : ∀ index, free index → id ≠ .output index) :
    g.desc? id = h.desc? id := by
  simp only [Graph.desc?, Graph.tensor?, alike.slot? bound]

/-- What the graphs hold has the same bytes in both. -/
theorem desc?_alike (id : TensorId) :
    g.desc? id = h.desc? id ∨
      ∃ d e, g.desc? id = some d ∧ h.desc? id = some e ∧ d.Reshapes e := by
  by_cases bound : ∀ index, free index → id ≠ .output index
  · exact .inl (alike.desc? bound)
  · simp only [not_forall, not_not] at bound
    obtain ⟨index, -, rfl⟩ := bound
    rcases alike.outputs index with same | ⟨-, name, x, y, left, right, reshapes⟩
    · left
      simp only [Graph.desc?, Graph.tensor?, Graph.slot?, same]
    · right
      exact ⟨x.desc, y.desc, by simp [Graph.desc?, Graph.tensor?, Graph.slot?, left],
        by simp [Graph.desc?, Graph.tensor?, Graph.slot?, right], reshapes.desc⟩

theorem length_outputs : g.outputs.length = h.outputs.length := by
  have same (bound : Nat) : g.outputs.length ≤ bound ↔ h.outputs.length ≤ bound := by
    rw [← List.getElem?_eq_none_iff, ← List.getElem?_eq_none_iff]
    rcases alike.outputs bound with same | ⟨-, _, _, _, left, right, -⟩
    · rw [same]
    · simp [left, right]
  apply Nat.le_antisymm
  · exact (same _).mpr (Nat.le_refl _)
  · exact (same _).mp (Nat.le_refl _)

/-- Both graphs take a tensor, into a free output under two shapes. -/
theorem fillOutput {index : Nat} {x y : Tensor} (same : x = y ∨ free index ∧ x.Reshapes y) :
    (g.fill (.output index) x).Reshapes free (h.fill (.output index) y) := by
  refine ⟨alike.name, alike.inputs, alike.internals, alike.nodes, fun other => ?_⟩
  simp only [fill, modifySlot, List.getElem?_modify]
  by_cases here : index = other
  · subst here
    simp only [if_true]
    rcases alike.outputs index with slots | ⟨isFree, name, old, old', left, right, -⟩
    · rw [slots]
      rcases same with rfl | ⟨isFree, reshapes⟩
      · exact .inl rfl
      · cases h.outputs[index]? with
        | none => exact .inl rfl
        | some slot => exact .inr ⟨isFree, slot.name, x, y, rfl, rfl, reshapes⟩
    · rw [left, right]
      rcases same with rfl | ⟨-, reshapes⟩
      · exact .inl rfl
      · exact .inr ⟨isFree, name, x, y, rfl, rfl, reshapes⟩
  · simp only [here, if_false]
    simpa using alike.outputs other

theorem modifyInternal (index : Nat) (change : Slot → Slot) :
    (g.modifySlot (.internal index) change).Reshapes free
      (h.modifySlot (.internal index) change) := by
  refine ⟨alike.name, alike.inputs, ?_, alike.nodes, alike.outputs⟩
  simp only [modifySlot, alike.internals]

theorem fill (id : TensorId) (tensor : Tensor) :
    (g.fill id tensor).Reshapes free (h.fill id tensor) := by
  cases id with
  | input index =>
    refine ⟨alike.name, ?_, alike.internals, alike.nodes, alike.outputs⟩
    simp only [Graph.fill, modifySlot, alike.inputs]
  | output index => exact alike.fillOutput (.inl rfl)
  | internal index => exact alike.modifyInternal index _

theorem settle (position : Nat) (r : Resolution) :
    (g.settle position r).Reshapes free (h.settle position r) := by
  refine ⟨alike.name, alike.inputs, alike.internals, ?_, alike.outputs⟩
  simp only [Graph.settle, alike.nodes]

theorem assignFrom (index : Nat) (offsets : List Nat) :
    (g.assignFrom index offsets).Reshapes free (h.assignFrom index offsets) := by
  induction offsets generalizing g h index with
  | nil => exact alike
  | cons offset rest ih =>
    rw [Graph.assignFrom, Graph.assignFrom]
    exact ih (alike.modifyInternal index _) (index + 1)

/-- Both graphs are bound to tensors that are alike. -/
theorem bindOutputs {xs ys : List Tensor} {index : Nat}
    (tensors : Tensor.Rebound free index xs ys)
    (first : (bindFrom .output g index xs).2 = .ok ())
    (second : (bindFrom .output h index ys).2 = .ok ()) :
    (bindFrom .output g index xs).1.Reshapes free (bindFrom .output h index ys).1 := by
  induction xs generalizing g h ys index with
  | nil =>
    cases ys with
    | nil => exact alike
    | cons y ys =>
      rcases tensors 0 with same | ⟨-, _, _, left, -⟩
      · simp at same
      · simp at left
  | cons x xs ih =>
    cases ys with
    | nil =>
      rcases tensors 0 with same | ⟨-, _, _, -, right, -⟩
      · simp at same
      · simp at right
    | cons y ys =>
      by_cases overflows : x.desc.overflows
      · simp [bindFrom, overflows] at first
      by_cases overflows' : y.desc.overflows
      · simp [bindFrom, overflows'] at second
      simp only [bindFrom, overflows, overflows', Bool.false_eq_true, if_false] at first second ⊢
      refine ih ?_ (fun k => ?_) first second
      · apply alike.fillOutput
        rcases tensors 0 with same | ⟨isFree, x', y', left, right, rebinds⟩
        · exact .inl (by simpa using same)
        · right
          obtain rfl : x = x' := by simpa using left
          obtain rfl : y = y' := by simpa using right
          exact ⟨isFree, rebinds.reshapes (by simpa using overflows) (by simpa using overflows')⟩
      · have later := tensors (k + 1)
        rwa [List.getElem?_cons_succ, List.getElem?_cons_succ,
          show index + (k + 1) = index + 1 + k by omega] at later

end Reshapes

end Graph

/-- A node resolves alike if neither it nor its hook reads a free output. -/
theorem Node.resolve_reshaped {free : Nat → Prop} {g h : Graph} (alike : g.Reshapes free h)
    {n : Node} (inputs : ∀ index, free index → .output index ∉ n.inputs)
    (hooks : ∀ hook, n.hook = some hook → hook.Ignores free) (checkViews : Bool) :
    n.resolve g checkViews = n.resolve h checkViews := by
  have reads : n.readInputs g checkViews = n.readInputs h checkViews := by
    refine Answer.mapM_congr fun entry member => ?_
    obtain ⟨id, index⟩ := entry
    have read : id ∈ n.inputs := List.mem_of_getElem? (List.mk_mem_zipIdx_iff_getElem?.mp member)
    have same := alike.desc? fun other isFree same => inputs other isFree (same ▸ read)
    simp only [readInput, Graph.readDesc, same, alike.name]
  have hooked (read : List TensorDesc) : n.runHook g read = n.runHook h read := by
    unfold runHook
    cases present : n.hook with
    | none => rfl
    | some hook =>
      have same := hooks hook present ⟨n.name, g.desc?⟩ ⟨n.name, h.desc?⟩ ⟨read, n.declared⟩ rfl
        fun id bound => alike.desc? bound
      simp only [same]
  simp only [resolve, reads, hooked]

namespace Graph

/-- The address that a call passes for a tensor. -/
def place (graph : String) (side : Side) (index : Nat) : Memory → Except Error Address
  | .external ptr => .ok ptr
  | memory => .error (.binding graph side index (.notExternal memory))

theorem callAddress_of_desc? {g : Graph} {side : Side} {index : Nat} {tensor : Tensor}
    (present : g.desc? (side.tensorId index) = some tensor.desc) :
    g.callAddress side index tensor = place g.name side index tensor.memory := by
  obtain ⟨desc, memory⟩ := tensor
  have answered (next : TensorDesc → Except Error Address) :
      (Except.ok desc >>= next) = next desc := rfl
  simp only [callAddress, Graph.readDesc_eq_ok.mpr present, answered, ne_eq, not_true_eq_false,
    if_false]
  cases memory <;> rfl

end Graph

namespace Graph.Reshapes

variable {free : Nat → Prop} {g h : Graph} (alike : g.Reshapes free h)
include alike

theorem boundOutput? (id : TensorId) :
    (g.boundOutput? id = none ∧ h.boundOutput? id = none) ∨
      ∃ d e, g.boundOutput? id = some d ∧ h.boundOutput? id = some e := by
  cases id with
  | input index => exact .inl ⟨rfl, rfl⟩
  | internal index => exact .inl ⟨rfl, rfl⟩
  | output index =>
    rcases alike.desc?_alike (.output index) with same | ⟨d, e, left, right, -⟩
    · simp only [Graph.boundOutput?, same]
      cases h.desc? (.output index) with
      | none => exact .inl ⟨rfl, rfl⟩
      | some d => exact .inr ⟨d, d, rfl, rfl⟩
    · exact .inr ⟨d, e, left, right⟩

theorem placeFrom {node : String} {family : Family} {index : Nat}
    {placed : List (TensorId × TensorDesc)}
    (first : (placeFrom node family g index placed).2 = .ok ())
    (second : (Graph.placeFrom node family h index placed).2 = .ok ()) :
    (Graph.placeFrom node family g index placed).1.Reshapes free
      (Graph.placeFrom node family h index placed).1 := by
  induction placed generalizing g h index with
  | nil => exact alike
  | cons entry rest ih =>
    obtain ⟨id, desc⟩ := entry
    rcases alike.boundOutput? id with ⟨left, right⟩ | ⟨d, e, left, right⟩
    · simp only [Graph.placeFrom, left, right] at first second ⊢
      exact ih (alike.fill id _) first second
    · simp only [Graph.placeFrom, left, right] at first second ⊢
      by_cases compatible : d.Compatible desc
      · by_cases compatible' : e.Compatible desc
        · simp only [compatible, compatible', if_true] at first second ⊢
          exact ih alike first second
        · simp [compatible'] at second
      · simp [compatible] at first

theorem resolveAt (unread : g.topology.Unread free) {checkViews : Bool} {position : Nat}
    (first : (resolveAt checkViews g position).result = .ok ())
    (second : (Graph.resolveAt checkViews h position).result = .ok ()) :
    (Graph.resolveAt checkViews g position).state.Reshapes free
      (Graph.resolveAt checkViews h position).state := by
  cases found : g.nodes[position]? with
  | none =>
    have found' : h.nodes[position]? = none := alike.nodes ▸ found
    simp only [Graph.resolveAt, found, found']
    exact alike
  | some n =>
    have found' : h.nodes[position]? = some n := alike.nodes ▸ found
    have member : n.topology ∈ g.topology.nodes :=
      List.mem_map.mpr ⟨n, List.mem_of_getElem? found, rfl⟩
    have same := Node.resolve_reshaped alike (unread.inputs _ member) (unread.hooks _ member)
      checkViews
    obtain ⟨r, placed, resolution, placing, state⟩ := resolveAt_ok found first
    obtain ⟨r', placed', resolution', placing', state'⟩ := resolveAt_ok found' second
    obtain rfl : r = r' := by
      rw [resolution, resolution'] at same
      exact Except.ok.inj same
    have places := alike.placeFrom (congrArg Prod.snd placing) (congrArg Prod.snd placing')
    rw [placing, placing'] at places
    rw [state, state']
    exact places.settle position r

theorem resolve (unread : g.topology.Unread free) {checkViews : Bool}
    (first : (resolve checkViews g).result = .ok ())
    (second : (Graph.resolve checkViews h).result = .ok ()) :
    (Graph.resolve checkViews g).state.Reshapes free (Graph.resolve checkViews h).state := by
  have sameLength : h.nodes.length = g.nodes.length := by rw [alike.nodes]
  simp only [Graph.resolve, sameLength] at first second ⊢
  have both := Outcome.forEach_related (fun s t => s.Reshapes free t ∧ s.topology.Unread free) ?_ _
    g h ⟨alike, unread⟩ first second
  · exact both.1
  · rintro s t position ⟨alike, unread⟩ first second
    refine ⟨alike.resolveAt unread first second, ?_⟩
    rwa [(blank_eq_iff.mp (blank_resolveAt checkViews s position)).1]

theorem callAddresses_inputs (tensors : List Tensor) :
    g.callAddresses .input tensors = h.callAddresses .input tensors := by
  have read (index : Nat) : g.readDesc (.input index) = h.readDesc (.input index) := by
    have same : g.desc? (.input index) = h.desc? (.input index) :=
      alike.desc? fun _ _ => by simp
    simp only [Graph.readDesc, alike.name, same]
  simp only [Graph.callAddresses, checkCount, slots, alike.inputs, alike.name, callAddress,
    Side.tensorId, read]
  rfl

/-- A call that names the outputs as they are bound is left with their places. -/
theorem callAddresses_outputs {xs ys : List Tensor}
    (memories : xs.map Tensor.memory = ys.map Tensor.memory)
    (shown : ∀ {index x}, xs[index]? = some x → g.desc? (.output index) = some x.desc)
    (shown' : ∀ {index y}, ys[index]? = some y → h.desc? (.output index) = some y.desc) :
    g.callAddresses .output xs = h.callAddresses .output ys := by
  have places {k : Graph} {tensors : List Tensor} (name : k.name = h.name)
      (shown : ∀ {index x}, tensors[index]? = some x → k.desc? (.output index) = some x.desc) :
      tensors.zipIdx.mapM (fun entry => k.callAddress .output entry.2 entry.1) =
        (tensors.map Tensor.memory).zipIdx.mapM fun entry =>
          place h.name .output entry.2 entry.1 := by
    rw [List.zipIdx_map, List.mapM_map]
    refine Answer.mapM_congr fun entry member => ?_
    have present := shown (List.mk_mem_zipIdx_iff_getElem?.mp member)
    rw [callAddress_of_desc? present, name]
    rfl
  have count : xs.length = ys.length := by
    simpa using congrArg List.length memories
  simp only [Graph.callAddresses, checkCount, slots, alike.length_outputs, alike.name, count,
    places alike.name shown, places rfl shown', memories]
  rfl

end Graph.Reshapes

namespace Graph

theorem Reshapes.bind {free : Nat → Prop} {g : Graph} {a b : Pack} (packs : a.Reshapes free b)
    (first : (g.bind a).2 = .ok ()) (second : (g.bind b).2 = .ok ()) :
    (g.bind a).1.Reshapes free (g.bind b).1 := by
  obtain ⟨next, inputs, outputs⟩ := bind_ok first
  obtain ⟨next', inputs', outputs'⟩ := bind_ok second
  obtain rfl : next = next' := by
    rw [packs.inputs] at inputs
    exact congrArg Prod.fst (inputs.symm.trans inputs')
  have bound := (bindSide_ok outputs).2
  have bound' := (bindSide_ok outputs').2
  have alike := (Reshapes.refl next).bindOutputs packs.outputs (congrArg Prod.snd bound)
    (congrArg Prod.snd bound')
  rwa [bound, bound'] at alike

end Graph

namespace Runner

section

variable {free : Nat → Prop} {r s : Runner} (graph : r.graph.Reshapes free s.graph)
  (plan : r.plan = s.plan) (m : CallMemory)

include plan

theorem address_reshaped (id : TensorId) : r.address m id = s.address m id := by
  cases id with
  | input index => rfl
  | output index => rfl
  | internal index => simp only [address, plan]

theorem binding_reshaped (id : TensorId) {d e : TensorDesc} (reshapes : d.Reshapes e) :
    Answer.Alike Binding.Reshapes (r.binding m id d) (s.binding m id e) := by
  simp only [binding, address_reshaped plan]
  cases s.address m id with
  | error refusal => exact .refused refusal
  | ok ptr =>
    obtain ⟨⟨dtype, format, count⟩, bytes⟩ := reshapes
    refine .answered ⟨?_, count⟩
    simp only [Binding.unshaped, TensorDesc.withShape, dtype, format, bytes]

include graph

/-- The launches of a node differ in the shapes of free outputs only. -/
theorem launchOf_reshaped (n : Node) :
    Answer.Alike Launch.Reshapes (r.launchOf m n) (s.launchOf m n) := by
  have inputs : (fun (entry : TensorId × TensorDesc) => r.binding m entry.1 entry.2) =
      fun entry => s.binding m entry.1 entry.2 := by
    funext entry
    simp only [binding, address_reshaped plan]
  have output (id : TensorId) : Answer.Alike Binding.Reshapes
      (do r.binding m id (← r.graph.readDesc id)) (do s.binding m id (← s.graph.readDesc id)) := by
    rcases graph.desc?_alike id with same | ⟨d, e, left, right, reshapes⟩
    · simp only [Graph.readDesc, same, graph.name]
      cases s.graph.desc? id with
      | none => exact .refused _
      | some d => exact binding_reshaped plan m id (.refl d)
    · rw [Graph.readDesc_eq_ok.mpr left, Graph.readDesc_eq_ok.mpr right]
      exact binding_reshaped plan m id reshapes
  have scratch : r.scratchOf m n = s.scratchOf m n := by
    simp only [scratchOf, plan]
  simp only [launchOf, inputs, scratch]
  refine (Answer.Alike.refl (fun _ => rfl) _).bind fun inputs _ same => ?_
  subst same
  refine (Answer.Alike.mapM n.outputs fun id _ => output id).bind fun bs cs outputs => ?_
  exact .answered (Launch.reshapes_of_outputs outputs)

end

section

variable {r : Runner} {free : Nat → Prop} (unread : r.graph.topology.Unread free) {a b : Pack}
  (packs : a.Reshapes free b) {n m : Nat} (first : (r.setup a).result = .ok n)
  (second : (r.setup b).result = .ok m)
include unread packs first second

/-- Setups on packs that are alike lead to runners that are alike. -/
theorem setup_reshapes : (r.setup a).state.graph.Reshapes free (r.setup b).state.graph ∧
    (r.setup a).state.plan = (r.setup b).state.plan ∧
    (r.setup a).state.state = (r.setup b).state.state := by
  obtain ⟨g, sizes, binding, resolution, sized, state, -⟩ := setup_ok first
  obtain ⟨h, sizes', binding', resolution', sized', state', -⟩ := setup_ok second
  have bound : g.Reshapes free h := by
    have alike := Graph.Reshapes.bind packs (congrArg Prod.snd binding) (congrArg Prod.snd binding')
    rwa [binding, binding'] at alike
  have boundUnread : g.topology.Unread free := Graph.topology_of_bind binding ▸ unread
  have resolved := bound.resolve boundUnread resolution resolution'
  obtain rfl : sizes = sizes' := by
    simp only [Graph.internalBytes, resolved.internals] at sized sized'
    exact Except.ok.inj (sized.symm.trans sized')
  rw [state, state', Graph.lifetimes_of_nodes resolved.nodes,
    Graph.scratchBytes_of_nodes resolved.nodes]
  exact ⟨resolved.assignFrom 0 _, rfl, rfl⟩

theorem callMemory_reshaped :
    (r.setup a).state.callMemory a = (r.setup b).state.callMemory b := by
  obtain ⟨graph, plan, state⟩ := setup_reshapes unread packs first second
  have inputs := graph.callAddresses_inputs b.inputs
  have outputs := graph.callAddresses_outputs packs.memories (desc?_setup first)
    (desc?_setup second)
  simp only [callMemory, callWorkspace, notPlanned, packs.inputs, inputs, outputs, plan, state,
    graph.name, packs.workspace]

/-- Calls on the packs are refused alike, or launch the same nodes on outputs of other shapes. -/
theorem launches_reshaped : Answer.Alike (List.Forall₂ Launch.Reshapes)
    ((r.setup a).state.launches a) ((r.setup b).state.launches b) := by
  obtain ⟨graph, plan, -⟩ := setup_reshapes unread packs first second
  simp only [launches, callMemory_reshaped unread packs first second, graph.nodes]
  cases (r.setup b).state.callMemory b with
  | error refusal => exact .refused refusal
  | ok m => exact Answer.Alike.mapM _ fun n _ => launchOf_reshaped graph plan m n

/-- The shapes that free outputs are bound under do not matter for what is dispatched, save that a
gated activation takes its width from its output. -/
theorem dispatches_of_reshaped :
    Answer.Alike
      (List.Forall₂ fun l k : Launch =>
        (l.param = .activation .swiglu → l.widths = k.widths) → l.plan = k.plan)
      ((r.setup a).state.launches a) ((r.setup b).state.launches b) := by
  refine (launches_reshaped unread packs first second).imp fun _ _ launches => ?_
  exact launches.imp fun _ _ same => Launch.plan_of_reshapes same

end

/-- A projection, normalized row by row. -/
def projection : Graph :=
  Graph.new "projection" ["x", "w"] ["y"] ["h"] [
    (Node.new "project" (.matMul (.linear false)) [.input 0, .input 1] [.internal 0]).withHook
      .matMulExtents,
    Node.new "normalize" (.softmax (-1)) [.internal 0] [.output 0]]

def projectionPack (dims : List Int) : Pack where
  inputs := [⟨.rowMajor .f32 ⟨[2, 3]⟩, .external 4096⟩, ⟨.rowMajor .f32 ⟨[4, 3]⟩, .external 8192⟩]
  outputs := [⟨.rowMajor .f32 ⟨dims⟩, .external 16384⟩]
  workspace := some ⟨65536, 256⟩

theorem projection_redispatched :
    let r : Runner := ⟨projection, .default, .unbound, .empty⟩
    let shaped := (r.setup (projectionPack [2, 4])).state.launches (projectionPack [2, 4])
    let flat := (r.setup (projectionPack [8])).state.launches (projectionPack [8])
    shaped.map List.length = .ok 2 ∧
      Answer.Alike
        (List.Forall₂ fun l k : Launch =>
          (l.param = .activation .swiglu → l.widths = k.widths) → l.plan = k.plan) shaped flat := by
  intro r shaped flat
  have launched : shaped.map List.length = .ok 2 := by decide +kernel
  have unread : r.graph.topology.Unread fun _ => True := by
    refine ⟨by simp [r, projection, Graph.topology, Node.topology, Graph.new, Node.new,
      Node.withHook], ?_⟩
    intro n member hook present
    obtain rfl : hook = .matMulExtents := by
      simp only [r, projection, Graph.topology, Graph.new, List.map_cons, List.map_nil,
        List.mem_cons, List.not_mem_nil, or_false] at member
      rcases member with rfl | rfl
      · exact (Option.some.inj present).symm
      · cases present
    exact fun _ _ _ _ _ => rfl
  have packs : (projectionPack [2, 4]).Reshapes (fun _ => True) (projectionPack [8]) := by
    refine ⟨rfl, rfl, fun index => ?_⟩
    cases index with
    | zero => exact .inr ⟨trivial, _, _, rfl, rfl, ⟨rfl, by decide, by decide⟩⟩
    | succ index => exact .inl rfl
  have first : (r.setup (projectionPack [2, 4])).result = .ok 256 := by decide +kernel
  have second : (r.setup (projectionPack [8])).result = .ok 256 := by decide +kernel
  exact ⟨launched, dispatches_of_reshaped unread packs first second⟩

/-- An output that is normalized row by row into another output. -/
def reread : Graph :=
  Graph.new "reread" ["x"] ["y", "z"] [] [
    Node.new "clip" (.activation .relu) [.input 0] [.output 0],
    Node.new "normalize" (.softmax (-1)) [.output 0] [.output 1]]

def rereadPack (dims : List Int) : Pack where
  inputs := [⟨.rowMajor .f32 ⟨[2, 4]⟩, .external 4096⟩]
  outputs := [⟨.rowMajor .f32 ⟨dims⟩, .external 8192⟩, ⟨.rowMajor .f32 ⟨[2, 4]⟩, .external 16384⟩]
  workspace := none

def rereadLaunches (dims : List Int) : List Launch := [
  ⟨"clip", .activation .relu, [⟨.rowMajor .f32 ⟨[2, 4]⟩, 4096, 32⟩],
    [⟨.rowMajor .f32 ⟨dims⟩, 8192, 32⟩], none⟩,
  ⟨"normalize", .softmax (-1), [⟨.rowMajor .f32 ⟨dims⟩, 8192, 32⟩],
    [⟨.rowMajor .f32 ⟨[2, 4]⟩, 16384, 32⟩], none⟩]

/-- Nodes that read a bound output take the shape that it is bound under. -/
theorem reread_by_bound_shape :
    ¬ ∀ (g : Graph) (config : Config) (r : Runner) (a b : Pack) (n m : Nat),
      Runner.new g config = .ok r → a.Reshapes (fun _ => True) b →
      (r.setup a).result = .ok n → (r.setup b).result = .ok m →
      Answer.Alike (List.Forall₂ fun l k : Launch => l.plan = k.plan)
        ((r.setup a).state.launches a) ((r.setup b).state.launches b) := by
  intro claimed
  let r : Runner := ⟨reread, .default, .unbound, .empty⟩
  have packs : (rereadPack [2, 4]).Reshapes (fun _ => True) (rereadPack [8]) := by
    refine ⟨rfl, rfl, fun index => ?_⟩
    cases index with
    | zero => exact .inr ⟨trivial, _, _, rfl, rfl, ⟨rfl, by decide, by decide⟩⟩
    | succ index => exact .inl rfl
  have first : (r.setup (rereadPack [2, 4])).result = .ok 0 := by decide +kernel
  have second : (r.setup (rereadPack [8])).result = .ok 0 := by decide +kernel
  have alike := claimed reread .default r _ _ 0 0 rfl packs first second
  have rows : (r.setup (rereadPack [2, 4])).state.launches (rereadPack [2, 4]) =
      .ok (rereadLaunches [2, 4]) := by decide +kernel
  have row : (r.setup (rereadPack [8])).state.launches (rereadPack [8]) =
      .ok (rereadLaunches [8]) := by decide +kernel
  rw [rows, row] at alike
  cases alike with
  | answered same =>
    cases same with
    | cons _ later =>
      cases later with
      | cons planned _ =>
        have extents := congrArg (fun plan => plan.toOption.map (List.map Dispatch.info)) planned
        revert extents
        decide +kernel

end Runner

end OperatorGraph
