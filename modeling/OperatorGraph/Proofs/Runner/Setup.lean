import OperatorGraph.Proofs.Graph.WellFormed
import OperatorGraph.Proofs.Runner.Resolution

set_option autoImplicit false

namespace OperatorGraph

/-- A descriptor that reads a tensor, perhaps through a view. Where views are checked it has as many
elements. -/
def TensorDesc.Reads (checkViews : Bool) (desc held : TensorDesc) : Prop :=
  desc.dtype = held.dtype ∧ (checkViews → desc.shape.elementCount = held.shape.elementCount)

theorem Graph.readDesc_eq_ok {g : Graph} {id : TensorId} {desc : TensorDesc} :
    g.readDesc id = .ok desc ↔ g.desc? id = some desc := by
  cases found : g.desc? id <;> simp [Graph.readDesc, found]

namespace Node

theorem readInput_ok {n : Node} {g : Graph} {checkViews : Bool} {index : Nat} {id : TensorId}
    {desc : TensorDesc} (read : n.readInput g checkViews index id = .ok desc) :
    ∃ held, g.desc? id = some held ∧ desc.Reads checkViews held := by
  simp only [readInput, Answer.bind_eq_ok] at read
  obtain ⟨held, found, viewed⟩ := read
  refine ⟨held, Graph.readDesc_eq_ok.mp found, ?_⟩
  split at viewed
  · obtain rfl := Answer.pure_eq_ok.mp viewed
    exact ⟨rfl, fun _ => rfl⟩
  · rename_i view _
    split at viewed
    · simp at viewed
    · rename_i kept
      obtain rfl := Answer.pure_eq_ok.mp viewed
      refine ⟨rfl, fun checked => ?_⟩
      have keeps : view.KeepsCount held.shape := by simpa [checked] using kept
      exact keeps

/-- A node is resolved with the inputs that it reads, but for their formats, which a hook may
change. -/
theorem resolve_reads {n : Node} {g : Graph} {checkViews : Bool} {r : Resolution}
    (resolved : n.resolve g checkViews = .ok r) :
    r.inputs.length = n.inputs.length ∧
      ∀ (index : Nat) (id : TensorId) (desc : TensorDesc), n.inputs[index]? = some id →
        r.inputs[index]? = some desc → ∃ read, n.readInput g checkViews index id = .ok read ∧
          desc.dtype = read.dtype ∧ desc.shape = read.shape := by
  simp only [resolve, Answer.bind_eq_ok, Answer.pure_eq_ok, Answer.mapError_eq_ok] at resolved
  obtain ⟨read, reads, s, hooked, outputs, -, rfl⟩ := resolved
  have same : s.inputs.map (·.withFormat .rowMajor) = read.map (·.withFormat .rowMajor) := by
    unfold runHook at hooked
    split at hooked
    · obtain rfl := Except.ok.inj hooked
      rfl
    · rename_i hook _
      split at hooked
      · rename_i after success
        obtain rfl := Except.ok.inj hooked
        have kept := hook.sameTensors ⟨n.name, g.desc?⟩ ⟨read, n.declared⟩
        rwa [success] at kept
      · simp at hooked
  have lengths : read.length = n.inputs.length := by
    simpa using Answer.length_mapM reads
  constructor
  · have count := congrArg List.length same
    simpa [lengths] using count
  · intro index id desc atId atDesc
    have asRead := congrArg (fun list => list[index]?) same
    simp only [List.getElem?_map, atDesc, Option.map_some] at asRead
    obtain ⟨viewed, atRead, format⟩ := Option.map_eq_some_iff.mp asRead.symm
    have answer := Answer.getElem?_mapM reads index
    simp only [List.getElem?_zipIdx, atId, atRead, Option.map_some, Option.some.injEq,
      Nat.zero_add] at answer
    simp only [TensorDesc.withFormat, TensorDesc.mk.injEq] at format
    exact ⟨viewed, answer, format.1.symm, format.2.2.symm⟩

theorem inferOutputs_eq_ok {n : Node} {s : HookState} {outputs : List TensorDesc} :
    n.inferOutputs s = .ok outputs ↔ s.param.infer s.inputs = .ok outputs ∧
      outputs.length = n.outputs.length ∧ ∀ desc ∈ outputs, desc.overflows = false := by
  have fits (descs : List TensorDesc) :
      descs.zipIdx.find? (fun entry => entry.1.overflows) = none ↔
        ∀ desc ∈ descs, desc.overflows = false := by
    rw [List.find?_eq_none]
    constructor
    · intro all desc member
      obtain ⟨i, found⟩ := List.getElem?_of_mem member
      simpa using all (desc, i) (List.mk_mem_zipIdx_iff_getElem?.mpr found)
    · rintro all ⟨desc, i⟩ listed
      have fits := all desc (List.mem_of_getElem? (List.mk_mem_zipIdx_iff_getElem?.mp listed))
      simp [fits]
  simp only [inferOutputs, Answer.bind_eq_ok]
  constructor
  · rintro ⟨descs, inferred, answered⟩
    split at answered
    · simp at answered
    · rename_i count
      split at answered
      · simp at answered
      · rename_i none
        obtain rfl := Except.ok.inj answered
        exact ⟨inferred, Decidable.not_not.mp count, (fits descs).mp none⟩
  · rintro ⟨inferred, count, none⟩
    refine ⟨outputs, inferred, ?_⟩
    rw [if_neg (by simp [count]), (fits outputs).mpr none]

/-- The steps of resolving a node. -/
theorem resolve_eq_ok {n : Node} {g : Graph} {checkViews : Bool} {r : Resolution} :
    n.resolve g checkViews = .ok r ↔ ∃ inputs s, n.readInputs g checkViews = .ok inputs ∧
      n.runHook g inputs = .ok s ∧ n.inferOutputs s = .ok r.outputs ∧ s.param = r.param ∧
      s.inputs = r.inputs := by
  simp only [resolve, Answer.bind_eq_ok, Answer.pure_eq_ok, Answer.mapError_eq_ok]
  constructor
  · rintro ⟨inputs, reads, s, hooked, outputs, inferred, rfl⟩
    exact ⟨inputs, s, reads, hooked, inferred, rfl, rfl⟩
  · rintro ⟨inputs, s, reads, hooked, inferred, param, read⟩
    exact ⟨inputs, reads, s, hooked, r.outputs, inferred, by rw [param, read]⟩

/-- What a resolved node reads, and how much it produces. -/
theorem resolve_ok {n : Node} {g : Graph} {checkViews : Bool} {r : Resolution}
    (resolved : n.resolve g checkViews = .ok r) :
    r.inputs.length = n.inputs.length ∧ r.outputs.length = n.outputs.length ∧
      ∀ (index : Nat) (id : TensorId) (desc : TensorDesc), n.inputs[index]? = some id →
        r.inputs[index]? = some desc →
        ∃ held, g.desc? id = some held ∧ desc.Reads checkViews held := by
  obtain ⟨lengths, reads⟩ := resolve_reads resolved
  obtain ⟨_, s, -, -, inferred, -, -⟩ := resolve_eq_ok.mp resolved
  refine ⟨lengths, (inferOutputs_eq_ok.mp inferred).2.1, ?_⟩
  intro index id desc atId atDesc
  obtain ⟨read, answer, dtype, shape⟩ := reads index id desc atId atDesc
  obtain ⟨held, present, same⟩ := readInput_ok answer
  rw [TensorDesc.Reads, ← dtype, ← shape] at same
  exact ⟨held, present, same⟩

end Node

namespace Graph

theorem slot?_fill_of_ne {g : Graph} {id other : TensorId} (tensor : Tensor)
    (different : id ≠ other) : (g.fill id tensor).slot? other = g.slot? other := by
  cases id <;> cases other <;>
    simp only [ne_eq, TensorId.input.injEq, TensorId.output.injEq, TensorId.internal.injEq]
      at different <;>
    simp [fill, modifySlot, slot?, different]

theorem slot?_placeFrom (node : String) (family : Family) {placed : List (TensorId × TensorDesc)}
    {id : TensorId} (elsewhere : ∀ entry ∈ placed, entry.1 ≠ id) (g : Graph) (index : Nat) :
    (placeFrom node family g index placed).1.slot? id = g.slot? id := by
  induction placed generalizing g index with
  | nil => rfl
  | cons entry rest ih =>
    have later := fun next index =>
      ih (fun other member => elsewhere other (by simp [member])) next index
    simp only [placeFrom]
    split
    · rw [later, slot?_fill_of_ne _ (elsewhere entry (by simp))]
    · split
      · exact later _ _
      · rfl

@[simp] theorem slot?_settle (g : Graph) (position : Nat) (r : Resolution) (id : TensorId) :
    (g.settle position r).slot? id = g.slot? id := by
  cases id <;> rfl

section

variable (checkViews : Bool) (g : Graph)

/-- The graph right before the node at a position is resolved. -/
def resolvedTo (position : Nat) : Graph :=
  (Outcome.forEach (resolveAt checkViews) g (List.range position)).state

theorem slot?_resolveAt {position : Nat} {id : TensorId}
    (elsewhere : ∀ n, g.nodes[position]? = some n → id ∉ n.outputs) :
    (resolveAt checkViews g position).state.slot? id = g.slot? id := by
  rcases state_resolveAt checkViews g position with kept | ⟨n, r, placed, found, rfl, changed⟩
  · rw [kept]
  · have outside : ∀ entry ∈ n.outputs.zip r.outputs, entry.1 ≠ id := by
      intro entry member same
      exact elsewhere n found (same ▸ (List.of_mem_zip member).1)
    have placed := slot?_placeFrom n.name r.param.family outside g 0
    rcases changed with kept | kept
    · rw [kept, placed]
    · rw [kept, slot?_settle, placed]

theorem node_resolveAt_of_ne {position other : Nat} (different : position ≠ other) :
    (resolveAt checkViews g position).state.nodes[other]? = g.nodes[other]? := by
  rcases state_resolveAt checkViews g position with kept | ⟨n, r, placed, -, rfl, kept | kept⟩
  · rw [kept]
  · rw [kept, nodes_placeFrom]
  · simp only [kept, settle, nodes_placeFrom, List.getElem?_modify, different, if_false]
    cases g.nodes[other]? <;> rfl

theorem node_resolvedTo {position other : Nat} (later : position ≤ other) :
    (g.resolvedTo checkViews position).nodes[other]? = g.nodes[other]? :=
  Outcome.forEach_keeps (fun next => next.nodes[other]? = g.nodes[other]?) _
    (fun next q member kept => by
      have before := List.mem_range.mp member
      rw [node_resolveAt_of_ne checkViews next (by omega), kept]) g rfl

end

section

variable {checkViews : Bool} {g : Graph} (success : (resolve checkViews g).result = .ok ())
include success

/-- A node is resolved on the slots that the nodes before it had filled, and stays as it was
resolved. -/
theorem resolve_node {position : Nat} {n : Node} (found : g.nodes[position]? = some n) :
    ∃ r placed, n.resolve (g.resolvedTo checkViews position) checkViews = .ok r ∧
      placeFrom n.name r.param.family (g.resolvedTo checkViews position) 0
        (n.outputs.zip r.outputs) = (placed, .ok ()) ∧
      g.resolvedTo checkViews (position + 1) = placed.settle position r ∧
      (resolve checkViews g).state.nodes[position]? =
        some { n with effective := r.param, resolvedInputs := r.inputs } := by
  have inside := (List.getElem?_eq_some_iff.mp found).1
  obtain ⟨here, next⟩ := Outcome.forEach_range success inside
  have reached := (g.node_resolvedTo checkViews (Nat.le_refl position)).trans found
  obtain ⟨r, placed, resolution, placing, state⟩ := resolveAt_ok reached here
  have settled : g.resolvedTo checkViews (position + 1) = placed.settle position r :=
    next.trans state
  refine ⟨r, placed, resolution, placing, settled, ?_⟩
  have behind : position + 1 ≤ g.nodes.length := inside
  have stays := Outcome.forEach_range_keeps (fun h : Graph => h.nodes[position]?) success behind
    (fun later after _ => node_resolveAt_of_ne checkViews _ (by omega))
  have nodes := nodes_placeFrom n.name r.param.family (n.outputs.zip r.outputs)
    (g.resolvedTo checkViews position) 0
  simp only [placing] at nodes
  refine stays.trans ?_
  rw [show (Outcome.forEach (resolveAt checkViews) g (List.range (position + 1))).state =
    placed.settle position r from settled]
  simp only [settle, nodes, List.getElem?_modify, reached, if_true, Option.map_eq_map,
    Option.map_some]

theorem slot?_resolve_of_later {position : Nat} (inside : position ≤ g.nodes.length) (id : TensorId)
    (elsewhere : ∀ later n, position ≤ later → g.nodes[later]? = some n → id ∉ n.outputs) :
    (resolve checkViews g).state.slot? id = (g.resolvedTo checkViews position).slot? id := by
  refine Outcome.forEach_range_keeps (fun h : Graph => h.slot? id) success inside ?_
  intro later after _
  refine slot?_resolveAt checkViews _ fun m reached => ?_
  have same := g.node_resolvedTo checkViews (Nat.le_refl later)
  exact elsewhere later m after (same.symm.trans reached)

end

/-- No node from a reader on produces what it reads. -/
theorem not_mem_later_outputs {g : Graph} (formed : g.topology.WellFormed) {position later : Nat}
    {n m : Node} (found : g.nodes[position]? = some n) (after : position ≤ later)
    (foundLater : g.nodes[later]? = some m) {id : TensorId} (read : id ∈ n.inputs) :
    id ∉ m.outputs := by
  intro written
  have atPosition := topology_of_found found
  have member : m.topology ∈ g.topology.nodes :=
    List.mem_map_of_mem (List.mem_of_getElem? foundLater)
  have notInput := (formed.writesExist m.topology member id written).2
  obtain ⟨earlier, before, producer⟩ :=
    formed.readsEarlier position n.topology atPosition id read notInput
  have same := formed.producer_unique producer (produces_of_writes foundLater written)
  omega

section

variable {checkViews : Bool} {g : Graph} (formed : g.topology.WellFormed)
  (success : (resolve checkViews g).result = .ok ()) {position : Nat} {n : Node}
  (found : g.nodes[position]? = some n) {id : TensorId}
include formed success found

theorem desc?_resolve_of_read (read : id ∈ n.inputs) :
    (resolve checkViews g).state.desc? id = (g.resolvedTo checkViews position).desc? id := by
  have inside := (List.getElem?_eq_some_iff.mp found).1
  have slot := slot?_resolve_of_later success (Nat.le_of_lt inside) id
    fun later m after foundLater => not_mem_later_outputs formed found after foundLater read
  simp only [desc?, tensor?, slot]

theorem desc?_resolve_of_written (written : id ∈ n.outputs) :
    (resolve checkViews g).state.desc? id = (g.resolvedTo checkViews (position + 1)).desc? id := by
  have inside := (List.getElem?_eq_some_iff.mp found).1
  have slot := slot?_resolve_of_later success inside id fun later m after foundLater again => by
    have same := formed.producer_unique (produces_of_writes found written)
      (produces_of_writes foundLater again)
    omega
  simp only [desc?, tensor?, slot]

end

/-- What a node names at two places it reads at both: it neither reads what it produces nor produces
a tensor twice. -/
theorem reads_of_repeated {g : Graph} (formed : g.topology.WellFormed) {position : Nat} {n : Node}
    (found : g.nodes[position]? = some n) {id : TensorId} {k l : Nat} (apart : k ≠ l)
    (first : (n.inputs ++ n.outputs)[k]? = some id)
    (second : (n.inputs ++ n.outputs)[l]? = some id) : k < n.inputs.length := by
  by_contra beyond
  rw [List.getElem?_append_right (by omega)] at first
  by_cases reads : l < n.inputs.length
  · rw [List.getElem?_append_left reads] at second
    exact not_mem_later_outputs formed found (Nat.le_refl _) found (List.mem_of_getElem? second)
      (List.mem_of_getElem? first)
  · rw [List.getElem?_append_right (by omega)] at second
    have inside := (List.getElem?_eq_some_iff.mp first).1
    have inTopology : n.topology ∈ g.topology.nodes :=
      List.mem_map_of_mem (List.mem_of_getElem? found)
    have once := (List.getElem?_inj inside (formed.outputs_nodup inTopology)).mp
      (first.trans second.symm)
    omega

theorem lifetimes_of_nodes {g h : Graph} (same : g.nodes = h.nodes) (bytes : List Nat) :
    g.lifetimes bytes = h.lifetimes bytes := by
  simp only [lifetimes, lastPosition, same]

theorem scratchBytes_of_nodes {g h : Graph} (same : g.nodes = h.nodes) :
    g.scratchBytes = h.scratchBytes := by
  simp only [scratchBytes, same]

theorem byteSize_assigned (slot : Slot) (offset : Nat) :
    Slot.byteSize { slot with tensor := slot.tensor.map fun t =>
      { t with memory := .workspace offset } } = slot.byteSize := by
  obtain ⟨name, tensor⟩ := slot
  cases tensor <;> rfl

/-- Places change where internal tensors lie, and nothing else. -/
theorem assignFrom_keeps (offsets : List Nat) (g : Graph) (index : Nat) :
    (g.assignFrom index offsets).nodes = g.nodes ∧
      (g.assignFrom index offsets).internalBytes = g.internalBytes ∧
      ∀ id, (g.assignFrom index offsets).desc? id = g.desc? id := by
  induction offsets generalizing g index with
  | nil => simp [assignFrom]
  | cons offset rest ih =>
    obtain ⟨nodes, bytes, descs⟩ := ih (g.modifySlot (.internal index) fun slot =>
      { slot with tensor := slot.tensor.map fun t => { t with memory := .workspace offset } })
      (index + 1)
    refine ⟨nodes, bytes.trans ?_, fun id => (descs id).trans ?_⟩
    · have sizes := map_modify_of_keeps g.internals index _ Slot.byteSize
        (byteSize_assigned · offset)
      have whole (table : List Slot) :
          table.mapM Slot.byteSize = (table.map Slot.byteSize).mapM id := by
        rw [List.mapM_map]
        rfl
      simp only [internalBytes, modifySlot]
      rw [whole, sizes, ← whole]
    · cases id with
      | input i => rfl
      | output i => rfl
      | internal i =>
        simp only [desc?, tensor?, slot?, modifySlot, List.getElem?_modify]
        by_cases here : index = i
        · cases g.internals[i]? with
          | none => rfl
          | some slot => cases tensor : slot.tensor <;> simp [here, tensor]
        · simp [here]

end Graph

namespace Runner

section

variable (r : Runner) (pack : Pack)

theorem blank_bind : (r.bind pack).state.graph.blank = r.graph.blank := by
  simp only [Runner.bind, Graph.blank_bind, reset, Graph.blank_clear]

theorem blank_resolve : r.resolve.state.graph.blank = r.graph.blank :=
  Graph.blank_resolve r.config.checkViews r.graph

theorem blank_assignFrom (offsets : List Nat) (g : Graph) (index : Nat) :
    (g.assignFrom index offsets).blank = g.blank := by
  induction offsets generalizing g index with
  | nil => rfl
  | cons offset rest ih =>
    rw [Graph.assignFrom, ih]
    exact g.blank_modifySlot _ _ fun _ => rfl

theorem blank_planWorkspace : r.planWorkspace.state.graph.blank = r.graph.blank := by
  simp only [planWorkspace]
  split
  · rfl
  · exact blank_assignFrom _ _ _

theorem config_planWorkspace : r.planWorkspace.state.config = r.config := by
  simp only [planWorkspace]
  split <;> rfl

/-- A setup leaves the graph as it was built, and the configuration. -/
theorem blank_setup : (r.setup pack).state.graph.blank = r.graph.blank ∧
    (r.setup pack).state.config = r.config := by
  have bound := r.blank_bind pack
  simp only [setup]
  cases binding : (r.bind pack).result with
  | error refusal =>
    simp only [Outcome.andThen_of_error _ binding]
    exact ⟨bound, rfl⟩
  | ok _ =>
    have resolved := (r.bind pack).state.blank_resolve
    simp only [Outcome.andThen_of_ok _ binding]
    cases resolution : (r.bind pack).state.resolve.result with
    | error refusal =>
      simp only [Outcome.andThen_of_error _ resolution]
      exact ⟨resolved.trans bound, rfl⟩
    | ok _ =>
      simp only [Outcome.andThen_of_ok _ resolution, blank_planWorkspace, config_planWorkspace]
      exact ⟨resolved.trans bound, rfl⟩

end

section

variable {r : Runner} {pack : Pack} {bytes : Nat} (success : (r.setup pack).result = .ok bytes)
include success

/-- The steps of a setup that succeeds. -/
theorem setup_ok : ∃ bound sizes, r.graph.clear.bind pack = (bound, .ok ()) ∧
    (Graph.resolve r.config.checkViews bound).result = .ok () ∧
    let resolved := (Graph.resolve r.config.checkViews bound).state
    resolved.internalBytes = .ok sizes ∧
    let plan := WorkspacePlan.build (resolved.lifetimes sizes) resolved.scratchBytes
      r.config.workspaceAlignment r.config.workspaceStrategy
    (r.setup pack).state =
      ⟨resolved.assignFrom 0 plan.offsets, r.config, .workspacePlanned, plan⟩ ∧
    bytes = plan.totalBytes := by
  obtain ⟨_, binding, later⟩ := Outcome.andThen_eq_ok.mp success
  obtain ⟨_, resolution, planning⟩ := Outcome.andThen_eq_ok.mp later
  have state : (r.setup pack).state =
      { (r.bind pack).state.resolve.state with state := .shapesResolved }.planWorkspace.state := by
    rw [setup, Outcome.andThen_of_ok _ binding, Outcome.andThen_of_ok _ resolution]
  simp only [planWorkspace] at planning state
  cases sized : (r.bind pack).state.resolve.state.graph.internalBytes with
  | error refusal => simp [sized, Outcome.failed] at planning
  | ok sizes =>
    simp only [sized, Except.ok.injEq] at planning state
    exact ⟨(r.graph.clear.bind pack).1, sizes, Prod.ext rfl binding, resolution, sized, state,
      planning.symm⟩

/-- A runner that setup succeeded for is planned for the sizes of its internal tensors. -/
theorem planned_setup : ∃ sizes, (r.setup pack).state.graph.internalBytes = .ok sizes ∧
    (r.setup pack).state.plan = WorkspacePlan.build ((r.setup pack).state.graph.lifetimes sizes)
      (r.setup pack).state.graph.scratchBytes r.config.workspaceAlignment
      r.config.workspaceStrategy ∧
    (r.setup pack).state.state = .workspacePlanned ∧ (r.setup pack).state.config = r.config ∧
    bytes = (r.setup pack).state.plan.totalBytes := by
  obtain ⟨bound, sizes, -, -, sized, state, total⟩ := setup_ok success
  rw [state]
  obtain ⟨nodes, kept, -⟩ := Graph.assignFrom_keeps _ _ 0
  refine ⟨sizes, kept.trans sized, ?_, rfl, rfl, total⟩
  rw [Graph.lifetimes_of_nodes nodes, Graph.scratchBytes_of_nodes nodes]

/-- A setup that succeeds gives places to what it resolved. -/
theorem resolved_setup : ∃ bound, r.graph.clear.bind pack = (bound, .ok ()) ∧
    (Graph.resolve r.config.checkViews bound).result = .ok () ∧
    (r.setup pack).state.graph.nodes = (Graph.resolve r.config.checkViews bound).state.nodes ∧
    ∀ id, (r.setup pack).state.graph.desc? id =
      (Graph.resolve r.config.checkViews bound).state.desc? id := by
  obtain ⟨bound, sizes, binding, resolution, -, state, -⟩ := setup_ok success
  rw [state]
  obtain ⟨nodes, -, descs⟩ := Graph.assignFrom_keeps _ _ 0
  exact ⟨bound, binding, resolution, nodes, descs⟩

/-- How a node came to be as a successful setup left it. -/
theorem node_setup (formed : r.graph.topology.WellFormed) {position : Nat} {n : Node}
    (found : (r.setup pack).state.graph.nodes[position]? = some n) :
    ∃ bound before res placed, bound.topology.WellFormed ∧
      (Graph.resolve r.config.checkViews bound).result = .ok () ∧
      bound.nodes[position]? = some before ∧
      before.resolve (bound.resolvedTo r.config.checkViews position) r.config.checkViews = .ok res ∧
      Graph.placeFrom before.name res.param.family
        (bound.resolvedTo r.config.checkViews position) 0 (before.outputs.zip res.outputs) =
          (placed, .ok ()) ∧
      bound.resolvedTo r.config.checkViews (position + 1) = placed.settle position res ∧
      n = { before with effective := res.param, resolvedInputs := res.inputs } ∧
      ∀ id, (r.setup pack).state.graph.desc? id =
        (Graph.resolve r.config.checkViews bound).state.desc? id := by
  obtain ⟨bound, binding, resolution, nodes, descs⟩ := resolved_setup success
  have boundFormed : bound.topology.WellFormed := Graph.topology_of_bind binding ▸ formed
  rw [nodes] at found
  have inside : position < bound.nodes.length := by
    have resolved := Graph.blank_resolve r.config.checkViews bound
    have lengths := congrArg (fun g : Graph => g.nodes.length) resolved
    simp only [Graph.blank, Graph.unresolved, Graph.mapNodes, Graph.clear, List.length_map]
      at lengths
    rw [← lengths]
    exact (List.getElem?_eq_some_iff.mp found).1
  obtain ⟨before, foundBefore⟩ : ∃ before, bound.nodes[position]? = some before :=
    ⟨_, List.getElem?_eq_getElem inside⟩
  obtain ⟨res, placed, resolved, placing, settled, atEnd⟩ :=
    Graph.resolve_node resolution foundBefore
  rw [found, Option.some.injEq] at atEnd
  exact ⟨bound, before, res, placed, boundFormed, resolution, foundBefore, resolved, placing,
    settled, atEnd, descs⟩

/-- After a successful setup every node reads what the slots of its inputs hold. -/
theorem reads_setup (formed : r.graph.topology.WellFormed) {position : Nat} {n : Node}
    (found : (r.setup pack).state.graph.nodes[position]? = some n) :
    n.resolvedInputs.length = n.inputs.length ∧
      ∀ (index : Nat) (id : TensorId) (desc : TensorDesc), n.inputs[index]? = some id →
        n.resolvedInputs[index]? = some desc →
        ∃ held, (r.setup pack).state.graph.desc? id = some held ∧
          desc.Reads r.config.checkViews held := by
  obtain ⟨bound, before, res, placed, boundFormed, resolution, foundBefore, resolved, -, -, rfl,
    descs⟩ := node_setup success formed found
  obtain ⟨lengths, -, reads⟩ := Node.resolve_ok resolved
  refine ⟨lengths, fun index id desc atId atDesc => ?_⟩
  obtain ⟨held, present, same⟩ := reads index id desc atId atDesc
  have stays := Graph.desc?_resolve_of_read boundFormed resolution foundBefore
    (List.mem_of_getElem? atId)
  exact ⟨held, by rw [descs id, stays, present], same⟩

end

/-- A runner whose setup failed is not ready to execute. -/
theorem not_planned_of_failed {r : Runner} {pack : Pack} {refusal : Error}
    (failed : (r.setup pack).result = .error refusal) :
    (r.setup pack).state.state.isPlanned = false := by
  simp only [setup] at failed ⊢
  cases binding : (r.bind pack).result with
  | error reason =>
    rw [Outcome.andThen_of_error _ binding]
    rfl
  | ok _ =>
    rw [Outcome.andThen_of_ok _ binding] at failed ⊢
    cases resolution : (r.bind pack).state.resolve.result with
    | error reason =>
      simp only [Outcome.andThen_of_error _ resolution]
      rfl
    | ok _ =>
      simp only [Outcome.andThen_of_ok _ resolution, planWorkspace] at failed ⊢
      cases sized : (r.bind pack).state.resolve.state.graph.internalBytes with
      | error reason => rfl
      | ok sizes => simp [sized] at failed

end Runner

end OperatorGraph
