import OperatorGraph.Proofs.Runner.Binding

set_option autoImplicit false

namespace OperatorGraph

/-- The error blames the graph: it is not well formed, or a table lacks an entry for one of its
tensors. -/
def Error.blamesGraph : Error → Bool
  | .invalidGraph _ _ | .fault _ => true
  | _ => false

namespace Graph

theorem refusal_of_bindFrom {side : Side} {tensors : List Tensor} {g : Graph} {index : Nat}
    {refusal : Error} (failed : (bindFrom side g index tensors).2 = .error refusal) :
    refusal.blamesGraph = false := by
  induction tensors generalizing g index with
  | nil => simp [bindFrom] at failed
  | cons tensor rest ih =>
    by_cases overflows : tensor.desc.overflows
    · simp only [bindFrom, overflows, if_true, Except.error.injEq] at failed
      rw [← failed]
      rfl
    · simp only [bindFrom, overflows, Bool.false_eq_true, if_false] at failed
      exact ih failed

theorem refusal_of_checkCount {g : Graph} {side : Side} {tensors : List Tensor} {refusal : Error}
    (failed : g.checkCount side tensors = .error refusal) : refusal.blamesGraph = false := by
  unfold checkCount at failed
  split at failed
  · simp at failed
  · rw [← Except.error.inj failed]
    rfl

theorem refusal_of_bindSide {side : Side} {tensors : List Tensor} {g : Graph} {refusal : Error}
    (failed : (g.bindSide side tensors).2 = .error refusal) : refusal.blamesGraph = false := by
  unfold bindSide at failed
  split at failed
  · exact refusal_of_bindFrom failed
  · rename_i reason counted
    obtain rfl := Except.error.inj failed
    exact refusal_of_checkCount counted

theorem refusal_of_bind {g : Graph} {pack : Pack} {refusal : Error}
    (failed : (g.bind pack).2 = .error refusal) : refusal.blamesGraph = false := by
  unfold Graph.bind at failed
  split at failed
  · exact refusal_of_bindSide failed
  · rename_i bound reason inputs
    obtain rfl := Except.error.inj failed
    exact refusal_of_bindSide (congrArg Prod.snd inputs)

theorem refusal_of_placeFrom {node : String} {family : Family}
    {placed : List (TensorId × TensorDesc)} {g : Graph} {index : Nat} {refusal : Error}
    (failed : (placeFrom node family g index placed).2 = .error refusal) :
    refusal.blamesGraph = false := by
  induction placed generalizing g index with
  | nil => simp [placeFrom] at failed
  | cons entry rest ih =>
    simp only [placeFrom] at failed
    split at failed
    · exact ih failed
    · split at failed
      · exact ih failed
      · rw [← Except.error.inj failed]
        rfl

end Graph

/-- A node whose inputs are all bound does not find fault with its graph. -/
theorem Node.refusal_of_resolve {n : Node} {g : Graph} {checkViews : Bool} {refusal : Error}
    (bound : ∀ id ∈ n.inputs, ∃ desc, g.desc? id = some desc)
    (failed : n.resolve g checkViews = .error refusal) : refusal.blamesGraph = false := by
  simp only [resolve, Answer.bind_eq_error] at failed
  rcases failed with reading | ⟨inputs, -, hooking | ⟨s, -, inferring | ⟨outputs, -, answered⟩⟩⟩
  · obtain ⟨⟨id, index⟩, member, refused⟩ := Answer.of_mapM_eq_error reading
    obtain ⟨desc, present⟩ :=
      bound id (List.mem_of_getElem? (List.mk_mem_zipIdx_iff_getElem?.mp member))
    simp only [readInput, Answer.bind_eq_error, Graph.readDesc_eq_ok.mpr present] at refused
    rcases refused with unread | ⟨held, -, viewing⟩
    · simp at unread
    · split at viewing
      · simp [pure, Except.pure] at viewing
      · split at viewing
        · rw [← Except.error.inj viewing]
          rfl
        · simp [pure, Except.pure] at viewing
  · unfold runHook at hooking
    split at hooking
    · simp at hooking
    · split at hooking
      · simp at hooking
      · rw [← Except.error.inj hooking]
        rfl
  · cases inferred : n.inferOutputs s with
    | ok outputs => simp [inferred, Except.mapError] at inferring
    | error source =>
      simp only [inferred, Except.mapError, Except.error.injEq] at inferring
      rw [← inferring]
      rfl
  · simp [pure, Except.pure] at answered

namespace Graph

/-- Every input is bound, and so is everything that a node before a position produces. -/
def BoundTo (g : Graph) (position : Nat) : Prop :=
  ∀ id, g.topology.Has id →
    (id.isInput = false → ∃ earlier < position, g.topology.Produces earlier id) →
    ∃ desc, g.desc? id = some desc

theorem boundTo_of_bind {g : Graph} {pack : Pack} (success : (g.bind pack).2 = .ok ()) :
    (g.bind pack).1.BoundTo 0 := by
  intro id has produced
  have topology := (blank_eq_iff.mp (g.blank_bind pack)).1
  rw [topology] at has
  cases id with
  | input index =>
    have inside : index < pack.inputs.length := by
      have count := count_bind success .input
      have slot := (g.has_tensorId .input index).mp has
      rwa [← count] at slot
    have bound : (pack.tensors .input)[index]? = some pack.inputs[index] :=
      List.getElem?_eq_getElem inside
    exact ⟨_, desc?_bind success .input bound⟩
  | output index | internal index =>
    obtain ⟨earlier, before, -⟩ := produced rfl
    exact absurd before (Nat.not_lt_zero earlier)

section

variable {g : Graph} {position : Nat} {n : Node} (formed : g.topology.WellFormed)
  (bound : g.BoundTo position) (found : g.nodes[position]? = some n)
include formed bound found

theorem bound_of_read {id : TensorId} (read : id ∈ n.inputs) : ∃ desc, g.desc? id = some desc := by
  have atPosition := topology_of_found found
  have member : n.topology ∈ g.topology.nodes := List.mem_of_getElem? atPosition
  exact bound id (formed.readsExist n.topology member id read) fun notInput =>
    formed.readsEarlier position n.topology atPosition id read notInput

end

/-- A slot that holds a tensor holds one after any slot is filled. -/
theorem bound_fill {g : Graph} {id : TensorId} (other : TensorId) (tensor : Tensor)
    (bound : ∃ desc, g.desc? id = some desc) :
    ∃ desc, (g.fill other tensor).desc? id = some desc := by
  by_cases same : other = id
  · subst same
    obtain ⟨desc, present⟩ := bound
    have held : (g.slot? other).isSome := by
      cases slot : g.slot? other with
      | none => simp [desc?, tensor?, slot] at present
      | some slot => rfl
    exact ⟨_, desc?_fill_self held tensor⟩
  · obtain ⟨desc, present⟩ := bound
    refine ⟨desc, ?_⟩
    simpa only [desc?, tensor?, slot?_fill_of_ne _ same] using present

theorem bound_placeFrom {node : String} {family : Family} {id : TensorId}
    (placed : List (TensorId × TensorDesc)) {g : Graph} (index : Nat)
    (bound : ∃ desc, g.desc? id = some desc) :
    ∃ desc, (placeFrom node family g index placed).1.desc? id = some desc := by
  induction placed generalizing g index with
  | nil => exact bound
  | cons entry rest ih =>
    simp only [placeFrom]
    split
    · exact ih _ (bound_fill _ _ bound)
    · split
      · exact ih _ bound
      · exact bound

/-- Outputs that are placed are there afterwards. -/
theorem bound_of_placed {node : String} {family : Family} {placed : List (TensorId × TensorDesc)}
    {g : Graph} {index : Nat} (has : ∀ entry ∈ placed, g.topology.Has entry.1)
    (success : (placeFrom node family g index placed).2 = .ok ()) {id : TensorId}
    (member : id ∈ placed.map Prod.fst) :
    ∃ desc, (placeFrom node family g index placed).1.desc? id = some desc := by
  induction placed generalizing g index with
  | nil => simp at member
  | cons entry rest ih =>
    obtain ⟨first, desc⟩ := entry
    have here := has (first, desc) (by simp)
    have later (entry) (member : entry ∈ rest) := has entry (by simp [member])
    simp only [List.map_cons, List.mem_cons] at member
    simp only [placeFrom] at success ⊢
    cases atFirst : g.boundOutput? first with
    | none =>
      simp only [atFirst] at success ⊢
      rcases member with rfl | member
      · exact bound_placeFrom rest _
          ⟨desc, desc?_fill_self ((slot?_isSome_iff g _).mpr here) ⟨desc, .unbound⟩⟩
      · have same := (blank_eq_iff.mp (g.blank_fill first ⟨desc, .unbound⟩)).1
        exact ih (fun entry member => same ▸ later entry member) success member
    | some bound =>
      simp only [atFirst] at success ⊢
      by_cases compatible : bound.Compatible desc
      · simp only [compatible, if_true] at success ⊢
        rcases member with rfl | member
        · refine bound_placeFrom rest _ ⟨bound, ?_⟩
          cases id with
          | output index => exact atFirst
          | input index | internal index => simp [boundOutput?] at atFirst
        · exact ih later success member
      · simp [compatible] at success

section

variable {checkViews : Bool} {g : Graph} {position : Nat} (formed : g.topology.WellFormed)
  (bound : g.BoundTo position)
include formed bound

theorem boundTo_resolveAt (success : (resolveAt checkViews g position).result = .ok ()) :
    (resolveAt checkViews g position).state.BoundTo (position + 1) := by
  intro id has produced
  rw [(blank_eq_iff.mp (blank_resolveAt checkViews g position)).1] at has produced
  cases found : g.nodes[position]? with
  | none =>
    simp only [resolveAt, found, Outcome.done]
    refine bound id has fun notInput => ?_
    obtain ⟨earlier, before, n, atEarlier, writes⟩ := produced notInput
    have inside := (List.getElem?_eq_some_iff.mp atEarlier).1
    have outside := List.getElem?_eq_none_iff.mp found
    simp only [topology, List.length_map] at inside
    exact ⟨earlier, by omega, n, atEarlier, writes⟩
  | some n =>
    obtain ⟨r, placed, resolution, placing, state⟩ := resolveAt_ok found success
    have outputs := (Node.resolve_ok resolution).2.1
    have ids : (n.outputs.zip r.outputs).map Prod.fst = n.outputs :=
      List.map_fst_zip (by omega)
    have inTopology : n.topology ∈ g.topology.nodes :=
      List.mem_map_of_mem (List.mem_of_getElem? found)
    have stays : (∃ desc, placed.desc? id = some desc) →
        ∃ desc, (resolveAt checkViews g position).state.desc? id = some desc := by
      rintro ⟨desc, present⟩
      refine ⟨desc, ?_⟩
      rw [state]
      simpa only [desc?, tensor?, slot?_settle] using present
    apply stays
    have placedGraph := congrArg Prod.fst placing
    simp only at placedGraph
    rw [← placedGraph]
    by_cases written : id ∈ n.outputs
    · refine bound_of_placed ?_ (congrArg Prod.snd placing) (by rwa [ids])
      intro entry member
      have named : entry.1 ∈ n.outputs := (List.of_mem_zip member).1
      exact (formed.writesExist n.topology inTopology entry.1 named).1
    · refine bound_placeFrom _ _ (bound id has fun notInput => ?_)
      obtain ⟨earlier, before, m, atEarlier, writes⟩ := produced notInput
      refine ⟨earlier, ?_, m, atEarlier, writes⟩
      have different : earlier ≠ position := by
        rintro rfl
        rw [topology_of_found found, Option.some.injEq] at atEarlier
        subst atEarlier
        exact written writes
      omega

theorem refusal_of_resolveAt {refusal : Error}
    (failed : (resolveAt checkViews g position).result = .error refusal) :
    refusal.blamesGraph = false := by
  simp only [resolveAt] at failed
  split at failed
  · simp [Outcome.done] at failed
  · rename_i n found
    split at failed
    · rename_i reason unresolved
      obtain rfl := Except.error.inj failed
      exact Node.refusal_of_resolve (fun id read => bound_of_read formed bound found read)
        unresolved
    · rename_i r resolution
      split at failed
      · rename_i placed reason mismatch
        obtain rfl := Except.error.inj failed
        exact refusal_of_placeFrom (congrArg Prod.snd mismatch)
      · simp at failed

end

section

variable (checkViews : Bool) {g : Graph} (formed : g.topology.WellFormed) (bound : g.BoundTo 0)
include formed bound

/-- Resolution finds everything bound that it reads. If it succeeds, everything is. -/
theorem resolve_complete :
    ((resolve checkViews g).result = .ok () →
      ∀ id, g.topology.Has id → ∃ desc, (resolve checkViews g).state.desc? id = some desc) ∧
    ∀ refusal, (resolve checkViews g).result = .error refusal → refusal.blamesGraph = false := by
  obtain ⟨succeeds, refuses⟩ := Outcome.forEach_range_invariant g.nodes.length g
    (fun position (h : Graph) => h.topology = g.topology ∧ h.BoundTo position)
    (fun refusal : Error => refusal.blamesGraph = false)
    (fun h position _ ⟨same, reached⟩ success =>
      ⟨(blank_eq_iff.mp (blank_resolveAt checkViews h position)).1.trans same,
        boundTo_resolveAt (same ▸ formed) reached success⟩)
    (fun h position refusal _ ⟨same, reached⟩ failed =>
      refusal_of_resolveAt (same ▸ formed) reached failed)
    ⟨rfl, bound⟩
  refine ⟨fun success id has => ?_, refuses⟩
  obtain ⟨same, reached⟩ := succeeds success
  refine reached id (same ▸ has) fun notInput => ?_
  obtain ⟨position, n, atPosition, writes⟩ := formed.allProduced id has notInput
  have inside := (List.getElem?_eq_some_iff.mp atPosition).1
  simp only [topology, List.length_map] at inside
  rw [same]
  exact ⟨position, inside, n, atPosition, writes⟩

end

theorem refusal_of_internalBytes {g : Graph} {refusal : Error}
    (failed : g.internalBytes = .error refusal) : refusal.blamesGraph = false := by
  obtain ⟨slot, -, unsized⟩ := Answer.of_mapM_eq_error failed
  unfold Slot.byteSize at unsized
  split at unsized
  · rw [← Except.error.inj unsized]
    rfl
  · split at unsized
    · rw [← Except.error.inj unsized]
      rfl
    · simp at unsized

end Graph

namespace Runner

/-- No setup over a well formed graph finds fault with the graph. -/
theorem refusal_of_setup {r : Runner} (formed : r.graph.topology.WellFormed) {pack : Pack}
    {refusal : Error} (failed : (r.setup pack).result = .error refusal) :
    refusal.blamesGraph = false := by
  simp only [setup] at failed
  cases binding : (r.bind pack).result with
  | error reason =>
    rw [Outcome.andThen_of_error _ binding] at failed
    obtain rfl := Except.error.inj failed
    exact Graph.refusal_of_bind binding
  | ok _ =>
    rw [Outcome.andThen_of_ok _ binding] at failed
    have bound := Graph.boundTo_of_bind binding
    have same := (Graph.blank_eq_iff.mp (r.blank_bind pack)).1
    obtain ⟨-, refuses⟩ := Graph.resolve_complete r.config.checkViews (same ▸ formed) bound
    cases resolution : (r.bind pack).state.resolve.result with
    | error reason =>
      simp only [Outcome.andThen_of_error _ resolution] at failed
      obtain rfl := Except.error.inj failed
      exact refuses _ resolution
    | ok _ =>
      simp only [Outcome.andThen_of_ok _ resolution, planWorkspace] at failed
      split at failed
      · rename_i reason unsized
        obtain rfl := Except.error.inj failed
        exact Graph.refusal_of_internalBytes unsized
      · simp at failed

/-- A planned runner in which every slot is filled and every node is resolved. -/
structure Complete (r : Runner) : Prop where
  formed : r.graph.topology.WellFormed
  bound : ∀ id, r.graph.topology.Has id → ∃ desc, r.graph.desc? id = some desc
  reads : ∀ n ∈ r.graph.nodes, n.resolvedInputs.length = n.inputs.length ∧
    ∀ (index : Nat) (id : TensorId) (desc : TensorDesc), n.inputs[index]? = some id →
      n.resolvedInputs[index]? = some desc →
      ∃ held, r.graph.desc? id = some held ∧ desc.Reads r.config.checkViews held
  planned : ∃ sizes, r.graph.internalBytes = .ok sizes ∧
    r.plan = WorkspacePlan.build (r.graph.lifetimes sizes) r.graph.scratchBytes
      r.config.workspaceAlignment r.config.workspaceStrategy

/-- A setup that succeeds leaves a complete runner. -/
theorem complete_setup {r : Runner} (formed : r.graph.topology.WellFormed) {pack : Pack}
    {bytes : Nat} (success : (r.setup pack).result = .ok bytes) :
    (r.setup pack).state.Complete := by
  have topology := (Graph.blank_eq_iff.mp (r.blank_setup pack).1).1
  obtain ⟨sizes, sized, plan, -, config, -⟩ := planned_setup success
  obtain ⟨g, binding, resolution, -, descs⟩ := resolved_setup success
  have same := Graph.topology_of_bind binding
  have bound : g.BoundTo 0 := by
    have start := Graph.boundTo_of_bind (congrArg Prod.snd binding)
    rwa [binding] at start
  obtain ⟨held, -⟩ := Graph.resolve_complete r.config.checkViews (same ▸ formed) bound
  refine ⟨topology ▸ formed, fun id has => ?_, fun n member => ?_, sizes, sized, ?_⟩
  · rw [descs]
    exact held resolution id (same ▸ topology ▸ has)
  · obtain ⟨position, found⟩ := List.getElem?_of_mem member
    rw [config]
    exact reads_setup success formed found
  · rw [config]
    exact plan

end Runner

end OperatorGraph
