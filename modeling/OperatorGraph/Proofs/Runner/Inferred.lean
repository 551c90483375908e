import OperatorGraph.Proofs.Graph.Hooks
import OperatorGraph.Proofs.Runner.Binding
import OperatorGraph.Proofs.Runner.Standing

set_option autoImplicit false

namespace OperatorGraph

theorem Node.resolve_infers {n : Node} {g : Graph} {checkViews : Bool} {r : Resolution}
    (resolved : n.resolve g checkViews = .ok r) : r.param.infer r.inputs = .ok r.outputs ∧
      r.outputs.length = n.outputs.length ∧ ∀ desc ∈ r.outputs, desc.overflows = false := by
  obtain ⟨_, s, -, -, inferred, param, inputs⟩ := resolve_eq_ok.mp resolved
  rw [← param, ← inputs]
  exact inferOutputs_eq_ok.mp inferred

theorem Hook.matMulExtents_ok {context : HookContext} {s after : HookState}
    (success : Hook.matMulExtents context s = (after, .ok ())) {p : MatMul}
    (product : s.param = .matMul p) : ∃ extents, after.param = .matMul { p with extents } := by
  obtain ⟨a, b, found, extents, -, -, present, -, rfl⟩ := matMulExtents_eq_ok.mp success
  obtain rfl := Operator.matMul.inj (product.symm.trans present)
  exact ⟨some extents, rfl⟩

namespace Node

variable {n : Node} {g : Graph} {checkViews : Bool} {r : Resolution}

theorem runHook_eq_ok {hook : Hook} (present : n.hook = some hook) {inputs : List TensorDesc}
    {s : HookState} : n.runHook g inputs = .ok s ↔
      hook ⟨n.name, g.desc?⟩ ⟨inputs, n.declared⟩ = (s, .ok ()) := by
  simp only [runHook, present]
  split
  · rename_i after success
    simp [success]
  · rename_i after refusal failed
    simp [failed]

variable (resolved : n.resolve g checkViews = .ok r)
include resolved

theorem resolve_shape {index : Nat} (plain : n.view? index = none) {id : TensorId}
    {desc : TensorDesc} (atId : n.inputs[index]? = some id)
    (atDesc : r.inputs[index]? = some desc) :
    ∃ held, g.desc? id = some held ∧ desc.shape = held.shape := by
  obtain ⟨read, answer, -, shape⟩ := (resolve_reads resolved).2 index id desc atId atDesc
  simp only [readInput, Answer.bind_eq_ok, plain, Answer.pure_eq_ok] at answer
  obtain ⟨held, present, rfl⟩ := answer
  exact ⟨held, Graph.readDesc_eq_ok.mp present, shape⟩

theorem resolve_param : ∃ read s, n.runHook g read = .ok s ∧ r.param = s.param := by
  obtain ⟨read, s, -, hooked, -, param, -⟩ := resolve_eq_ok.mp resolved
  exact ⟨read, s, hooked, param.symm⟩

theorem resolve_param_of_plain (plain : n.hook = none) : r.param = n.declared := by
  obtain ⟨read, s, hooked, same⟩ := resolve_param resolved
  simp only [runHook, plain, Except.ok.injEq] at hooked
  rw [same, ← hooked]

theorem resolve_param_of_product (hook : n.hook = some .matMulExtents) {p : MatMul}
    (declared : n.declared = .matMul p) : ∃ extents, r.param = .matMul { p with extents } := by
  obtain ⟨read, s, hooked, same⟩ := resolve_param resolved
  rw [runHook_eq_ok hook, declared] at hooked
  obtain ⟨extents, param⟩ := Hook.matMulExtents_ok hooked rfl
  exact ⟨extents, same.trans param⟩

end Node

namespace Graph

/-- What a slot holds for an inferred descriptor: an output that the caller has bound has to be
compatible, and anything else is what was inferred. -/
def Holds (g : Graph) (id : TensorId) (desc : TensorDesc) : Prop :=
  ∃ held, g.desc? id = some held ∧ held.Compatible desc ∧
    ((∀ index, id ≠ .output index) → held = desc)

/-- A tensor that is placed, or that the caller has bound in its place, has the inferred size. -/
theorem holds_placeFrom {node : String} {family : Family}
    {placed : List (TensorId × TensorDesc)} (once : (placed.map Prod.fst).Nodup) {g : Graph}
    {index : Nat} (has : ∀ entry ∈ placed, g.topology.Has entry.1)
    (success : (placeFrom node family g index placed).2 = .ok ()) {entry : TensorId × TensorDesc}
    (member : entry ∈ placed) :
    (placeFrom node family g index placed).1.Holds entry.1 entry.2 := by
  induction placed generalizing g index with
  | nil => simp at member
  | cons first rest ih =>
    obtain ⟨id, desc⟩ := first
    rw [List.map_cons, List.nodup_cons] at once
    have later (other) (inRest : other ∈ rest) : g.topology.Has other.1 :=
      has other (List.mem_cons_of_mem _ inRest)
    have elsewhere : ∀ other ∈ rest, other.1 ≠ id := by
      intro other inRest same
      have again : other.1 ∈ rest.map Prod.fst := List.mem_map_of_mem inRest
      exact once.1 (same ▸ again)
    have stays (next : Graph) {held : TensorDesc} (present : next.desc? id = some held) :
        (placeFrom node family next (index + 1) rest).1.desc? id = some held := by
      simpa only [desc?, tensor?, slot?_placeFrom node family elsewhere next (index + 1)]
        using present
    simp only [placeFrom] at success ⊢
    cases bound : g.boundOutput? id with
    | none =>
      simp only [bound] at success ⊢
      rcases List.mem_cons.mp member with rfl | inRest
      · have present : (g.slot? id).isSome := (slot?_isSome_iff g id).mpr (has _ member)
        exact ⟨desc, stays _ (desc?_fill_self present ⟨desc, .unbound⟩), ⟨rfl, rfl, rfl⟩,
          fun _ => rfl⟩
      · have same := (blank_eq_iff.mp (g.blank_fill id ⟨desc, .unbound⟩)).1
        exact ih once.2 (fun other inRest => same ▸ later other inRest) success inRest
    | some held =>
      simp only [bound] at success ⊢
      by_cases compatible : held.Compatible desc
      · simp only [compatible, if_true] at success ⊢
        rcases List.mem_cons.mp member with rfl | inRest
        · cases id with
          | output i => exact ⟨held, stays g bound, compatible, fun none => absurd rfl (none i)⟩
          | input i | internal i => simp [boundOutput?] at bound
        · exact ih once.2 later success inRest
      · simp [compatible] at success

/-- Every node was resolved with inputs that its parameter admits, and its outputs hold tensors of
the sizes that follow. -/
def Infers (g : Graph) : Prop :=
  ∀ n ∈ g.nodes, ∃ outputs, n.effective.infer n.resolvedInputs = .ok outputs ∧
    (∀ desc ∈ outputs, desc.overflows = false) ∧
    List.Forall₂ (fun id desc => ∃ held, g.desc? id = some held ∧ held.Compatible desc) n.outputs
      outputs

end Graph

namespace Runner

/-- After a successful setup a node has inferred its outputs from its inputs, and its slots hold
them. -/
theorem produced_setup {r : Runner} {pack : Pack} {bytes : Nat}
    (success : (r.setup pack).result = .ok bytes) (formed : r.graph.topology.WellFormed) {n : Node}
    (member : n ∈ (r.setup pack).state.graph.nodes) :
    ∃ outputs, n.effective.infer n.resolvedInputs = .ok outputs ∧
      (∀ desc ∈ outputs, desc.overflows = false) ∧
      List.Forall₂ (r.setup pack).state.graph.Holds n.outputs outputs := by
  obtain ⟨position, found⟩ := List.getElem?_of_mem member
  obtain ⟨bound, before, res, placed, boundFormed, resolution, foundBefore, resolved, placing,
    settled, rfl, descs⟩ := node_setup success formed found
  obtain ⟨inferred, count, fits⟩ := Node.resolve_infers resolved
  refine ⟨res.outputs, inferred, fits, Answer.forall₂_of_getElem? count.symm ?_⟩
  intro i id desc atId atDesc
  have inTopology : before.topology ∈ bound.topology.nodes :=
    List.mem_map_of_mem (List.mem_of_getElem? foundBefore)
  have ids : (before.outputs.zip res.outputs).map Prod.fst = before.outputs :=
    List.map_fst_zip (Nat.le_of_eq count.symm)
  have once : ((before.outputs.zip res.outputs).map Prod.fst).Nodup := by
    rw [ids]
    exact boundFormed.outputs_nodup inTopology
  have topology : (bound.resolvedTo r.config.checkViews position).topology = bound.topology :=
    Outcome.forEach_keeps (fun next => next.topology = bound.topology) _
      (fun next q _ kept =>
        (Graph.blank_eq_iff.mp (Graph.blank_resolveAt r.config.checkViews next q)).1.trans kept)
      bound rfl
  have written : id ∈ before.outputs := List.mem_of_getElem? atId
  have pair : (before.outputs.zip res.outputs)[i]? = some (id, desc) :=
    List.getElem?_zip_eq_some.mpr ⟨atId, atDesc⟩
  obtain ⟨held, present, compatible, same⟩ := Graph.holds_placeFrom once
    (fun entry inZip => topology ▸
      (boundFormed.writesExist _ inTopology entry.1 (List.of_mem_zip inZip).1).1)
    (congrArg Prod.snd placing) (List.mem_of_getElem? pair)
  refine ⟨held, ?_, compatible, same⟩
  have stays := Graph.desc?_resolve_of_written boundFormed resolution foundBefore written
  rw [placing] at present
  rw [descs id, stays, settled, ← present]
  simp only [Graph.desc?, Graph.tensor?, Graph.slot?_settle]

section

variable {r : Runner} {pack : Pack} {bytes : Nat} (success : (r.setup pack).result = .ok bytes)
  (formed : r.graph.topology.WellFormed) {n : Node}
  (member : n ∈ (r.setup pack).state.graph.nodes)
include success formed member

theorem read_setup {index : Nat} (plain : n.view? index = none) {id : TensorId} {desc : TensorDesc}
    (atId : n.inputs[index]? = some id) (atDesc : n.resolvedInputs[index]? = some desc) :
    ∃ held, (r.setup pack).state.graph.desc? id = some held ∧ desc.shape = held.shape := by
  obtain ⟨position, found⟩ := List.getElem?_of_mem member
  obtain ⟨bound, before, res, placed, boundFormed, resolution, foundBefore, resolved, -, -, rfl,
    descs⟩ := node_setup success formed found
  obtain ⟨held, present, shape⟩ := Node.resolve_shape resolved plain atId atDesc
  have stays := Graph.desc?_resolve_of_read boundFormed resolution foundBefore
    (List.mem_of_getElem? atId)
  exact ⟨held, by rw [descs id, stays, present], shape⟩

theorem effective_setup (plain : n.hook = none) : n.effective = n.declared := by
  obtain ⟨position, found⟩ := List.getElem?_of_mem member
  obtain ⟨_, before, res, _, -, -, -, resolved, -, -, rfl, -⟩ := node_setup success formed found
  exact Node.resolve_param_of_plain resolved plain

theorem effective_product_setup (hook : n.hook = some .matMulExtents) {p : MatMul}
    (declared : n.declared = .matMul p) : ∃ extents, n.effective = .matMul { p with extents } := by
  obtain ⟨position, found⟩ := List.getElem?_of_mem member
  obtain ⟨_, before, res, _, -, -, -, resolved, -, -, rfl, -⟩ := node_setup success formed found
  exact Node.resolve_param_of_product resolved hook declared

end

theorem infers_setup {r : Runner} {pack : Pack} {bytes : Nat}
    (success : (r.setup pack).result = .ok bytes) (formed : r.graph.topology.WellFormed) :
    (r.setup pack).state.graph.Infers := by
  intro n member
  obtain ⟨outputs, inferred, fits, holds⟩ := produced_setup success formed member
  refine ⟨outputs, inferred, fits, holds.imp ?_⟩
  rintro id desc ⟨held, present, compatible, -⟩
  exact ⟨held, present, compatible⟩

theorem graph_executions {calls : List Call} (executions : ∀ call ∈ calls, call.isExecution)
    (r : Runner) : (r.afterAll calls).graph = r.graph := by
  induction calls generalizing r with
  | nil => rfl
  | cons call rest ih =>
    have first : (r.after call).graph = r.graph := by
      cases call with
      | setUp _ | update _ => simp [Call.isExecution] at executions
      | execute registry stream pack => rw [after, r.execute_keeps pack registry stream]
    exact (ih (fun later member => executions later (by simp [member])) (r.after call)).trans first

theorem infers_of_standsOn {r : Runner} (formed : r.graph.topology.WellFormed)
    {calls : List Call} {pack : Pack} {bytes : Nat} (stands : r.StandsOn calls pack bytes) :
    (r.afterAll calls).graph.Infers := by
  obtain ⟨before, after, rfl, executions, success⟩ := stands
  obtain ⟨topology, -⟩ := r.topology_afterAll before
  rw [afterAll_append]
  show (((r.afterAll before).setup pack).state.afterAll after).graph.Infers
  rw [graph_executions executions]
  exact infers_setup success (topology ▸ formed)

end Runner

end OperatorGraph
