import Mathlib.Data.List.Nodup
import OperatorGraph.Graph.Validate
import OperatorGraph.Proofs.Answers

set_option autoImplicit false

namespace OperatorGraph

namespace Node

/-- The node has as many inputs and outputs as its operator takes, and views on inputs it has. -/
structure WellShaped (n : Node) : Prop where
  inputCount : n.inputs.length = n.declared.inputCount
  outputCount : n.outputs.length = n.declared.outputCount
  viewsOnInputs : ∀ index, (n.view? index).isSome → index < n.inputs.length

theorem checkArity_eq_ok {n : Node} : n.checkArity = .ok () ↔
    n.inputs.length = n.declared.inputCount ∧ n.outputs.length = n.declared.outputCount := by
  simp only [checkArity, ne_eq, ite_not]
  split <;> simp_all

theorem mem_viewIndices {n : Node} {index : Nat} :
    index ∈ n.viewIndices ↔ (n.view? index).isSome := by
  rw [viewIndices, List.mem_filter, List.mem_range]
  refine ⟨fun listed => listed.2, fun viewed => ⟨?_, viewed⟩⟩
  by_contra outside
  simp [view?, List.getElem?_eq_none (Nat.le_of_not_lt outside)] at viewed

theorem checkViews_eq_ok {n : Node} :
    n.checkViews = .ok () ↔ ∀ index, (n.view? index).isSome → index < n.inputs.length := by
  have search : n.checkViews = .ok () ↔ n.viewIndices.find? (n.inputs.length ≤ ·) = none := by
    unfold checkViews
    split <;> simp_all
  simp only [search, List.find?_eq_none, mem_viewIndices, decide_eq_true_eq, Nat.not_le]

end Node

namespace Graph

theorem firstDuplicate?_eq_none {names seen : List String} :
    firstDuplicate? seen names = none ↔ names.Nodup ∧ ∀ name ∈ names, name ∉ seen := by
  induction names generalizing seen with
  | nil => simp [firstDuplicate?]
  | cons name rest ih =>
    by_cases known : name ∈ seen
    · simp [firstDuplicate?, known]
    · rw [firstDuplicate?, if_neg known, ih, List.nodup_cons, List.forall_mem_cons]
      constructor
      · rintro ⟨distinct, unseen⟩
        exact ⟨⟨fun again => unseen name again List.mem_cons_self, distinct⟩, known,
          fun other member old => unseen other member (List.mem_cons_of_mem _ old)⟩
      · rintro ⟨⟨fresh, distinct⟩, -, unseen⟩
        refine ⟨distinct, fun other member old => ?_⟩
        rcases List.mem_cons.mp old with rfl | old
        · exact fresh member
        · exact unseen other member old

/-- What a node has to satisfy where some tensors are produced already. -/
structure Admits (g : Graph) (produced : List TensorId) (n : Node) : Prop where
  shaped : n.WellShaped
  reads : ∀ id ∈ n.inputs, (g.slot? id).isSome ∧ (id.isInput ∨ id ∈ produced)
  writes : ∀ id ∈ n.outputs, (g.slot? id).isSome ∧ id.isInput = false
  fresh : n.outputs.Nodup ∧ ∀ id ∈ n.outputs, id ∉ produced

theorem checkInput_eq_ok {g : Graph} {produced : List TensorId} {node : String} {id : TensorId} :
    g.checkInput produced node id = .ok () ↔
      (g.slot? id).isSome ∧ (id.isInput ∨ id ∈ produced) := by
  unfold checkInput
  cases g.slot? id with
  | none => simp
  | some slot => simp [Classical.or_iff_not_imp_left]

theorem checkOutput_eq_ok {g : Graph} {node : String} {produced after : List TensorId}
    {id : TensorId} : g.checkOutput node produced id = .ok after ↔
      ((g.slot? id).isSome ∧ id.isInput = false) ∧ id ∉ produced ∧ id :: produced = after := by
  unfold checkOutput
  cases g.slot? id with
  | none => simp
  | some slot =>
    cases id.isInput with
    | true => simp
    | false => by_cases known : id ∈ produced <;> simp [known]

theorem checkOutputs_eq_ok {g : Graph} {node : String} {outputs produced after : List TensorId} :
    outputs.foldlM (g.checkOutput node) produced = .ok after ↔
      (∀ id ∈ outputs, (g.slot? id).isSome ∧ id.isInput = false) ∧
        (outputs.Nodup ∧ ∀ id ∈ outputs, id ∉ produced) ∧ outputs.reverse ++ produced = after := by
  induction outputs generalizing produced with
  | nil => simp
  | cons id rest ih =>
    simp only [List.foldlM_cons, Answer.bind_eq_ok, checkOutput_eq_ok, ih, List.forall_mem_cons,
      List.nodup_cons, List.reverse_cons, List.append_assoc, List.singleton_append]
    constructor
    · rintro ⟨_, ⟨here, fresh, rfl⟩, later, ⟨distinct, unseen⟩, order⟩
      simp only [List.mem_cons, not_or] at unseen
      exact ⟨⟨here, later⟩, ⟨⟨fun again => (unseen id again).1 rfl, distinct⟩, fresh,
        fun other member => (unseen other member).2⟩, order⟩
    · rintro ⟨⟨here, later⟩, ⟨⟨once, distinct⟩, fresh, unseen⟩, order⟩
      refine ⟨_, ⟨here, fresh, rfl⟩, later, ⟨distinct, fun other member => ?_⟩, order⟩
      simp only [List.mem_cons, not_or]
      exact ⟨fun same => once (same ▸ member), unseen other member⟩

theorem checkNode_eq_ok {g : Graph} {produced after : List TensorId} {n : Node} :
    g.checkNode produced n = .ok after ↔
      g.Admits produced n ∧ n.outputs.reverse ++ produced = after := by
  simp only [checkNode, Answer.bind_eq_ok, checkOutputs_eq_ok]
  constructor
  · rintro ⟨⟨⟩, arity, ⟨⟩, views, ⟨⟩, reads, writes, fresh, order⟩
    obtain ⟨inputs, outputs⟩ := Node.checkArity_eq_ok.mp arity
    exact ⟨⟨⟨inputs, outputs, Node.checkViews_eq_ok.mp views⟩,
      fun id read => checkInput_eq_ok.mp (Answer.forM_eq_ok.mp reads id read), writes, fresh⟩, order⟩
  · rintro ⟨⟨⟨inputs, outputs, views⟩, reads, writes, fresh⟩, order⟩
    exact ⟨(), Node.checkArity_eq_ok.mpr ⟨inputs, outputs⟩, (), Node.checkViews_eq_ok.mpr views, (),
      Answer.forM_eq_ok.mpr fun id read => checkInput_eq_ok.mpr (reads id read), writes, fresh,
      order⟩

theorem mem_outputs_take {nodes : List Node} {position : Nat} {id : TensorId} :
    id ∈ (nodes.take position).flatMap Node.outputs ↔
      ∃ earlier < position, ∃ n, nodes[earlier]? = some n ∧ id ∈ n.outputs := by
  rw [List.mem_flatMap]
  constructor
  · rintro ⟨n, member, written⟩
    obtain ⟨earlier, found⟩ := List.getElem?_of_mem member
    rw [List.getElem?_take] at found
    split at found
    · rename_i before
      exact ⟨earlier, before, n, found, written⟩
    · cases found
  · rintro ⟨earlier, before, n, found, written⟩
    refine ⟨n, List.mem_of_getElem? (i := earlier) ?_, written⟩
    rw [List.getElem?_take, if_pos before, found]

/-- The nodes produce no tensor twice if each produces different ones, none of which an earlier one
produces. -/
theorem nodup_outputs_iff {nodes : List Node} : (nodes.flatMap Node.outputs).Nodup ↔
    ∀ position n, nodes[position]? = some n → n.outputs.Nodup ∧
      ∀ id ∈ n.outputs, id ∉ (nodes.take position).flatMap Node.outputs := by
  rw [List.nodup_flatMap, List.pairwise_iff_getElem]
  constructor
  · rintro ⟨each, apart⟩ position n found
    refine ⟨each n (List.mem_of_getElem? found), fun id written again => ?_⟩
    obtain ⟨earlier, before, m, foundM, writes⟩ := mem_outputs_take.mp again
    obtain ⟨inside, rfl⟩ := List.getElem?_eq_some_iff.mp found
    obtain ⟨insideM, rfl⟩ := List.getElem?_eq_some_iff.mp foundM
    exact apart earlier position insideM inside before writes written
  · intro fresh
    refine ⟨fun n member => ?_, fun i j insideI insideJ before id first second => ?_⟩
    · obtain ⟨position, found⟩ := List.getElem?_of_mem member
      exact (fresh position n found).1
    · exact (fresh j _ (List.getElem?_eq_getElem insideJ)).2 id second
        (mem_outputs_take.mpr ⟨i, before, _, List.getElem?_eq_getElem insideI, first⟩)

/-- The pass admits every node where the nodes before it produced what they write. -/
theorem checkNodes_eq_ok {g : Graph} {nodes : List Node} {produced after : List TensorId} :
    nodes.foldlM g.checkNode produced = .ok after ↔
      (∀ position n, nodes[position]? = some n →
        g.Admits (((nodes.take position).flatMap Node.outputs).reverse ++ produced) n) ∧
      (nodes.flatMap Node.outputs).reverse ++ produced = after := by
  induction nodes generalizing produced with
  | nil => simp
  | cons n rest ih =>
    simp only [List.foldlM_cons, Answer.bind_eq_ok, checkNode_eq_ok, ih]
    have shift (position : Nat) :
        (((n :: rest).take (position + 1)).flatMap Node.outputs).reverse ++ produced =
          ((rest.take position).flatMap Node.outputs).reverse ++
            (n.outputs.reverse ++ produced) := by
      simp
    constructor
    · rintro ⟨_, ⟨admitted, rfl⟩, later, order⟩
      refine ⟨fun position m found => ?_, by simp [← order]⟩
      cases position with
      | zero =>
        obtain rfl : n = m := by simpa using found
        exact admitted
      | succ position =>
        rw [shift]
        exact later position m (by simpa using found)
    · rintro ⟨admitted, order⟩
      refine ⟨_, ⟨admitted 0 n rfl, rfl⟩, fun position m found => ?_, by simp [← order]⟩
      rw [← shift]
      exact admitted (position + 1) m (by simpa using found)

theorem mem_outputIds_append_internalIds {g : Graph} {id : TensorId} :
    id ∈ g.outputIds ++ g.internalIds ↔ (g.slot? id).isSome ∧ id.isInput = false := by
  cases id <;> simp [outputIds, internalIds, slot?, TensorId.isInput]

/-- A graph whose nodes can run in order. -/
structure WellFormed (g : Graph) : Prop where
  distinctNames : (g.nodes.map Node.name).Nodup
  shaped : ∀ n ∈ g.nodes, n.WellShaped
  idsExist : ∀ n ∈ g.nodes, ∀ id ∈ n.inputs ++ n.outputs, (g.slot? id).isSome
  readsEarlier : ∀ (position : Nat) (n : Node), g.nodes[position]? = some n → ∀ id ∈ n.inputs,
    id.isInput ∨ ∃ earlier < position, ∃ m : Node, g.nodes[earlier]? = some m ∧ id ∈ m.outputs
  writesNoInput : ∀ n ∈ g.nodes, ∀ id ∈ n.outputs, id.isInput = false
  producedOnce : ∀ id ∈ g.outputIds ++ g.internalIds,
    (g.nodes.flatMap Node.outputs).count id = 1

theorem WellFormed.mem_outputs {g : Graph} (formed : g.WellFormed) {id : TensorId}
    (listed : id ∈ g.outputIds ++ g.internalIds) : id ∈ g.nodes.flatMap Node.outputs := by
  have once := formed.producedOnce id listed
  exact List.count_pos_iff.mp (by omega)

theorem WellFormed.writes {g : Graph} (formed : g.WellFormed) {n : Node} (member : n ∈ g.nodes)
    {id : TensorId} (written : id ∈ n.outputs) : (g.slot? id).isSome ∧ id.isInput = false :=
  ⟨formed.idsExist n member id (List.mem_append_right _ written),
    formed.writesNoInput n member id written⟩

theorem WellFormed.nodup_outputs {g : Graph} (formed : g.WellFormed) :
    (g.nodes.flatMap Node.outputs).Nodup := by
  refine List.nodup_iff_count_le_one.mpr fun id => ?_
  by_cases produced : id ∈ g.nodes.flatMap Node.outputs
  · obtain ⟨n, member, written⟩ := List.mem_flatMap.mp produced
    exact Nat.le_of_eq (formed.producedOnce id
      (mem_outputIds_append_internalIds.mpr (formed.writes member written)))
  · rw [List.count_eq_zero_of_not_mem produced]
    exact Nat.zero_le 1

theorem check_eq_ok {g : Graph} : g.check = .ok () ↔ (g.nodes.map Node.name).Nodup ∧
    (∀ position n, g.nodes[position]? = some n →
      g.Admits ((g.nodes.take position).flatMap Node.outputs).reverse n) ∧
    ∀ id ∈ g.outputIds ++ g.internalIds, id ∈ g.nodes.flatMap Node.outputs := by
  unfold check
  split
  · rename_i name duplicate
    simp only [reduceCtorEq, false_iff]
    rintro ⟨distinct, -⟩
    have none : firstDuplicate? [] (g.nodes.map Node.name) = none :=
      firstDuplicate?_eq_none.mpr ⟨distinct, fun _ _ => List.not_mem_nil⟩
    simp [none] at duplicate
  · rename_i none
    have distinct := (firstDuplicate?_eq_none.mp none).1
    simp only [Answer.bind_eq_ok, checkNodes_eq_ok, List.append_nil]
    constructor
    · rintro ⟨_, ⟨admitted, rfl⟩, complete⟩
      refine ⟨distinct, admitted, ?_⟩
      split at complete
      · cases complete
      · rename_i nothing
        simpa using List.find?_eq_none.mp nothing
    · rintro ⟨-, admitted, all⟩
      refine ⟨_, ⟨admitted, rfl⟩, ?_⟩
      have nothing : (g.outputIds ++ g.internalIds).find?
          (· ∉ (g.nodes.flatMap Node.outputs).reverse) = .none :=
        List.find?_eq_none.mpr (by simpa using all)
      rw [nothing]

/-- Validation accepts exactly the well-formed graphs. -/
theorem check_eq_ok_iff_wellFormed {g : Graph} : g.check = .ok () ↔ g.WellFormed := by
  rw [check_eq_ok]
  constructor
  · rintro ⟨distinct, admitted, all⟩
    have node (n : Node) (member : n ∈ g.nodes) : ∃ produced, g.Admits produced n := by
      obtain ⟨position, found⟩ := List.getElem?_of_mem member
      exact ⟨_, admitted position n found⟩
    have once : (g.nodes.flatMap Node.outputs).Nodup :=
      nodup_outputs_iff.mpr fun position n found => by
        simpa using (admitted position n found).fresh
    refine ⟨distinct, fun n member => ?_, fun n member id mentioned => ?_,
      fun position n found id read => ?_, fun n member id written => ?_, fun id listed => ?_⟩
    · obtain ⟨_, admitted⟩ := node n member
      exact admitted.shaped
    · obtain ⟨_, admitted⟩ := node n member
      rcases List.mem_append.mp mentioned with read | written
      · exact (admitted.reads id read).1
      · exact (admitted.writes id written).1
    · have known := ((admitted position n found).reads id read).2
      rwa [List.mem_reverse, mem_outputs_take] at known
    · obtain ⟨_, admitted⟩ := node n member
      exact (admitted.writes id written).2
    · exact List.count_eq_one_of_mem once (all id listed)
  · intro formed
    refine ⟨formed.distinctNames, fun position n found => ?_, fun id => formed.mem_outputs⟩
    have member := List.mem_of_getElem? found
    refine ⟨formed.shaped n member, fun id read => ⟨?_, ?_⟩, fun id => formed.writes member, ?_⟩
    · exact formed.idsExist n member id (List.mem_append_left _ read)
    · rw [List.mem_reverse, mem_outputs_take]
      exact formed.readsEarlier position n found id read
    · simpa using nodup_outputs_iff.mp formed.nodup_outputs position n found

/-- A graph is valid if and only if it is well formed. -/
theorem validate_eq_ok_iff (g : Graph) : g.validate = .ok () ↔ g.WellFormed :=
  Answer.mapError_eq_ok.trans check_eq_ok_iff_wellFormed

end Graph

end OperatorGraph
