import OperatorGraph.Operation.Builtin
import OperatorGraph.Proofs.Runner.Zeros

set_option autoImplicit false

namespace OperatorGraph

namespace Patch

/-- An edit reaches the node that the topology has under the name, and changes its declared
parameter. -/
theorem edit_ok {p : Patch} {operation node : String} {family : Family} {op : Operator}
    (change : Operator → Operator)
    (declared : p.graph.declared[p.graph.topology.nodes.findIdx (·.name = node)]? = some op)
    (ofFamily : op.family = family) :
    ∃ next, p.edit operation node family change = (next, .ok ()) ∧
      next.graph = p.graph.modifyDeclared
        (p.graph.topology.nodes.findIdx (·.name = node)) change := by
  have position : p.graph.topology.nodes.findIdx (·.name = node) =
      p.graph.nodes.findIdx (·.name = node) := by
    simp only [Graph.topology, List.findIdx_map]
    rfl
  rw [position] at declared ⊢
  simp only [Graph.declared, List.getElem?_map, Option.map_eq_some_iff] at declared
  obtain ⟨n, found, rfl⟩ := declared
  refine ⟨{ p.touch (p.graph.nodes.findIdx (·.name = node)) with
    graph := p.graph.modifyDeclared (p.graph.nodes.findIdx (·.name = node)) change }, ?_, rfl⟩
  simp only [edit, Graph.findNode?, found, Option.map_some, ofFamily, if_true, graph_touch]

end Patch

namespace Operation

/-- The graph was built from the parameter, or updated for it since. -/
def Serves (op : Operation) (g : Graph) (p : op.Param) : Prop :=
  ∃ built, op.build p = .ok built ∧ g.Like built

structure Faithful (op : Operation) : Prop where
  builds : ∀ p, ∃ built, op.build p = .ok built ∧ built.validate = .ok () ∧
    built.blank = built ∧ built.topology.FoldsZeros
  keeps : ∀ g p q, op.equals p q → op.Serves g p → op.Serves g q
  patches : ∀ g p q, op.sameTopology p q → op.Serves g p →
    ∃ patch, op.update q (.start g) = (patch, .ok ()) ∧ op.Serves patch.graph q

/-- An operation is faithful if it builds a graph from every parameter and its updates turn the
graph of one parameter into that of another. -/
theorem faithful_of_graph {op : Operation} (graph : op.Param → Graph)
    (total : ∀ p, op.build p = .ok (graph p)) (valid : ∀ p, (graph p).validate = .ok ())
    (blank : ∀ p, (graph p).blank = graph p) (folds : ∀ p, (graph p).topology.FoldsZeros)
    (keeps : ∀ p q, op.equals p q → (graph p).Like (graph q))
    (patches : ∀ g p q, op.sameTopology p q → g.Like (graph p) →
      ∃ patch, op.update q (.start g) = (patch, .ok ()) ∧ patch.graph.Like (graph q)) :
    op.Faithful := by
  have builtFrom {p : op.Param} {built : Graph} (build : op.build p = .ok built) :
      built = graph p :=
    Except.ok.inj (build.symm.trans (total p))
  refine ⟨fun p => ⟨graph p, total p, valid p, blank p, folds p⟩, ?_, ?_⟩
  · rintro g p q same ⟨built, build, alike⟩
    rw [builtFrom build] at alike
    exact ⟨graph q, total q, alike.trans (keeps p q same)⟩
  · rintro g p q same ⟨built, build, alike⟩
    rw [builtFrom build] at alike
    obtain ⟨patch, updated, served⟩ := patches g p q same alike
    exact ⟨patch, updated, graph q, total q, served⟩

section

variable {g built rebuilt : Graph} {node : String} {family : Family}
  {change change' : Operator → Operator}

/-- An update that edits one node is faithful if it changes the declared parameter of that node to
the one of the rebuilt graph, and the other declared parameters are the same. -/
theorem like_of_edit (operation : String) (alike : g.Like built)
    (topology : rebuilt.topology = built.topology)
    (ofFamily : (built.declared[built.topology.nodes.findIdx (·.name = node)]?).map
      Operator.family = some family)
    (natural : ∀ op, (change op).foldZeros = change' op.foldZeros)
    (declared : (built.declared.map Operator.foldZeros).modify
      (built.topology.nodes.findIdx (·.name = node)) change' =
        rebuilt.declared.map Operator.foldZeros) :
    ∃ patch, (Patch.start g).edit operation node family change = (patch, .ok ()) ∧
      patch.graph.Like rebuilt := by
  have folded := congrArg
    (fun ops : List Operator => ops[built.topology.nodes.findIdx (·.name = node)]?) alike.declared
  simp only [List.getElem?_map] at folded
  obtain ⟨op, atNode, ofNode⟩ := Option.map_eq_some_iff.mp ofFamily
  rw [atNode, Option.map_some, Option.map_eq_some_iff] at folded
  obtain ⟨held, present, same⟩ := folded
  have heldFamily : held.family = family := by
    rw [← Operator.family_foldZeros, same, Operator.family_foldZeros, ofNode]
  rw [← alike.topology] at present declared
  obtain ⟨patch, edited, graph⟩ := Patch.edit_ok (p := .start g) change present heldFamily
  refine ⟨patch, edited, ?_, ?_⟩
  · rw [graph, Graph.topology_modifyDeclared, topology]
    exact alike.topology
  · rw [graph, Graph.declared_modifyDeclared, Graph.map_modify_of_commutes _ _ natural, ← declared]
    exact congrArg (fun ops : List Operator => ops.modify _ change') alike.declared

end

end Operation

namespace AddNorm

theorem like_of_equals {p q : AddNorm} (same : p.equals q) : p.graph.Like q.graph := by
  simp only [equals, Bool.and_eq_true, decide_eq_true_eq] at same
  obtain ⟨epsilon, dims⟩ := same
  have folded := Scalar.foldZero_of_equals epsilon
  constructor
  · simp only [graph, dims]
    rfl
  · simp only [graph, Graph.declared, Graph.new, Node.new, Node.withHook, List.map_cons,
      List.map_nil, Operator.foldZeros, folded]

theorem update_faithful {g : Graph} {p q : AddNorm} (same : p.sameTopology q)
    (alike : g.Like p.graph) :
    ∃ patch, q.update (.start g) = (patch, .ok ()) ∧ patch.graph.Like q.graph := by
  have dims : p.normDims = q.normDims := of_decide_eq_true same
  have topology : q.graph.topology = p.graph.topology := by
    simp only [graph, dims]
    rfl
  exact Operation.like_of_edit "add_norm" alike topology rfl
    (Operator.foldZeros_withEpsilon · q.epsilon) rfl

theorem foldsZeros (p : AddNorm) : p.graph.topology.FoldsZeros := by
  intro n member hook present
  simp only [graph, Graph.topology, Graph.new, List.map_cons, List.map_nil, List.mem_cons,
    List.not_mem_nil, or_false] at member
  rcases member with rfl | rfl
  · cases present
  · obtain rfl := Option.some.inj present
    exact Hook.layerNormAxis_foldsZeros p.normDims

theorem faithful : operation.Faithful :=
  Operation.faithful_of_graph graph (fun _ => rfl) (fun _ => rfl) (fun _ => rfl) foldsZeros
    (fun _ _ same => like_of_equals same) (fun _ _ _ same alike => update_faithful same alike)

end AddNorm

namespace Mlp

theorem like_of_equals {p q : Mlp} (same : p.equals q) : p.graph.Like q.graph := by
  simp only [equals, Bool.and_eq_true, decide_eq_true_eq] at same
  obtain ⟨⟨activation, bias⟩, epsilon⟩ := same
  have folded := Scalar.foldZero_of_equals epsilon
  constructor
  · simp only [graph, inputs, Mlp.bias, activation, bias]
    rfl
  · simp only [graph, Graph.declared, Graph.new, Node.new, Node.withHook, Node.withView,
      List.map_cons, List.map_nil, Operator.foldZeros, folded, activation, bias]

theorem update_faithful {g : Graph} {p q : Mlp} (same : p.sameTopology q)
    (alike : g.Like p.graph) :
    ∃ patch, q.update (.start g) = (patch, .ok ()) ∧ patch.graph.Like q.graph := by
  simp only [sameTopology, Bool.and_eq_true, decide_eq_true_eq] at same
  obtain ⟨bias, activation⟩ := same
  have topology : q.graph.topology = p.graph.topology := by
    simp only [graph, inputs, Mlp.bias, bias, activation]
    rfl
  have declared : (p.graph.declared.map Operator.foldZeros).modify
      (p.graph.topology.nodes.findIdx (·.name = "norm")) (Operator.withEpsilon q.epsilon.foldZero) =
        q.graph.declared.map Operator.foldZeros := by
    simp only [graph, bias, activation]
    rfl
  exact Operation.like_of_edit "mlp" alike topology rfl
    (Operator.foldZeros_withEpsilon · q.epsilon) declared

theorem foldsZeros (p : Mlp) : p.graph.topology.FoldsZeros := by
  intro n member hook present
  simp only [graph, Graph.topology, Graph.new, List.map_cons, List.map_nil, List.mem_cons,
    List.not_mem_nil, or_false] at member
  rcases member with rfl | rfl | rfl | rfl
  · obtain rfl := Option.some.inj present
    exact Hook.layerNormAxis_foldsZeros 1
  · obtain rfl := Option.some.inj present
    exact Hook.matMulExtents_foldsZeros
  · cases present
  · obtain rfl := Option.some.inj present
    exact Hook.matMulExtents_foldsZeros

theorem validate_graph (p : Mlp) : p.graph.validate = .ok () := by
  obtain ⟨activation, bias, epsilon⟩ := p
  cases bias <;> rfl

theorem blank_graph (p : Mlp) : p.graph.blank = p.graph := by
  obtain ⟨activation, bias, epsilon⟩ := p
  cases bias <;> rfl

theorem faithful : operation.Faithful :=
  Operation.faithful_of_graph graph (fun _ => rfl) validate_graph blank_graph foldsZeros
    (fun _ _ same => like_of_equals same) (fun _ _ _ same alike => update_faithful same alike)

end Mlp

namespace Attention

theorem like_of_equals {p q : Attention} (same : operation.equals p q) : p.graph.Like q.graph := by
  obtain rfl : p = q := of_decide_eq_true same
  exact ⟨rfl, rfl⟩

theorem update_faithful {g : Graph} {p q : Attention} (same : p.sameTopology q)
    (alike : g.Like p.graph) :
    ∃ patch, q.update (.start g) = (patch, .ok ()) ∧ patch.graph.Like q.graph := by
  simp only [sameTopology, Bool.and_eq_true, decide_eq_true_eq] at same
  obtain ⟨⟨heads, kvHeads⟩, headDim⟩ := same
  have declared : (p.graph.declared.map Operator.foldZeros).modify
      (p.graph.topology.nodes.findIdx (·.name = "attn"))
      (Operator.withBatch q.tokenOffset q.seqLen) = q.graph.declared.map Operator.foldZeros := by
    simp only [graph, scores, heads, kvHeads, headDim]
    rfl
  exact Operation.like_of_edit "attention" alike rfl rfl
    (Operator.foldZeros_withBatch · q.tokenOffset q.seqLen) declared

theorem foldsZeros (p : Attention) : p.graph.topology.FoldsZeros := by
  intro n member hook present
  simp only [graph, Graph.topology, Graph.new, List.map_cons, List.map_nil, List.mem_cons,
    List.not_mem_nil, or_false] at member
  rcases member with rfl | rfl | rfl
  · obtain rfl := Option.some.inj present
    exact Hook.matMulExtents_foldsZeros
  · cases present
  · obtain rfl := Option.some.inj present
    exact Hook.matMulExtents_foldsZeros

theorem faithful : operation.Faithful :=
  Operation.faithful_of_graph graph (fun _ => rfl) (fun _ => rfl) (fun _ => rfl) foldsZeros
    (fun _ _ same => like_of_equals same) (fun _ _ _ same alike => update_faithful same alike)

end Attention

/-- The operations of the library are faithful. -/
theorem Builtin.faithful (b : Builtin) : b.operation.Faithful :=
  match b with
  | .addNorm => AddNorm.faithful
  | .mlp => Mlp.faithful
  | .attention => Attention.faithful

end OperatorGraph
