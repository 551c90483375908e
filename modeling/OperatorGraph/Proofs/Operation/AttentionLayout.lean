import OperatorGraph.Operation.Attention
import OperatorGraph.Proofs.Inference.Rules
import OperatorGraph.Proofs.Runner.Inferred

set_option autoImplicit false

namespace OperatorGraph

namespace Attention

/-- Tensors for attention with a head dimension. -/
structure LaidOut (p : Attention) (headDim : Int) (x wq k v wo : Shape) : Prop where
  query : ∃ hidden, x.dims = [p.scores.tokens, hidden] ∧ wq.dims = [p.headNum * headDim, hidden]
  key : k.dims = [p.scores.kvTokens, p.kvHeadNum * headDim]
  value : v.dims = [p.scores.kvTokens, p.kvHeadNum * headDim]
  output : ∃ hidden, wo.dims = [hidden, p.headNum * headDim]

/-- The rows of the query weights tell which head dimension the tensors are for. -/
theorem LaidOut.rows_iff {p : Attention} {headDim : Int} {x wq k v wo : Shape}
    (laid : p.LaidOut headDim x wq k v wo) (positive : 0 < p.headNum) (other : Int) :
    p.LaidOut other x wq k v wo ↔ wq.dims[0]? = some (p.headNum * other) := by
  obtain ⟨hidden, -, weights⟩ := laid.query
  constructor
  · intro also
    obtain ⟨_, -, again⟩ := also.query
    rw [again]
    rfl
  · intro rows
    have same : p.headNum * headDim = p.headNum * other := by simpa [weights] using rows
    rwa [← Int.eq_of_mul_eq_mul_left (by omega) same]

end Attention

namespace Runner

/-- The inputs of a node without views have the shapes that their slots hold. -/
theorem shapes_setup {r : Runner} {pack : Pack} {bytes : Nat}
    (success : (r.setup pack).result = .ok bytes) (formed : r.graph.topology.WellFormed) {n : Node}
    (member : n ∈ (r.setup pack).state.graph.nodes) (views : n.views = []) :
    n.resolvedInputs.map (fun desc => some desc.shape) =
      n.inputs.map fun id => ((r.setup pack).state.graph.desc? id).map TensorDesc.shape := by
  obtain ⟨position, found⟩ := List.getElem?_of_mem member
  have lengths := (reads_setup success formed found).1
  apply List.ext_getElem (by simp [lengths])
  intro i inside inside'
  rw [List.length_map] at inside inside'
  obtain ⟨held, present, shape⟩ := read_setup success formed member (by simp [Node.view?, views])
    (List.getElem?_eq_getElem inside') (List.getElem?_eq_getElem inside)
  simp only [List.getElem_map, present, shape, Option.map_some]

section

variable {r : Runner} {pack : Pack} {bytes : Nat} (success : (r.setup pack).result = .ok bytes)
  (formed : r.graph.topology.WellFormed) {g : Graph} (built : r.graph.blank = g.blank)
include success formed built

omit success formed in
theorem exists_node_setup (pack : Pack) {position : Nat} {n : Node}
    (found : g.nodes[position]? = some n) :
    ∃ m ∈ (r.setup pack).state.graph.nodes, m.unresolved = n.unresolved := by
  have blank := congrArg Graph.nodes ((r.blank_setup pack).1.trans built)
  have listed : n.unresolved ∈ (r.setup pack).state.graph.blank.nodes := by
    rw [blank]
    exact List.mem_map_of_mem (List.mem_of_getElem? found)
  exact List.mem_map.mp listed

/-- A projection without a bias, as a successful setup leaves it. -/
theorem projection_setup {position : Nat} {name : String} {x w y : TensorId}
    (found : g.nodes[position]? = some
      ((Node.new name (.matMul (.linear false)) [x, w] [y]).withHook .matMulExtents))
    {dx dw : TensorDesc} (atX : (r.setup pack).state.graph.desc? x = some dx)
    (atW : (r.setup pack).state.graph.desc? w = some dw) : ∃ rows inner columns,
      dx.shape.dims = [rows, inner] ∧ dw.shape.dims = [columns, inner] ∧
      ((∀ index, y ≠ .output index) → ∃ dy, (r.setup pack).state.graph.desc? y = some dy ∧
        dy.shape.dims = [rows, columns]) := by
  obtain ⟨n, member, asBuilt⟩ := exists_node_setup built pack found
  have hook : n.hook = some .matMulExtents := congrArg Node.hook asBuilt
  have declared : n.declared = .matMul (.linear false) := congrArg Node.declared asBuilt
  have inputs : n.inputs = [x, w] := congrArg Node.inputs asBuilt
  have outputs : n.outputs = [y] := congrArg Node.outputs asBuilt
  have shapes := shapes_setup success formed member (congrArg Node.views asBuilt)
  obtain ⟨extents, effective⟩ := effective_product_setup success formed member hook declared
  obtain ⟨produced, inferred, -, holds⟩ := produced_setup success formed member
  rw [effective] at inferred
  have product : MatMul.infer _ _ = .ok produced := (Operator.infer_ok inferred).2
  obtain ⟨a, b, rest, sizes, read, -, admits, rfl⟩ := MatMul.infer_ok product
  simp only [read, inputs, atX, atW, List.map_cons, List.map_nil, Option.map_some,
    List.cons.injEq, Option.some.injEq] at shapes
  rw [outputs] at holds
  obtain ⟨dy, atY, -, same⟩ := (List.forall₂_cons.mp holds).1
  refine ⟨sizes.m, sizes.k, sizes.n, ?_, ?_, fun inner => ⟨dy, atY, ?_⟩⟩
  · rw [← shapes.1]
    exact admits.left
  · rw [← shapes.2.1]
    exact admits.right
  · rw [same inner]
    rfl

/-- Attention over a cache, as a successful setup leaves it. -/
theorem attention_setup {position : Nat} {name : String} {p : SelfAttention} {q k v : TensorId}
    {index : Nat} (found : g.nodes[position]? = some
      (Node.new name (.selfAttention p) [q, k, v] [.internal index]))
    {dq dk dv : TensorDesc} (atQ : (r.setup pack).state.graph.desc? q = some dq)
    (atK : (r.setup pack).state.graph.desc? k = some dk)
    (atV : (r.setup pack).state.graph.desc? v = some dv) :
    (∃ tokens headDim, p.Admits tokens headDim dq.shape dk.shape dv.shape) ∧
      (∃ dy, (r.setup pack).state.graph.desc? (.internal index) = some dy ∧
        dy.shape = dq.shape) ∧
      ∃ n ∈ (r.setup pack).state.graph.nodes, n.name = name ∧ n.effective = .selfAttention p := by
  obtain ⟨n, member, asBuilt⟩ := exists_node_setup built pack found
  have named : n.name = name := congrArg Node.name asBuilt
  have declared : n.declared = .selfAttention p := congrArg Node.declared asBuilt
  have inputs : n.inputs = [q, k, v] := congrArg Node.inputs asBuilt
  have outputs : n.outputs = [.internal index] := congrArg Node.outputs asBuilt
  have shapes := shapes_setup success formed member (congrArg Node.views asBuilt)
  have effective : n.effective = .selfAttention p :=
    (effective_setup success formed member (congrArg Node.hook asBuilt)).trans declared
  obtain ⟨produced, inferred, -, holds⟩ := produced_setup success formed member
  rw [effective] at inferred
  have scored : SelfAttention.infer p _ = .ok produced := (Operator.infer_ok inferred).2
  obtain ⟨a, b, c, tokens, headDim, read, rfl, admits⟩ := SelfAttention.infer_ok scored
  simp only [read, inputs, atQ, atK, atV, List.map_cons, List.map_nil, Option.map_some,
    List.cons.injEq, Option.some.injEq, and_true] at shapes
  obtain ⟨shapeQ, shapeK, shapeV⟩ := shapes
  rw [shapeQ, shapeK, shapeV] at admits
  rw [outputs] at holds
  obtain ⟨dy, atY, -, same⟩ := (List.forall₂_cons.mp holds).1
  have shape : dy.shape = dq.shape := by
    rw [same (by simp), shapeQ]
  exact ⟨⟨tokens, headDim, admits⟩, ⟨dy, atY, shape⟩, n, member, named, effective⟩

end

/-- The tensors of a setup for attention are laid out for some head dimension. The projected queries
tell which: they have as many columns as the query weights have rows. -/
theorem laidOut_setup {r : Runner} {pack : Pack} {bytes : Nat}
    (success : (r.setup pack).result = .ok bytes) (formed : r.graph.topology.WellFormed)
    {p : Attention} (built : r.graph.blank = p.graph.blank) {x wq k v wo : Tensor}
    (inputs : pack.inputs = [x, wq, k, v, wo]) (resolved : x.desc.shape.Resolved) :
    0 < p.headNum ∧
      (∃ headDim, p.LaidOut headDim x.desc.shape wq.desc.shape k.desc.shape v.desc.shape
        wo.desc.shape) ∧
      ∃ n ∈ (r.setup pack).state.graph.nodes,
        n.name = "attn" ∧ n.effective = .selfAttention p.scores := by
  have bound (index : Nat) (tensor : Tensor) (named : pack.inputs[index]? = some tensor) :
      (r.setup pack).state.graph.desc? (.input index) = some tensor.desc :=
    (bound_setup success formed .input).2 index tensor named
  rw [inputs] at bound
  have query : p.graph.nodes[0]? = some ((Node.new "q_proj" (.matMul (.linear false))
      [.input 0, .input 1] [.internal 0]).withHook .matMulExtents) := rfl
  have attn : p.graph.nodes[1]? = some (Node.new "attn" (.selfAttention p.scores)
      [.internal 0, .input 2, .input 3] [.internal 1]) := rfl
  have output : p.graph.nodes[2]? = some ((Node.new "o_proj" (.matMul (.linear false))
      [.internal 1, .input 4] [.output 0]).withHook .matMulExtents) := rfl
  obtain ⟨rows, inner, columns, dimsX, dimsWq, projected⟩ :=
    projection_setup success formed built query (bound 0 x rfl) (bound 1 wq rfl)
  obtain ⟨dq, atQ, dimsQ⟩ := projected (by simp)
  obtain ⟨⟨tokens, headDim, admits⟩, ⟨dc, atC, shapeC⟩, effective⟩ :=
    attention_setup success formed built attn atQ (bound 2 k rfl) (bound 3 v rfl)
  obtain ⟨_, width, hidden, dimsC, dimsWo, -⟩ :=
    projection_setup success formed built output atC (bound 4 wo rfl)
  have sameRows := admits.query.symm.trans dimsQ
  have sameColumns := (shapeC ▸ dimsC).symm.trans admits.query
  simp only [List.cons.injEq, and_true] at sameRows sameColumns
  have known : 0 ≤ tokens := by
    rw [sameRows.1]
    exact resolved rows (by simp [dimsX])
  refine ⟨admits.batch.heads, ⟨headDim, ?_, admits.key, admits.value, hidden, ?_⟩, effective⟩
  · refine ⟨inner, ?_, ?_⟩
    · rw [dimsX, ← sameRows.1, admits.tokens known]
    · rw [dimsWq, ← sameRows.2]
      rfl
  · rw [dimsWo, sameColumns.2]
    rfl

/-- What a setup of an attention block ties together, after any calls on the runner that declare the
parameter. The tensors are laid out for one head dimension, and it is the declared one, whose square
root scales the scores, exactly if the query weights have as many rows as it asks for. -/
theorem attention_layout {p q : Attention} {config : Config} {created : Runner}
    (accepted : Runner.new q.graph config = .ok created) {calls : List Call}
    (declares : (created.afterAll calls).graph.declared = p.graph.declared) {pack : Pack}
    (resolved : ∀ side, ∀ tensor ∈ pack.tensors side, tensor.desc.shape.Resolved) {bytes : Nat}
    (success : ((created.afterAll calls).setup pack).result = .ok bytes) :
    ∃ x wq k v wo, pack.inputs.map (·.desc.shape) = [x, wq, k, v, wo] ∧
      (∃ headDim, p.LaidOut headDim x wq k v wo) ∧
      (p.LaidOut p.headDim x wq k v wo ↔ wq.dims[0]? = some (p.headNum * p.headDim)) ∧
      ∃ n ∈ ((created.afterAll calls).setup pack).state.graph.nodes,
        n.name = "attn" ∧ n.effective = .selfAttention p.scores := by
  obtain ⟨rfl, formed, -⟩ := new_ok accepted
  generalize reached : afterAll ⟨q.graph, config, .unbound, .empty⟩ calls = r at declares success ⊢
  have topology : r.graph.topology = p.graph.topology := by
    rw [← reached]
    exact (topology_afterAll _ calls).1
  have formed : r.graph.topology.WellFormed := topology ▸ formed
  have built : r.graph.blank = p.graph.blank := Graph.blank_eq_iff.mpr ⟨topology, declares⟩
  have count : pack.inputs.length = 5 := by
    have slots := (Graph.blank_eq_iff.mp ((r.blank_setup pack).1.trans built)).1
    exact (bound_setup success formed .input).1.trans (Graph.length_slots_of_topology slots .input)
  obtain ⟨x, wq, k, v, wo, inputs⟩ : ∃ x wq k v wo, pack.inputs = [x, wq, k, v, wo] := by
    match listed : pack.inputs, count with
    | [x, wq, k, v, wo], _ => exact ⟨x, wq, k, v, wo, rfl⟩
  obtain ⟨positive, ⟨headDim, laid⟩, effective⟩ := laidOut_setup success formed built inputs
    (resolved .input x (by simp [Pack.tensors, inputs]))
  exact ⟨_, _, _, _, _, by rw [inputs]; rfl, ⟨headDim, laid⟩, laid.rows_iff positive p.headDim,
    effective⟩

/-- Two tokens after a cached one, with two query heads of four columns each. -/
def decoding : Attention where
  headNum := 2
  kvHeadNum := 1
  headDim := 4
  tokenOffset := [1]
  seqLen := [2]

/-- Tensors that are laid out for a head dimension. -/
def decodingPack (headDim : Int) : Pack where
  inputs := [⟨.rowMajor .f32 ⟨[2, 8]⟩, .external 4096⟩,
    ⟨.rowMajor .f32 ⟨[2 * headDim, 8]⟩, .external 8192⟩,
    ⟨.rowMajor .f32 ⟨[3, headDim]⟩, .external 12288⟩,
    ⟨.rowMajor .f32 ⟨[3, headDim]⟩, .external 16384⟩,
    ⟨.rowMajor .f32 ⟨[8, 2 * headDim]⟩, .external 20480⟩]
  outputs := [⟨.rowMajor .f32 ⟨[2, 8]⟩, .external 24576⟩]
  workspace := none

theorem decoding_layout :
    let r := (⟨decoding.graph, .default, .unbound, .empty⟩ : Runner)
    (r.setup (decodingPack 4)).result = .ok 768 ∧
      decoding.LaidOut 4 ⟨[2, 8]⟩ ⟨[8, 8]⟩ ⟨[3, 4]⟩ ⟨[3, 4]⟩ ⟨[8, 8]⟩ ∧
      ∃ n ∈ (r.setup (decodingPack 4)).state.graph.nodes,
        n.name = "attn" ∧ n.effective = .selfAttention decoding.scores := by
  intro r
  have accepted : Runner.new decoding.graph .default = .ok r := rfl
  have success : (r.setup (decodingPack 4)).result = .ok 768 := by decide +kernel
  have resolved : ∀ side, ∀ tensor ∈ (decodingPack 4).tensors side,
      tensor.desc.shape.Resolved := by
    rintro (_ | _) <;> decide
  have declares : (r.afterAll []).graph.declared = decoding.graph.declared := rfl
  obtain ⟨x, wq, k, v, wo, shapes, -, rows, effective⟩ :=
    attention_layout accepted declares resolved success
  have listed : [⟨[2, 8]⟩, ⟨[8, 8]⟩, ⟨[3, 4]⟩, ⟨[3, 4]⟩, ⟨[8, 8]⟩] = [x, wq, k, v, wo] := shapes
  simp only [List.cons.injEq, and_true] at listed
  obtain ⟨rfl, rfl, rfl, rfl, rfl⟩ := listed
  have laid := rows.mpr rfl
  rw [show r.afterAll [] = r from rfl] at effective
  exact ⟨success, laid, effective⟩

/-- Weights and a cache for heads of six columns pass setup, and their scores are scaled for heads
of four. -/
theorem wide_heads_set_up :
    let r := (⟨decoding.graph, .default, .unbound, .empty⟩ : Runner)
    Runner.new decoding.graph .default = .ok r ∧
      (∀ side, ∀ tensor ∈ (decodingPack 6).tensors side, tensor.desc.shape.Resolved) ∧
      (r.setup (decodingPack 6)).result = .ok 768 ∧
      ((r.setup (decodingPack 6)).state.graph.nodes[1]?).map Node.effective =
        some (.selfAttention decoding.scores) ∧
      ((decodingPack 6).inputs[1]?).map (·.desc.shape.dims) = some [12, 8] ∧
      decoding.headNum * decoding.headDim = 8 := by
  intro r
  refine ⟨rfl, ?_, ?_, ?_, rfl, rfl⟩
  · rintro (_ | _) <;> decide
  · decide +kernel
  · decide +kernel

end Runner

end OperatorGraph
