import OperatorGraph.Proofs.Inference.Acceptance
import OperatorGraph.Proofs.Runner.Inferred

set_option autoImplicit false

namespace OperatorGraph

open Inference

/-- Arithmetic writes row-major tensors. -/
theorem Elementwise.infer_format {kind : Elementwise} {inputs outputs : List TensorDesc}
    (count : inputs.length = if kind.isBinary then 2 else 1)
    (inferred : kind.infer inputs = .ok outputs) : ∀ y ∈ outputs, y.format = .rowMajor := by
  have binary (two : kind.isBinary) : ∀ y ∈ outputs, y.format = .rowMajor := by
    obtain ⟨x, y, shape, rfl, -, -, rfl⟩ := infer_binary_ok two inferred
    exact List.forall_mem_singleton.mpr rfl
  cases kind with
  | cast target =>
    obtain ⟨x, rfl⟩ := List.length_eq_one_iff.mp count
    obtain rfl := Except.ok.inj inferred
    exact List.forall_mem_singleton.mpr rfl
  | scale factor =>
    obtain ⟨x, rfl⟩ := List.length_eq_one_iff.mp count
    simp only [infer, Answer.bind_eq_ok, Answer.pure_eq_ok] at inferred
    obtain ⟨_, -, rfl⟩ := inferred
    exact List.forall_mem_singleton.mpr rfl
  | add | sub | mul | realDiv => exact binary rfl

theorem Activation.infer_format {kind : Activation} {x y : TensorDesc}
    (inferred : kind.infer [x] = .ok [y]) : y.format = x.format := by
  by_cases gate : kind = swiglu
  · subst gate
    obtain ⟨-, front, half, -, -, written⟩ := infer_gate_eq_ok.mp inferred
    obtain rfl := (List.cons.inj written).1
    rfl
  · obtain ⟨-, same⟩ := (infer_plain_eq_ok gate).mp inferred
    obtain rfl := (List.cons.inj same).1
    rfl

namespace Operator

/-- The format in which an operator stores its outputs. -/
def outputFormat : Operator → Format
  | relayout target => target
  | _ => .rowMajor

theorem outputFormat_eq_tiled {op : Operator} :
    op.outputFormat = .tiled ↔ op = .relayout .tiled := by
  cases op <;> simp [outputFormat]

theorem accepts_tiled {op : Operator} {index : Nat} (accepted : .tiled ∈ op.acceptedFormats index) :
    (op.family = .matMul ∧ index = 1) ∨ op.family = .relayout := by
  unfold acceptedFormats at accepted
  split at accepted
  · exact .inl ⟨rfl, rfl⟩
  · exact .inr rfl
  · simp at accepted

section

variable {op : Operator} {inputs outputs : List TensorDesc}
  (inferred : op.infer inputs = .ok outputs)
include inferred

theorem infer_reads_tiled {index : Nat} {x : TensorDesc} (found : inputs[index]? = some x)
    (tiled : x.format = .tiled) :
    (op.family = .matMul ∧ index = 1) ∨ (op.family = .relayout ∧ index = 0) := by
  obtain ⟨count, accepted, -⟩ := infer_eq_ok.mp inferred
  have inside := (List.getElem?_eq_some_iff.mp found).1
  rcases accepts_tiled (tiled ▸ accepted index x found) with product | relayout
  · exact .inl product
  · refine .inr ⟨relayout, ?_⟩
    cases op <;> simp [family] at relayout
    simp only [inputCount] at count
    omega

end

theorem infer_reads_plain {op : Operator} (plain : ∀ index, op.acceptedFormats index = [.rowMajor])
    {inputs outputs : List TensorDesc} (inferred : op.infer inputs = .ok outputs) :
    ∀ x ∈ inputs, x.format = .rowMajor :=
  (formats_of_plain plain).mp (infer_eq_ok.mp inferred).2.1

/-- Only a relayout chooses the format of its output. Where a rule keeps the descriptor of an input,
the operator has accepted no tiles there. -/
theorem infer_format {op : Operator} {inputs outputs : List TensorDesc}
    (inferred : op.infer inputs = .ok outputs) : ∀ y ∈ outputs, y.format = op.outputFormat := by
  obtain ⟨count, family⟩ := infer_ok inferred
  have read (plain : ∀ index, op.acceptedFormats index = [.rowMajor]) :=
    infer_reads_plain plain inferred
  cases op with
  | elementwise kind =>
    intro y member
    exact Elementwise.infer_format count family y member
  | layerNorm p =>
    obtain ⟨x, gain, bias, axis, paramsAxis, rfl, -, -, -, -, rfl⟩ := LayerNorm.infer_ok family
    intro y member
    rcases List.mem_cons.mp member with rfl | stats
    · rfl
    · rw [List.eq_of_mem_replicate stats]
      rfl
  | rmsNorm epsilon =>
    obtain ⟨x, gain, -, rfl, -, -, rfl⟩ := inferRmsNorm_ok family
    exact List.forall_mem_singleton.mpr rfl
  | matMul p =>
    obtain ⟨a, b, rest, extents, rfl, -, -, rfl⟩ := MatMul.infer_ok family
    exact List.forall_mem_singleton.mpr rfl
  | activation kind =>
    obtain ⟨x, y, rfl, rfl⟩ := Activation.infer_ok family
    exact List.forall_mem_singleton.mpr
      ((Activation.infer_format family).trans (read (fun _ => rfl) x (by simp)))
  | softmax axis =>
    obtain ⟨x, -, rfl, -, rfl⟩ := inferSoftmax_ok family
    exact List.forall_mem_singleton.mpr (read (fun _ => rfl) x (by simp))
  | asStrided p =>
    obtain ⟨x, rfl, rfl, -⟩ := Strided.infer_ok family
    exact List.forall_mem_singleton.mpr (read (fun _ => rfl) x (by simp))
  | transpose perm =>
    obtain ⟨x, dims, rfl, -, -, -, -, rfl⟩ := Transposition.infer_ok family
    exact List.forall_mem_singleton.mpr (read (fun _ => rfl) x (by simp))
  | relayout target =>
    obtain ⟨x, rfl⟩ := List.length_eq_one_iff.mp count
    simp only [inferFamily, inferRelayout] at family
    split at family
    · simp at family
    · obtain rfl := Except.ok.inj family
      exact List.forall_mem_singleton.mpr rfl
  | split axis count =>
    obtain ⟨x, position, dim, part, rfl, -, -, -, -, -, -, rfl⟩ := inferSplit_ok family
    intro y member
    rw [List.eq_of_mem_replicate member]
    exact read (fun _ => rfl) x (by simp)
  | concat axis =>
    obtain ⟨x, y, position, dims, rfl, -, -, -, -, rfl⟩ := Concat.infer_ok family
    exact List.forall_mem_singleton.mpr (read (fun _ => rfl) x (by simp))
  | gather axis =>
    obtain ⟨table, indices, position, rfl, -, rfl⟩ := inferGather_ok family
    exact List.forall_mem_singleton.mpr (read (fun _ => rfl) table (by simp))
  | rope coeff =>
    obtain ⟨q, k, cos, sin, -, -, rfl, rfl, -⟩ := Rope.infer_ok family
    exact fun y member => read (fun _ => rfl) y (List.mem_append_left [cos, sin] member)
  | selfAttention p =>
    obtain ⟨q, k, v, -, -, rfl, rfl, -⟩ := SelfAttention.infer_ok family
    exact List.forall_mem_singleton.mpr (read (fun _ => rfl) q (by simp))

end Operator

namespace Graph

/-- Tiles are what relayouts to tiles produce, and what relayouts and second operands read. -/
structure TilesPlaced (g : Graph) : Prop where
  written : ∀ id ∈ g.outputIds ++ g.internalIds, ∃ n ∈ g.nodes, id ∈ n.outputs ∧
    (∀ m ∈ g.nodes, id ∈ m.outputs → m = n) ∧
    ∃ held, g.desc? id = some held ∧ (held.format = .tiled ↔ n.effective = .relayout .tiled)
  read : ∀ n ∈ g.nodes, ∀ index desc, n.resolvedInputs[index]? = some desc →
    desc.format = .tiled → (n.effective.family = .matMul ∧ index = 1) ∨
      (n.effective.family = .relayout ∧ index = 0)

theorem producer {g : Graph} (formed : g.topology.WellFormed) {id : TensorId}
    (listed : id ∈ g.outputIds ++ g.internalIds) : ∃ n ∈ g.nodes, id ∈ n.outputs ∧
      ∀ m ∈ g.nodes, id ∈ m.outputs → m = n := by
  obtain ⟨present, notInput⟩ := mem_outputIds_append_internalIds.mp listed
  obtain ⟨position, writes⟩ :=
    formed.allProduced id ((slot?_isSome_iff g id).mp present) notInput
  obtain ⟨n, found, written⟩ := produces_iff.mp writes
  refine ⟨n, List.mem_of_getElem? found, written, fun m member alsoWritten => ?_⟩
  obtain ⟨other, foundOther⟩ := List.getElem?_of_mem member
  obtain rfl := formed.producer_unique (produces_of_writes foundOther alsoWritten)
    (produces_of_writes found written)
  exact Option.some.inj (foundOther.symm.trans found)

/-- An output that the caller has bound is compatible with what is inferred for it, so that it has
the format of the operator as well. -/
theorem Infers.desc_format {g : Graph} (infers : g.Infers) {n : Node} (member : n ∈ g.nodes)
    {id : TensorId} (written : id ∈ n.outputs) :
    ∃ held, g.desc? id = some held ∧ held.format = n.effective.outputFormat := by
  obtain ⟨outputs, inferred, -, produced⟩ := infers n member
  obtain ⟨index, atId⟩ := List.getElem?_of_mem written
  have inside := (List.getElem?_eq_some_iff.mp atId).1
  rw [produced.length_eq] at inside
  have atDesc := List.getElem?_eq_getElem inside
  obtain ⟨held, present, -, format, -⟩ := Answer.getElem?_of_forall₂ produced atId atDesc
  have inferredFormat := Operator.infer_format inferred _ (List.mem_of_getElem? atDesc)
  exact ⟨held, present, format.trans inferredFormat⟩

theorem Infers.tilesPlaced {g : Graph} (infers : g.Infers) (formed : g.topology.WellFormed) :
    g.TilesPlaced where
  written id listed := by
    obtain ⟨n, member, written, unique⟩ := producer formed listed
    obtain ⟨held, present, format⟩ := infers.desc_format member written
    refine ⟨n, member, written, unique, held, present, ?_⟩
    rw [format, Operator.outputFormat_eq_tiled]
  read n member index desc found tiled := by
    obtain ⟨outputs, inferred, -, -⟩ := infers n member
    exact Operator.infer_reads_tiled inferred found tiled

end Graph

namespace Runner

/-- After a setup that has succeeded, whatever came before it, tiles are where they belong. -/
theorem tiles_placed {g : Graph} {config : Config} {created : Runner}
    (accepted : Runner.new g config = .ok created) {calls : List Call} {pack : Pack} {bytes : Nat}
    (stands : created.StandsOn calls pack bytes) : (created.afterAll calls).graph.TilesPlaced := by
  obtain ⟨rfl, formed, -⟩ := new_ok accepted
  have kept := (topology_afterAll ⟨g, config, .unbound, .empty⟩ calls).1
  exact (infers_of_standsOn formed stands).tilesPlaced (kept ▸ formed)

/-- A product with a weight that is laid out in tiles first. -/
def tiling : Graph :=
  Graph.new "tiling" ["x", "w"] ["y"] ["tiles"] [
    Node.new "tile" (.relayout .tiled) [.input 1] [.internal 0],
    Node.new "multiply" (.matMul (.linear false)) [.input 0, .internal 0] [.output 0]]

def tilingPack : Pack where
  inputs := [⟨.rowMajor .f32 ⟨[2, 4]⟩, .external 4096⟩, ⟨.rowMajor .f32 ⟨[3, 4]⟩, .external 8192⟩]
  outputs := [⟨.rowMajor .f32 ⟨[2, 3]⟩, .external 12288⟩]
  workspace := some ⟨65536, 256⟩

theorem tiling_placed :
    let r := (⟨tiling, .default, .unbound, .empty⟩ : Runner).afterAll [.setUp tilingPack]
    r.graph.desc? (.internal 0) = some ⟨.f32, .tiled, ⟨[3, 4]⟩⟩ ∧
      r.graph.desc? (.output 0) = some ⟨.f32, .rowMajor, ⟨[2, 3]⟩⟩ ∧ r.graph.TilesPlaced := by
  intro r
  have accepted : Runner.new tiling .default = .ok ⟨tiling, .default, .unbound, .empty⟩ := rfl
  have stands : StandsOn ⟨tiling, .default, .unbound, .empty⟩ [.setUp tilingPack] tilingPack 256 :=
    ⟨[], [], rfl, by simp, by decide +kernel⟩
  exact ⟨by decide +kernel, by decide +kernel, tiles_placed accepted stands⟩

end Runner

end OperatorGraph
