import OperatorGraph.Proofs.Dispatch.Excuses
import OperatorGraph.Proofs.Inference.Rules

set_option autoImplicit false

namespace OperatorGraph

open Dispatch

section

variable {launch : Launch} {inferred : List TensorDesc}
  (outputs : launch.outputs.length = inferred.length)
include outputs

namespace Elementwise

omit outputs in
theorem planBroadcast_excused (op : Shader.BinaryOp) {x y out : Binding} {shape : Shape}
    (joined : x.desc.shape.broadcast? y.desc.shape = some shape)
    (binds : ∀ dtype ∈ [x.desc.dtype, y.desc.dtype, out.desc.dtype], Binds launch dtype) :
    launch.Excused (planBroadcast op x y out) := by
  simp only [planBroadcast, joined]
  refine excused_bind (excused_words _) fun _ _ => ?_
  exact excused_bind (excused_binding binds) fun _ _ => excused_ok _

theorem plan_excused {kind : Elementwise}
    (count : launch.inputs.length = (Operator.elementwise kind).inputCount)
    (infers : kind.infer (launch.inputs.map Binding.desc) = .ok inferred) :
    launch.Excused (kind.plan launch) := by
  cases binary : kind.isBinary with
  | true =>
    obtain ⟨_, _, shape, read, -, joined, rfl⟩ := infer_binary_ok binary infers
    obtain ⟨x, atX, rfl⟩ := input_of_desc read 0 rfl
    obtain ⟨y, atY, rfl⟩ := input_of_desc read 1 rfl
    obtain ⟨out, atOut⟩ := item_answers launch.outputs 0 (by simp [outputs])
    have binds : ∀ dtype ∈ [x.desc.dtype, y.desc.dtype, out.desc.dtype], Binds launch dtype := by
      simp only [List.forall_mem_cons]
      exact ⟨binds_input atX, binds_input atY, binds_output (mem_of_item atOut), by simp⟩
    refine excused_bind_ok atX (excused_bind_ok atOut ?_)
    cases kind with
    | add | sub | mul | realDiv =>
      exact excused_bind_ok atY (planBroadcast_excused _ joined binds)
    | scale _ | cast _ => simp [isBinary] at binary
  | false =>
    have one : launch.inputs.length = 1 := by simpa [Operator.inputCount, binary] using count
    obtain ⟨x, read⟩ := List.length_eq_one_iff.mp one
    rw [read] at infers
    obtain ⟨out, atOut⟩ := item_answers launch.outputs 0
      (by rw [outputs, infer_unary_ok binary infers]; omega)
    have atX : item launch.inputs 0 = .ok x := by rw [read]; rfl
    have binds : ∀ dtype ∈ [x.desc.dtype, out.desc.dtype], Binds launch dtype := by
      simp only [List.forall_mem_cons]
      exact ⟨binds_input atX, binds_output (mem_of_item atOut), by simp⟩
    refine excused_bind_ok atX (excused_bind_ok atOut ?_)
    cases kind with
    | scale factor =>
      refine excused_bind excused_expectF32 fun _ _ => ?_
      refine excused_bind (excused_binding binds) fun _ _ => ?_
      exact excused_bind (excused_words _) fun _ _ => excused_ok _
    | cast target =>
      refine excused_bind (excused_binding binds) fun _ _ => ?_
      refine excused_bind (excused_bindableType (binds_output (mem_of_item atOut))) fun _ _ => ?_
      exact excused_bind (excused_words _) fun _ _ => excused_ok _
    | add | sub | mul | realDiv => simp [isBinary] at binary

end Elementwise

theorem Activation.plan_excused {kind : Activation}
    (infers : kind.infer (launch.inputs.map Binding.desc) = .ok inferred) :
    launch.Excused (kind.plan launch) := by
  obtain ⟨_, _, read, rfl⟩ := infer_ok infers
  obtain ⟨x, atX, rfl⟩ := input_of_desc read 0 rfl
  obtain ⟨out, atOut⟩ := item_answers launch.outputs 0 (by simp [outputs])
  have binds : ∀ dtype ∈ [x.desc.dtype, out.desc.dtype], Binds launch dtype := by
    simp only [List.forall_mem_cons]
    exact ⟨binds_input atX, binds_output (mem_of_item atOut), by simp⟩
  refine excused_bind excused_expectF32 fun _ _ => ?_
  refine excused_bind_ok atX (excused_bind_ok atOut ?_)
  refine excused_bind (excused_binding binds) fun kernel _ => ?_
  by_cases gated : kind = .swiglu
  · simp only [gated, if_true]
    exact excused_bind (excused_words _) fun _ _ => excused_ok _
  · simp only [gated, if_false]
    exact excused_bind (excused_words _) fun _ _ => excused_ok _

theorem RmsNorm.plan_excused (epsilon : Scalar)
    (infers : inferRmsNorm (launch.inputs.map Binding.desc) = .ok inferred) :
    launch.Excused (plan epsilon launch) := by
  obtain ⟨_, _, _, read, -, -, rfl⟩ := inferRmsNorm_ok infers
  obtain ⟨x, atX, rfl⟩ := input_of_desc read 0 rfl
  obtain ⟨gain, atGain, rfl⟩ := input_of_desc read 1 rfl
  obtain ⟨out, atOut⟩ := item_answers launch.outputs 0 (by simp [outputs])
  refine excused_bind excused_expectF32 fun _ _ => ?_
  refine excused_bind_ok atX (excused_bind_ok atGain (excused_bind_ok atOut ?_))
  refine excused_bind (excused_words _) fun _ _ => ?_
  exact excused_bind (excused_floatKernel 3) fun _ _ => excused_ok _

theorem Softmax.plan_excused {axis : Int}
    (infers : inferSoftmax axis (launch.inputs.map Binding.desc) = .ok inferred) :
    launch.Excused (plan axis launch) := by
  obtain ⟨_, _, read, -, rfl⟩ := inferSoftmax_ok infers
  obtain ⟨x, atX, rfl⟩ := input_of_desc read 0 rfl
  obtain ⟨out, atOut⟩ := item_answers launch.outputs 0 (by simp [outputs])
  refine excused_bind excused_expectF32 fun _ _ => ?_
  refine excused_bind_ok atX (excused_bind_ok atOut ?_)
  by_cases inner : x.desc.shape.axis? axis = innerAxis? x.desc.shape
  · simp only [inner, ne_eq, not_true_eq_false, if_false]
    refine excused_bind (excused_words _) fun _ _ => ?_
    exact excused_bind (excused_floatKernel 2) fun _ _ => excused_ok _
  · simp only [inner, ne_eq, not_false_eq_true, if_true]
    exact excused_missing launch _

theorem LayerNorm.outputs_answers {p : LayerNorm} {x : TensorDesc} {axis : Nat}
    (all : inferred = p.written x axis) : ∃ outs, p.outputs launch = .ok outs := by
  have count : launch.outputs.length = 1 + if p.withStats then 2 else 0 := by
    rw [outputs, all, written, List.length_cons, List.length_replicate, Nat.add_comm]
  obtain ⟨out, atOut⟩ := item_answers launch.outputs 0 (by omega)
  unfold LayerNorm.outputs
  cases stats : p.withStats with
  | false => exact ⟨[out], by simp [atOut]⟩
  | true =>
    rw [stats] at count
    obtain ⟨mean, atMean⟩ := item_answers launch.outputs 1 (by simp [count])
    obtain ⟨rstd, atRstd⟩ := item_answers launch.outputs 2 (by simp [count])
    exact ⟨[out, mean, rstd], by simp [atOut, atMean, atRstd]⟩

section

variable (resolved : ∀ b ∈ launch.inputs, b.desc.shape.Resolved)
  (fits : ∀ desc ∈ inferred, desc.overflows = false)
  (nonempty : ∃ desc ∈ inferred, desc.shape.elementCount ≠ 0)

namespace LayerNorm

omit outputs in
include fits nonempty in
/-- Where something is written, there are rows: the statistics may have elements even where the
tensor has none. -/
theorem rows_positive {p : LayerNorm} {x : TensorDesc} {axis : Nat} (known : x.shape.Resolved)
    (all : inferred = p.written x axis) : ∀ dim ∈ x.shape.dims.take axis, 1 ≤ dim := by
  subst all
  obtain ⟨desc, member, nonzero⟩ := nonempty
  intro dim inside
  rcases List.mem_cons.mp member with tensor | statistics
  · subst tensor
    exact TensorDesc.one_le_of_written (d := .rowMajor x.dtype x.shape) known (fits _ member)
      nonzero dim (List.mem_of_mem_take inside)
  · obtain rfl := List.eq_of_mem_replicate statistics
    refine TensorDesc.one_le_of_written ?_ (fits _ member) nonzero dim
      (List.mem_append_left _ inside)
    intro other inShape
    rcases List.mem_append.mp inShape with before | one
    · exact known other (List.mem_of_mem_take before)
    · rw [List.eq_of_mem_replicate one]
      omega

include resolved fits nonempty in
theorem plan_excused {p : LayerNorm}
    (infers : p.infer (launch.inputs.map Binding.desc) = .ok inferred) :
    launch.Excused (p.plan launch) := by
  obtain ⟨_, _, _, axis, paramsAxis, read, norm, params, -, -, all⟩ := infer_ok infers
  obtain ⟨x, atX, rfl⟩ := input_of_desc read 0 rfl
  obtain ⟨gain, atGain, rfl⟩ := input_of_desc read 1 rfl
  obtain ⟨bias, atBias, rfl⟩ := input_of_desc read 2 rfl
  obtain ⟨outs, atOuts⟩ := outputs_answers outputs all
  have known : x.desc.shape.Resolved := resolved x (mem_of_item atX)
  have positive := rows_positive fits nonempty known all
  have product : Bounded.product? x.desc.shape.dims = some x.desc.shape.dims.prod := by
    refine TensorDesc.product?_of_fits (d := .rowMajor x.desc.dtype x.desc.shape) known ?_
    exact fits _ (by rw [all]; exact List.mem_cons_self)
  rw [← List.take_append_drop axis x.desc.shape.dims] at product
  obtain ⟨rows, cols⟩ := Bounded.product?_split product
  have cols := cols positive fun dim inside => known dim (List.mem_of_mem_drop inside)
  refine excused_bind excused_expectF32 fun _ _ => ?_
  refine excused_bind_ok atX (excused_bind_ok atGain (excused_bind_ok atBias ?_))
  simp only [norm, params]
  by_cases same : axis = paramsAxis
  · simp only [same, ne_eq, not_true_eq_false, if_false]
    subst same
    refine excused_bind_ok (exactly_eq_ok.mpr (Bounded.product_eq_ok rows)) ?_
    refine excused_bind_ok (exactly_eq_ok.mpr (Bounded.product_eq_ok cols)) ?_
    refine excused_bind (excused_words _) fun _ _ => excused_bind_ok atOuts ?_
    exact excused_bind (excused_floatKernel _) fun _ _ => excused_ok _
  · simp only [same, ne_eq, not_false_eq_true, if_true]
    exact excused_missing launch _

end LayerNorm

namespace MatMul

omit outputs in
theorem extents_nonneg {p : MatMul} {a b : Shape} {extents : Extents} (knownA : a.Resolved)
    (knownB : b.Resolved) (computed : p.extentsFor? a b = some extents) :
    0 ≤ extents.m ∧ 0 ≤ extents.n := by
  unfold extentsFor? at computed
  split at computed
  · rename_i a₀ a₁ b₀ b₁ dimsA dimsB
    have rowsA : 0 ≤ a₀ ∧ 0 ≤ a₁ := ⟨knownA _ (by simp [dimsA]), knownA _ (by simp [dimsA])⟩
    have rowsB : 0 ≤ b₀ ∧ 0 ≤ b₁ := ⟨knownB _ (by simp [dimsB]), knownB _ (by simp [dimsB])⟩
    obtain rfl := Option.some.inj computed
    cases p.transposeA <;> cases p.transposeB <;> exact ⟨by tauto, by tauto⟩
  · simp at computed

omit outputs in
theorem planExtents?_eq {p : MatMul} {a b : Shape} {extents : Extents} {rest : List TensorDesc}
    (computed : p.extentsFor? a b = some extents) (admits : p.Admits extents a b rest) :
    p.planExtents? a b = some extents := by
  unfold planExtents?
  cases given : p.extents with
  | none => exact computed
  | some extents => rw [admits.declared extents given]; rfl

include resolved fits in
theorem plan_excused {p : MatMul}
    (count : launch.inputs.length = (Operator.matMul p).inputCount)
    (infers : p.infer (launch.inputs.map Binding.desc) = .ok inferred) :
    launch.Excused (p.plan launch) := by
  obtain ⟨_, _, rest, extents, read, computed, admits, rfl⟩ := infer_ok infers
  obtain ⟨a, atA, rfl⟩ := input_of_desc read 0 rfl
  obtain ⟨b, atB, rfl⟩ := input_of_desc read 1 rfl
  obtain ⟨out, atOut⟩ := item_answers launch.outputs 0 (by simp [outputs])
  have found := planExtents?_eq computed admits
  obtain ⟨rows, columns⟩ :=
    extents_nonneg (resolved a (mem_of_item atA)) (resolved b (mem_of_item atB)) computed
  have product : Bounded.Fits (extents.m * extents.n) := by
    have known : Shape.Resolved ⟨[extents.m, extents.n]⟩ := by
      intro dim member
      rcases List.mem_pair.mp member with rfl | rfl <;> assumption
    have exact := TensorDesc.product?_of_fits (d := .rowMajor a.desc.dtype ⟨[extents.m, extents.n]⟩)
      known (fits _ List.mem_cons_self)
    have value : Bounded.Fits [extents.m, extents.n].prod := Bounded.fits_of_product? exact
    rwa [List.prod_pair] at value
  refine excused_bind excused_expectF32 fun _ _ => ?_
  refine excused_bind_ok atA (excused_bind_ok atB ?_)
  simp only [found]
  refine excused_bind_ok (exactly_eq_ok.mpr (Bounded.mul_eq_ok.mpr ⟨product, rfl⟩)) ?_
  refine excused_bind (excused_words _) fun _ _ => ?_
  cases hasBias : p.hasBias with
  | false =>
    refine excused_bind_ok (a := []) rfl (excused_bind_ok atOut ?_)
    exact excused_bind (excused_floatKernel _) fun _ _ => excused_ok _
  | true =>
    obtain ⟨bias, atBias⟩ := item_answers launch.inputs 2
      (by simp [count, Operator.inputCount, hasBias])
    refine excused_bind_ok (a := [bias]) (by rw [atBias]; rfl) (excused_bind_ok atOut ?_)
    exact excused_bind (excused_floatKernel _) fun _ _ => excused_ok _

end MatMul

end

end

end OperatorGraph
