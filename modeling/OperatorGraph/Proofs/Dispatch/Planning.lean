import OperatorGraph.Proofs.Dispatch.Arithmetic
import OperatorGraph.Proofs.Dispatch.Attention
import OperatorGraph.Proofs.Dispatch.Copies

set_option autoImplicit false

namespace OperatorGraph

open Dispatch

namespace Launch

/-- What setup establishes about a launch: its outputs stand for tensors that follow from its
inputs, its ranges have the sizes of their tensors, and it is given scratch where it asks for some.
-/
structure Accepted (launch : Launch) (inferred : List TensorDesc) : Prop where
  infers : launch.param.infer (launch.inputs.map Binding.desc) = .ok inferred
  fits : ∀ desc ∈ inferred, desc.overflows = false
  outputs : List.Forall₂ (fun b desc => b.desc.Compatible desc) launch.outputs inferred
  sized : ∀ b ∈ launch.inputs ++ launch.outputs, b.bytes = b.desc.byteSize?.getD 0
  scratch : launch.param.scratchBytes (launch.inputs.map Binding.desc) ≠ 0 → launch.scratch.isSome

/-- Planning finds what setup has promised. -/
structure Plannable (launch : Launch) : Prop where
  /-- The launch is planned, or declined for a reason that setup does not look at. -/
  excused : launch.Excused launch.plan
  /-- No index is out of range, nothing is divided by zero and nothing overflows. -/
  faultless : ∀ fault, launch.plan ≠ .error (.fault fault)
  /-- Attention that is not skipped has scratch, and its sums over the batch do not overflow. -/
  attention : launch.outputs.all (·.bytes = 0) = false → ∀ p, launch.param = .selfAttention p →
    launch.scratch.isSome ∧ ∀ b, Bounded.Fits (p.queryStart b)

namespace Accepted

variable {launch : Launch} {inferred : List TensorDesc} (accepted : launch.Accepted inferred)
include accepted

/-- A launch with output bytes was inferred to have output elements. -/
theorem nonempty (bytes : launch.outputs.all (·.bytes = 0) = false) :
    ∃ desc ∈ inferred, desc.shape.elementCount ≠ 0 := by
  obtain ⟨b, member, written⟩ := List.all_eq_false.mp bytes
  have size : b.desc.byteSize?.getD 0 ≠ 0 := by
    rw [← accepted.sized b (List.mem_append_right _ member)]
    simpa using written
  obtain ⟨i, atB⟩ := List.getElem?_of_mem member
  have inside := (List.getElem?_eq_some_iff.mp atB).1
  rw [accepted.outputs.length_eq] at inside
  have atDesc := List.getElem?_eq_getElem inside
  obtain ⟨-, -, count⟩ := Answer.getElem?_of_forall₂ accepted.outputs atB atDesc
  refine ⟨_, List.getElem_mem inside, ?_⟩
  rw [← count]
  intro empty
  apply size
  cases sized : b.desc.byteSize? with
  | none => rfl
  | some bytes =>
    rw [Option.getD_some, (TensorDesc.byteSize?_eq_some sized).2.1, empty, Int.toNat_zero,
      Nat.zero_mul]

omit accepted in
theorem rowMajor_of_formats {op : Operator}
    (plain : ∀ index, op.acceptedFormats index = [.rowMajor]) {descs : List TensorDesc}
    {index : Nat} (formats : op.formatObjection? index descs = none) :
    ∀ x ∈ descs, x.format = .rowMajor := by
  induction descs generalizing index with
  | nil => simp
  | cons x rest ih =>
    rw [Operator.formatObjection?, plain] at formats
    split at formats
    · rename_i listed
      rw [List.forall_mem_cons]
      exact ⟨List.mem_singleton.mp listed, ih formats⟩
    · simp at formats

theorem rowMajor_inputs (plain : ∀ index, launch.param.acceptedFormats index = [.rowMajor]) :
    ∀ b ∈ launch.inputs, b.desc.format = .rowMajor := by
  have infers := accepted.infers
  have formats : launch.param.formatObjection? 0 (launch.inputs.map Binding.desc) = none := by
    unfold Operator.infer at infers
    split at infers
    · simp at infers
    · split at infers
      · simp at infers
      · assumption
  exact fun b member => rowMajor_of_formats plain formats b.desc (List.mem_map_of_mem member)

/-- Where the operator takes no tiles and makes none, the launch has none. -/
theorem untiled (plain : ∀ index, launch.param.acceptedFormats index = [.rowMajor])
    (kept : ∀ desc ∈ inferred, ∃ b ∈ launch.inputs, desc.format = b.desc.format) :
    launch.firstTiled? = none := by
  have inputs := accepted.rowMajor_inputs plain
  rw [firstTiled?, List.findIdx?_eq_none_iff]
  intro b member
  suffices b.desc.format = .rowMajor by simp [this]
  rcases List.mem_append.mp member with input | output
  · exact inputs b input
  · obtain ⟨i, atOut⟩ := List.getElem?_of_mem output
    have inside := (List.getElem?_eq_some_iff.mp atOut).1
    rw [accepted.outputs.length_eq] at inside
    obtain ⟨-, format, -⟩ := Answer.getElem?_of_forall₂ accepted.outputs atOut
      (List.getElem?_eq_getElem inside)
    obtain ⟨x, input, same⟩ := kept _ (List.getElem_mem inside)
    rw [format, same, inputs x input]

/-- A launch that setup has let through can be planned if the dimensions of its inputs are known. -/
theorem plannable (resolved : ∀ b ∈ launch.inputs, b.desc.shape.Resolved) : launch.Plannable := by
  obtain ⟨count, infers⟩ := Operator.infer_ok accepted.infers
  have outputs := accepted.outputs.length_eq
  have fits := accepted.fits
  have scratch := accepted.scratch
  rw [List.length_map] at count
  have excused : launch.Excused launch.plan := by
    unfold plan
    split
    · exact excused_missing launch _
    · cases empty : launch.outputs.all (·.bytes = 0) with
      | true => exact excused_ok []
      | false =>
        have nonempty := accepted.nonempty empty
        rw [if_neg Bool.false_ne_true]
        unfold planFamily
        cases family : launch.param <;> rw [family] at count infers scratch
        case elementwise kind => exact Elementwise.plan_excused outputs count infers
        case layerNorm p => exact LayerNorm.plan_excused outputs resolved fits nonempty infers
        case rmsNorm epsilon => exact RmsNorm.plan_excused outputs epsilon infers
        case matMul p => exact MatMul.plan_excused outputs resolved fits count infers
        case activation kind => exact Activation.plan_excused outputs infers
        case softmax axis => exact Softmax.plan_excused outputs infers
        case asStrided p => exact Strided.plan_excused outputs fits infers
        case transpose perm => exact Transposition.plan_excused outputs resolved fits infers
        case relayout target => exact excused_missing launch _
        case split axis parts => exact Split.plan_excused outputs resolved fits nonempty infers
        case concat axis => exact Concat.plan_excused outputs resolved fits nonempty infers
        case gather axis => exact Gather.plan_excused outputs resolved fits nonempty infers
        case rope coeff => exact Rope.plan_excused outputs resolved fits infers
        case selfAttention p =>
          exact (SelfAttention.plan_excused outputs resolved fits nonempty scratch infers).2
  refine ⟨excused, fun fault failed => ?_, ?_⟩
  · cases excused _ failed
  · intro written p family
    rw [family] at infers scratch
    exact (SelfAttention.plan_excused outputs resolved fits (accepted.nonempty written) scratch
      infers).1

end Accepted

end Launch

end OperatorGraph
