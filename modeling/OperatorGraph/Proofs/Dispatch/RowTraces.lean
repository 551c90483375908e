import OperatorGraph.Proofs.Dispatch.Gates
import OperatorGraph.Proofs.Dispatch.Gathers
import OperatorGraph.Proofs.Dispatch.LayerNorms
import OperatorGraph.Proofs.Dispatch.MatrixProducts
import OperatorGraph.Proofs.Dispatch.RmsNorms
import OperatorGraph.Proofs.Dispatch.Softmaxes

set_option autoImplicit false

namespace OperatorGraph

open Dispatch Shader

/-- Operators that lay the dimensions of their tensors together, to rows and columns or to slices.
-/
def Operator.flattens : Operator → Bool
  | .matMul _ | .gather _ | .layerNorm _ | .rmsNorm _ | .softmax _ | .activation .swiglu => true
  | _ => false

namespace Launch

/-- A launch over floats that writes something. Gates look at the shape of their output. -/
structure Flattens (launch : Launch) (inferred : List TensorDesc) : Prop where
  family : launch.param.flattens
  float : ∀ b, launch.inputs[0]? = some b → b.desc.dtype = .f32
  resolved : ∀ b ∈ launch.inputs ++ launch.outputs, b.desc.shape.Resolved
  few : ∀ b ∈ launch.inputs ++ launch.outputs, b.desc.shape.extents.prod < 2 ^ 32
  nonempty : ∃ out ∈ launch.outputs, 0 < out.desc.shape.extents.prod
  shaped : launch.param = .activation .swiglu →
    launch.outputs.map (·.desc.shape) = inferred.map TensorDesc.shape

/-- What the threads of a dispatch do, for each family of operators. -/
inductive Traced (launch : Launch) (d : Dispatch) : Prop where
  | matMul {p : MatMul} {l : MatMul.Sizes} (param : launch.param = .matMul p)
      (multiplies : p.Multiplies launch l d)
  | gather {axis : Int} {l : Gather.Sizes} (param : launch.param = .gather axis)
      (gathers : Gather.Gathers axis launch l d)
  | layerNorm {p : LayerNorm} {l : Rows} (param : launch.param = .layerNorm p)
      (normalizes : p.Normalizes launch l d)
  | rmsNorm {epsilon : Scalar} {l : Rows} (param : launch.param = .rmsNorm epsilon)
      (normalizes : RmsNorm.Normalizes launch l d)
  | softmax {axis : Int} {l : Rows} (param : launch.param = .softmax axis)
      (distributes : Softmax.Distributes axis launch l d)
  | gate {l : Rows} (param : launch.param = .activation .swiglu)
      (gated : Activation.Gated launch l d)

variable {launch : Launch} {inferred : List TensorDesc} {ds : List Dispatch}

namespace Flattens

variable (flattens : launch.Flattens inferred) (accepted : launch.Accepted inferred)
include flattens accepted

theorem written : launch.outputs.all (·.bytes = 0) = false := by
  obtain ⟨out, isOut, elements⟩ := flattens.nonempty
  have member := List.mem_append_right launch.inputs isOut
  have bytes : out.bytes = out.desc.shape.extents.prod * out.desc.dtype.size :=
    (accepted.sized out member).trans
      (TensorDesc.byteSize_eq (flattens.resolved out member) (flattens.few out member))
  have width : 0 < out.desc.dtype.size := by cases out.desc.dtype <;> decide
  refine List.all_eq_false.mpr ⟨out, isOut, ?_⟩
  rw [decide_eq_true_eq, bytes]
  exact (Nat.mul_pos elements width).ne'

theorem planFamily_of_plan (planned : launch.plan = .ok ds) : launch.planFamily = .ok ds := by
  unfold plan at planned
  split at planned
  · simp [missing] at planned
  · rwa [flattens.written accepted, if_neg Bool.false_ne_true] at planned

omit accepted in
theorem measured {done : Unit} (floats : expectF32 launch = .ok done) : launch.Measured :=
  ⟨fun b member => .inl (expectF32_eq_ok.mp floats b member), flattens.resolved, flattens.few⟩

end Flattens

/-- A launch that inference and planning have accepted is one dispatch, whose threads make the
accesses of the family. -/
theorem row_traces (accepted : launch.Accepted inferred) (flattens : launch.Flattens inferred)
    (planned : launch.plan = .ok ds) : ∃ d, ds = [d] ∧ launch.Traced d := by
  have written := flattens.written accepted
  have family := flattens.family
  have planned := flattens.planFamily_of_plan accepted planned
  unfold planFamily at planned
  cases param : launch.param <;> rw [param] at planned family
  case matMul p =>
    obtain ⟨_, floats, -⟩ := Answer.bind_eq_ok.mp planned
    obtain ⟨l, d, one, multiplies⟩ :=
      MatMul.multiplies_of_plan accepted (flattens.measured floats) param planned
    exact ⟨d, one, .matMul param multiplies⟩
  case gather axis =>
    obtain ⟨l, d, one, gathers⟩ := Gather.gathers_of_plan accepted param flattens.float
      flattens.resolved flattens.few planned
    exact ⟨d, one, .gather param gathers⟩
  case layerNorm p =>
    obtain ⟨_, floats, -⟩ := Answer.bind_eq_ok.mp planned
    obtain ⟨l, d, one, normalizes⟩ :=
      LayerNorm.normalizes_of_plan accepted (flattens.measured floats) param planned
    exact ⟨d, one, .layerNorm param normalizes⟩
  case rmsNorm epsilon =>
    obtain ⟨_, floats, -⟩ := Answer.bind_eq_ok.mp planned
    obtain ⟨l, d, one, normalizes⟩ :=
      RmsNorm.normalizes_of_plan accepted (flattens.measured floats) written param planned
    exact ⟨d, one, .rmsNorm param normalizes⟩
  case softmax axis =>
    obtain ⟨_, floats, -⟩ := Answer.bind_eq_ok.mp planned
    obtain ⟨l, d, one, distributes⟩ :=
      Softmax.distributes_of_plan accepted (flattens.measured floats) written param planned
    exact ⟨d, one, .softmax param distributes⟩
  case activation kind =>
    obtain rfl : kind = .swiglu := by cases kind <;> simp_all [Operator.flattens]
    obtain ⟨_, floats, -⟩ := Answer.bind_eq_ok.mp planned
    obtain ⟨l, d, one, gated⟩ := Activation.gated_of_plan accepted (flattens.measured floats) param
      (flattens.shaped param) planned
    exact ⟨d, one, .gate param gated⟩
  all_goals simp [Operator.flattens] at family

/-- Two indices, and a table with two slices of three rows. -/
def pickedRows : Launch :=
  ⟨"pick", .gather (-2), [⟨.rowMajor .f32 ⟨[2, 3, 4]⟩, 0, 96⟩, ⟨.rowMajor .i32 ⟨[2]⟩, 128, 8⟩],
    [⟨.rowMajor .f32 ⟨[2, 2, 4]⟩, 192, 64⟩], none⟩

/-- Sixteen threads gather two rows of each slice. -/
theorem picked_rows_traces : ∃ d, pickedRows.plan = .ok [d] ∧ pickedRows.Traced d ∧
    d.threads = 16 := by
  have accepted : pickedRows.Accepted (pickedRows.outputs.map Binding.desc) :=
    ⟨by decide, by decide, by decide, by decide, by decide⟩
  have flattens : pickedRows.Flattens (pickedRows.outputs.map Binding.desc) :=
    ⟨rfl, by decide, by decide, by decide, by decide, fun other => by cases other⟩
  obtain ⟨ds, planned⟩ : ∃ ds, pickedRows.plan = .ok ds := ⟨_, rfl⟩
  obtain ⟨d, rfl, traced⟩ := row_traces accepted flattens planned
  refine ⟨d, planned, traced, ?_⟩
  cases planned
  rfl

end Launch

end OperatorGraph
