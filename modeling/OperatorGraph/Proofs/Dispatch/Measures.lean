import OperatorGraph.Proofs.Dispatch.Contents
import OperatorGraph.Proofs.Dispatch.Planning

set_option autoImplicit false

namespace OperatorGraph

open Dispatch

theorem Binding.written_elements {b : Binding} (width : b.desc.dtype.size = 4)
    (sized : b.bytes = b.desc.byteSize?.getD 0) (written : b.bytes ≠ 0) :
    b.span.elements = b.desc.shape.elementCount.toNat := by
  cases found : b.desc.byteSize? with
  | none =>
    rw [found] at sized
    exact absurd sized written
  | some bytes =>
    rw [found, Option.getD_some, (TensorDesc.byteSize?_eq_some found).2.1, width] at sized
    show b.bytes / 4 = _
    rw [sized]
    exact Nat.mul_div_cancel _ (by decide)

theorem Dispatch.words_natCast {values : List Nat} (small : ∀ n ∈ values, n < 2 ^ 32) :
    words (values.map Nat.cast) = .ok (values.map UInt32.ofNat) := by
  refine words_eq_ok.mpr ⟨fun value member => ?_, ?_⟩
  · obtain ⟨n, listed, rfl⟩ := List.mem_map.mp member
    have below := small n listed
    omega
  · rw [List.map_map]
    rfl

theorem Dispatch.expectF32_eq_ok {launch : Launch} {done : Unit} : expectF32 launch = .ok done ↔
    ∀ b ∈ launch.inputs ++ launch.outputs, b.desc.dtype = .f32 := by
  have searched : (launch.inputs ++ launch.outputs).find? (·.desc.dtype ≠ .f32) = none ↔
      ∀ b ∈ launch.inputs ++ launch.outputs, b.desc.dtype = .f32 := by
    simp only [List.find?_eq_none, decide_not, Bool.not_eq_true', decide_eq_false_iff_not,
      Decidable.not_not]
  rw [← searched, expectF32]
  cases (launch.inputs ++ launch.outputs).find? (·.desc.dtype ≠ .f32) <;> simp [missing]

namespace Launch

/-- Where there are no tiles, a launch that writes something is planned by its family. -/
theorem Accepted.plan_eq {launch : Launch} {inferred : List TensorDesc}
    (accepted : launch.Accepted inferred)
    (plain : ∀ index, launch.param.acceptedFormats index = [.rowMajor])
    (kept : ∀ desc ∈ inferred, ∃ b ∈ launch.inputs, desc.format = b.desc.format)
    (written : launch.outputs.all (·.bytes = 0) = false) : launch.plan = launch.planFamily := by
  rw [plan, accepted.untiled plain kept]
  simp only [written, Bool.false_eq_true, if_false]

/-- Tensors with dimensions that are known, and with fewer elements than there are words, each of
which can be bound to a kernel. -/
structure Measured (launch : Launch) : Prop where
  bindable : ∀ b ∈ launch.inputs ++ launch.outputs, b.desc.dtype = .f32 ∨ b.desc.dtype = .i32
  resolved : ∀ b ∈ launch.inputs ++ launch.outputs, b.desc.shape.Resolved
  few : ∀ b ∈ launch.inputs ++ launch.outputs, b.desc.shape.extents.prod < 2 ^ 32

/-- An output with known dimensions stands for a tensor with as many elements. -/
theorem Accepted.output_extents {launch : Launch} {inferred : List TensorDesc}
    (accepted : launch.Accepted inferred) {j : Nat} {out : Binding} {desc : TensorDesc}
    (atOut : launch.outputs[j]? = some out) (atDesc : inferred[j]? = some desc)
    (resolved : out.desc.shape.Resolved) (few : out.desc.shape.extents.prod < 2 ^ 32)
    (known : desc.shape.Resolved) : out.desc.shape.extents.prod = desc.shape.extents.prod := by
  obtain ⟨-, -, same⟩ := Answer.getElem?_of_forall₂ accepted.outputs atOut atDesc
  rw [TensorDesc.elementCount_eq resolved few,
    TensorDesc.elementCount_of_fits known (accepted.fits desc (List.mem_of_getElem? atDesc)),
    ← Bounded.cast_prod_toNat known] at same
  exact Int.ofNat_inj.mp same

theorem Accepted.elementCount_ne_zero {launch : Launch} {desc : TensorDesc}
    (accepted : launch.Accepted [desc]) (written : launch.outputs.all (·.bytes = 0) = false) :
    desc.shape.elementCount ≠ 0 := by
  obtain ⟨other, member, nonzero⟩ := accepted.nonempty written
  rwa [List.mem_singleton.mp member] at nonzero

theorem Accepted.elementsAt_beyond {launch : Launch} {inferred : List TensorDesc}
    (accepted : launch.Accepted inferred) (binding : Nat)
    (beyond : launch.inputs.length + inferred.length < binding) :
    Span.elementsAt ((launch.inputs ++ launch.outputs).map Binding.span) binding = 0 := by
  refine Span.elementsAt_of_length_lt ?_
  rwa [List.length_map, List.length_append, accepted.outputs.length_eq]

namespace Measured

variable {launch : Launch} {inferred : List TensorDesc} (measured : launch.Measured)
  (accepted : launch.Accepted inferred)
include measured accepted

theorem elements_eq {b : Binding} (member : b ∈ launch.inputs ++ launch.outputs) :
    b.span.elements = b.desc.shape.extents.prod := by
  refine Binding.elements_eq (accepted.sized b member) (measured.resolved b member)
    (measured.few b member) ?_
  rcases measured.bindable b member with same | same <;> rw [same] <;> rfl

theorem output_elements {j : Nat} {out : Binding} {desc : TensorDesc}
    (atOut : launch.outputs[j]? = some out) (atDesc : inferred[j]? = some desc)
    (known : desc.shape.Resolved) : out.span.elements = desc.shape.extents.prod := by
  have member : out ∈ launch.inputs ++ launch.outputs :=
    List.mem_append_right _ (List.mem_of_getElem? atOut)
  rw [measured.elements_eq accepted member]
  exact accepted.output_extents atOut atDesc (measured.resolved out member) (measured.few out member)
    known

theorem elementsAt_input (place : Nat) {b : Binding} (found : launch.inputs[place]? = some b) :
    Span.elementsAt ((launch.inputs ++ launch.outputs).map Binding.span) (place + 1) =
      b.desc.shape.extents.prod := by
  have inside := (List.getElem?_eq_some_iff.mp found).1
  have bound : (launch.inputs ++ launch.outputs)[place]? = some b := by
    rwa [List.getElem?_append_left inside]
  rw [Span.elementsAt_of_getElem? bound]
  exact measured.elements_eq accepted (List.mem_of_getElem? bound)

theorem elementsAt_output (j : Nat) {desc : TensorDesc} (atDesc : inferred[j]? = some desc)
    (known : desc.shape.Resolved) :
    Span.elementsAt ((launch.inputs ++ launch.outputs).map Binding.span)
      (launch.inputs.length + j + 1) = desc.shape.extents.prod := by
  have inside := (List.getElem?_eq_some_iff.mp atDesc).1
  rw [← accepted.outputs.length_eq] at inside
  have atOut := List.getElem?_eq_getElem inside
  have bound : (launch.inputs ++ launch.outputs)[launch.inputs.length + j]? =
      some launch.outputs[j] := by
    rw [List.getElem?_append_right (Nat.le_add_right ..), Nat.add_sub_cancel_left, atOut]
  rw [Span.elementsAt_of_getElem? bound]
  exact measured.output_elements accepted atOut atDesc known

end Measured

end Launch

end OperatorGraph
