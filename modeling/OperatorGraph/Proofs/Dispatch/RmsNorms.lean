import OperatorGraph.Proofs.Dispatch.Measures
import OperatorGraph.Proofs.Dispatch.RowPasses

set_option autoImplicit false

namespace OperatorGraph.RmsNorm

open Dispatch Shader RowMajor

section

variable (l : Rows)

def accesses (row : Nat) : List Access :=
  l.pass (fun col => [.read (.tensor 1) (l.place row col), .read (.tensor 1) (l.place row col)]) ++
    l.pass fun col =>
      [.read (.tensor 1) (l.place row col), .read (.tensor 2) col, .write 3 (l.place row col)]

def addressing : Addressing where
  grid := [l.rows]
  trace
    | [row] => accesses l row
    | _ => []

/-- Arrays of the sizes of the tensor, of its gain and of the output. -/
structure Sized (size : Nat → Nat) : Prop where
  x : size 1 = l.rows * l.cols
  gain : size 2 = l.cols
  output : size 3 = l.rows * l.cols
  others : ∀ binding, 3 < binding → size binding = 0

end

section

variable {l : Rows}

theorem covers {size : Nat → Nat} (sized : Sized l size) : (addressing l).Covers size 2 := by
  refine Addressing.covers_of_rows l [] rfl (fun row inRows access member => ?_)
    (fun row inRows binding k => ?_) sized.output (by simp) fun binding behind _ =>
      sized.others binding behind
  · simp only [addressing, accesses, List.mem_append, Rows.mem_pass, List.mem_cons,
      List.not_mem_nil, or_false, or_self] at member
    rcases member with ⟨col, inCols, rfl⟩ | ⟨col, inCols, rfl | rfl | rfl⟩
    · rw [Access.within_read, sized.x]
      exact Rows.place_lt inRows inCols
    · rw [Access.within_read, sized.x]
      exact Rows.place_lt inRows inCols
    · rw [Access.within_read, sized.gain]
      exact inCols
    · rw [Access.within_write, sized.output]
      exact Rows.place_lt inRows inCols
  · show _ ∈ accesses l row ↔ _
    simp only [accesses, List.mem_append, Rows.mem_pass, List.mem_cons, List.not_mem_nil, or_false,
      reduceCtorEq, false_or, and_false, exists_false, Access.write.injEq, false_and]
    constructor
    · rintro ⟨col, inCols, same, there⟩
      exact ⟨same, col, inCols, there⟩
    · rintro ⟨same, col, inCols, there⟩
      exact ⟨col, inCols, same, there⟩

/-- The thread of a row goes over it twice. -/
theorem body_ends {F : Type} {arrays : Arrays F} {row : Nat} (sized : Sized l arrays.size)
    (few : l.rows * l.cols < 2 ^ 32) (columns : l.cols < 2 ^ 32)
    (reals : ∀ binding, ∀ i < arrays.size binding, ∃ x, arrays.cell binding i = .real x)
    (inRows : row < l.rows) {k : Kernel} {info : List UInt32} (m : Arithmetic F)
    (cols : info[1]? = some (UInt32.ofNat l.cols)) {epsilon : Nat}
    (bits : info[2]? = some (UInt32.ofNat epsilon)) :
    Stmt.Ends (k.context m info) body .next (Thread.fresh arrays row) fun v =>
      v.accesses = accesses l row := by
  refine .bindWord l.cols (.info cols) ?_
  refine .bindWord (row * l.cols) (.mul (.var (by simp)) (.var (by simp))) ?_
  have known : l.Known row arrays.size [] (((Thread.fresh arrays row).set "cols"
      (.word (UInt32.ofNat l.cols))).set "base" (.word (UInt32.ofNat (row * l.cols)))) :=
    ⟨by simp, by simp, by simp, by simp, rfl, reals⟩
  refine .declareReal (.real _) fun zero => ?_
  have summing := (known.after []).set "sq" (by decide) zero
  refine Rows.overColumns_ends (fun col =>
    [.read (.tensor 1) (l.place row col), .read (.tensor 1) (l.place row col)]) summing columns
      (by decide) (fun col inCols v holds counter => ?_) fun v summed first => ?_
  · have item := holds.item (c := k.context m info) counter few inRows inCols sized.x
    refine .addReal (.mul item item) (holds.reals "sq" (by simp)) fun x => .nil ⟨by simp, ?_⟩
    exact ((holds.after _).set "sq" (by decide) x).mono (by simp)
  refine .bindReal (.inverseSqrt (.add (.div (summed.real (by simp)) summed.cols_isReal)
    (.asFloat (.info bits)))) fun scale => ?_
  have scaled := (summed.after []).set "scale" (by decide) scale
  refine Rows.overColumns_ends (fun col => [.read (.tensor 1) (l.place row col),
    .read (.tensor 2) col, .write 3 (l.place row col)]) scaled columns (by decide)
      (fun col inCols v holds counter => ?_) fun v _ second => .nil ?_
  · refine holds.storeItem counter few inRows inCols sized.output (.mul (.mul
      (holds.item counter few inRows inCols sized.x) (holds.real (by simp)))
        (holds.shared counter columns inCols sized.gain)) fun x => .nil ⟨by simp, ?_⟩
    exact (holds.after _).write 3 _ x
  · simp [accesses, second, first]

end

/-- The dispatch that a normalization is planned as. -/
def dispatched (epsilon : Scalar) (l : Rows) (kernel : Kernel) (tensors : List Span) : Dispatch :=
  ⟨kernel.withBody body, [l.rows, l.cols].map UInt32.ofNat ++ [epsilon.bits], tensors⟩

/-- The threads of the dispatch normalize their rows. -/
theorem dispatched_follows {epsilon : Scalar} {l : Rows} {kernel : Kernel} {tensors : List Span}
    (floats : kernel.tensors = List.replicate tensors.length "f32")
    (sized : Sized l (Span.elementsAt tensors)) (few : l.rows * l.cols < 2 ^ 32)
    (rows : l.rows < 2 ^ 32) (columns : l.cols < 2 ^ 32) (integers : Nat → Nat → Int32) :
    (dispatched epsilon l kernel tensors).Follows integers 2 (addressing l) := by
  refine follows_of_rows l body rfl rfl rfl rows (covers sized) fun m arrays typed row inRows => ?_
  exact body_ends (typed.size ▸ sized) few columns (typed.all_reals floats) inRows m rfl
    (congrArg some (UInt32.ofNat_toNat (x := epsilon.bits)).symm)

/-- A plan that does not fail has one dispatch over the tensor, its gain and the output. -/
theorem plan_ok {epsilon : Scalar} {launch : Launch} {x gain out : Binding} {cols : Int}
    {ds : List Dispatch} (inputs : launch.inputs = [x, gain]) (outputs : launch.outputs = [out])
    (last : x.desc.shape.dims.getLast? = some cols) (planned : plan epsilon launch = .ok ds) :
    ∃ kernel, floatKernel 3 = .ok kernel ∧
      (∀ value ∈ [rowCount x.desc.shape cols, cols], 0 ≤ value ∧ value < 2 ^ 32) ∧
        ds = [onBindings (kernel.withBody body) ([rowCount x.desc.shape cols, cols].map
          (·.toNat.toUInt32) ++ [epsilon.bits]) [x, gain, out]] := by
  simp only [plan, inputs, outputs] at planned
  obtain ⟨_, -, planned⟩ := Answer.bind_eq_ok.mp planned
  obtain ⟨_, ⟨⟩, planned⟩ := Answer.bind_eq_ok.mp planned
  obtain ⟨_, ⟨⟩, planned⟩ := Answer.bind_eq_ok.mp planned
  obtain ⟨_, ⟨⟩, planned⟩ := Answer.bind_eq_ok.mp planned
  simp only [last, Option.getD_some] at planned
  obtain ⟨_, parameters, planned⟩ := Answer.bind_eq_ok.mp planned
  obtain ⟨kernel, bound, planned⟩ := Answer.bind_eq_ok.mp planned
  obtain ⟨small, rfl⟩ := words_eq_ok.mp parameters
  exact ⟨kernel, bound, small, (Except.ok.inj planned).symm⟩

/-- The dispatch normalizes the rows of the last axis. -/
structure Normalizes (launch : Launch) (l : Rows) (d : Dispatch) : Prop where
  rows : ∃ x, launch.inputs[0]? = some x ∧
    l = Rows.fromAxis x.desc.shape (x.desc.shape.rank - 1)
  tensors : d.tensors = (launch.inputs ++ launch.outputs).map Binding.span
  follows : ∀ integers, d.Follows integers launch.inputs.length (addressing l)

/-- The bound ranges hold the tensor, its gain and the output. -/
theorem sized {launch : Launch} {x gain : Binding} {l : Rows}
    (accepted : launch.Accepted [.rowMajor x.desc.dtype x.desc.shape]) (measured : launch.Measured)
    (inputs : launch.inputs = [x, gain]) (rows : x.desc.shape.extents.prod = l.rows * l.cols)
    (gains : gain.desc.shape.dims = [(l.cols : Int)]) :
    Sized l (Span.elementsAt ((launch.inputs ++ launch.outputs).map Binding.span)) := by
  have count : launch.inputs.length = 2 := by rw [inputs]; rfl
  have isX : x ∈ launch.inputs ++ launch.outputs := by simp [inputs]
  have output := measured.elementsAt_output accepted 0 rfl (measured.resolved x isX)
  have beyond := accepted.elementsAt_beyond
  rw [count] at output beyond
  refine ⟨?_, ?_, output.trans rows, beyond⟩
  · exact (measured.elementsAt_input accepted 0 (by rw [inputs]; rfl)).trans rows
  · rw [measured.elementsAt_input accepted 1 (b := gain) (by rw [inputs]; rfl), Shape.extents, gains]
    exact List.prod_singleton

/-- What is planned for a normalization that writes something normalizes rows. -/
theorem normalizes_of_plan {epsilon : Scalar} {launch : Launch} {inferred : List TensorDesc}
    {ds : List Dispatch} (accepted : launch.Accepted inferred) (measured : launch.Measured)
    (written : launch.outputs.all (·.bytes = 0) = false) (param : launch.param = .rmsNorm epsilon)
    (planned : plan epsilon launch = .ok ds) : ∃ l d, ds = [d] ∧ Normalizes launch l d := by
  obtain ⟨-, infers⟩ := Operator.infer_ok accepted.infers
  rw [param] at infers
  obtain ⟨_, _, cols, read, last, gains, rfl⟩ := inferRmsNorm_ok infers
  simp only [List.map_eq_cons_iff, List.map_eq_nil_iff] at read
  obtain ⟨x, _, inputs, rfl, gain, _, rfl, rfl, rfl⟩ := read
  obtain ⟨out, outputs⟩ := List.length_eq_one_iff.mp accepted.outputs.length_eq
  obtain ⟨kernel, floats, small, rfl⟩ := plan_ok inputs outputs last planned
  have isX : x ∈ launch.inputs ++ launch.outputs := by simp [inputs]
  obtain ⟨columns, rows⟩ := Rows.rowCount_eq last (measured.resolved x isX) (measured.few x isX)
    (accepted.elementCount_ne_zero written)
  rw [rows, columns] at small ⊢
  simp only [List.forall_mem_cons, List.not_mem_nil, false_imp_iff, implies_true, and_true] at small
  let l := Rows.fromAxis x.desc.shape (x.desc.shape.rank - 1)
  have few : l.rows * l.cols < 2 ^ 32 := by
    rw [Rows.prod_fromAxis]
    exact measured.few x isX
  have count : launch.inputs.length = 2 := by rw [inputs]; rfl
  have sized := sized accepted measured inputs (Rows.prod_fromAxis ..).symm
    (gains.trans (by rw [columns]))
  refine ⟨l, dispatched epsilon l kernel ((launch.inputs ++ launch.outputs).map Binding.span), ?_,
    ⟨x, by rw [inputs]; rfl, rfl⟩, rfl, ?_⟩
  · rw [inputs, outputs]
    rfl
  · rw [count]
    refine dispatched_follows ?_ sized few ?_ ?_
    · simpa [inputs, outputs] using floatKernel_ok floats
    · exact_mod_cast small.1.2
    · exact_mod_cast small.2.2

end OperatorGraph.RmsNorm
