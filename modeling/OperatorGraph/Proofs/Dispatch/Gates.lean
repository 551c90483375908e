import OperatorGraph.Dispatch.Elementwise
import OperatorGraph.Proofs.Dispatch.Measures
import OperatorGraph.Proofs.Dispatch.RowPasses

set_option autoImplicit false

namespace OperatorGraph.Activation

open Dispatch Shader RowMajor

section

variable (l : Rows)

/-- The rows of the input. -/
def doubled : Rows :=
  ⟨l.rows, 2 * l.cols⟩

def gateAddressing : Addressing where
  grid := [l.rows, l.cols]
  trace
    | [row, col] => [.read (.tensor 1) ((doubled l).place row col),
        .read (.tensor 1) ((doubled l).place row (l.cols + col)), .write 2 (l.place row col)]
    | _ => []

/-- Arrays of the sizes of the input and of the output. -/
structure GateSized (size : Nat → Nat) : Prop where
  x : size 1 = l.rows * (2 * l.cols)
  output : size 2 = l.rows * l.cols
  others : ∀ binding, 2 < binding → size binding = 0

end

/-- The function of one element of the first half. -/
def gate : Function :=
  ⟨0, "f32", functionBody .swiglu, [("x", "f32")]⟩

def gateKernel : Kernel :=
  ⟨["f32", "f32"], [gate], .program (gateBody gate)⟩

theorem gate_answers {F : Type} (m : Arithmetic F) (info : List UInt32) (x : F) :
    ∃ y, (gateKernel.context m info).call gate.name [.real x] = .ok (.real y) :=
  ⟨_, rfl⟩

section

variable {l : Rows} {row col : Nat} (inRows : row < l.rows) (inCols : col < l.cols)

section

include inRows inCols

theorem first_lt : (doubled l).place row col < l.rows * (2 * l.cols) :=
  Rows.place_lt (l := doubled l) inRows (by show col < 2 * l.cols; omega)

theorem second_lt : (doubled l).place row (l.cols + col) < l.rows * (2 * l.cols) :=
  Rows.place_lt (l := doubled l) inRows (by show l.cols + col < 2 * l.cols; omega)

end

theorem covers_gate {size : Nat → Nat} (sized : GateSized l size) :
    (gateAddressing l).Covers size 1 := by
  refine Addressing.covers_of_own (fun coords inside access member => ?_)
    (fun coords inside binding k => ?_) (by rw [sized.output]; exact (List.prod_pair).symm)
    sized.others
  · obtain ⟨row, inRows, col, inCols, rfl⟩ := inside_pair.mp inside
    simp only [gateAddressing, List.mem_cons, List.not_mem_nil, or_false] at member
    rcases member with rfl | rfl | rfl
    · rw [Access.within_read, sized.x]
      exact first_lt inRows inCols
    · rw [Access.within_read, sized.x]
      exact second_lt inRows inCols
    · rw [Access.within_write, sized.output]
      exact Rows.place_lt inRows inCols
  · obtain ⟨row, -, col, -, rfl⟩ := inside_pair.mp inside
    simp [gateAddressing, Rows.place]

include inRows inCols

/-- The thread of an element gates it. -/
theorem gateBody_ends {F : Type} {arrays : Arrays F} (sized : GateSized l arrays.size)
    (few : l.rows * (2 * l.cols) < 2 ^ 32) (columns : l.cols < 2 ^ 32)
    (reals : ∀ binding, ∀ i < arrays.size binding, ∃ x, arrays.cell binding i = .real x)
    {info : List UInt32} (m : Arithmetic F) (half : info[1]? = some (UInt32.ofNat l.cols)) :
    Stmt.Ends (gateKernel.context m info) (gateBody gate) .next
      (Thread.fresh arrays (l.place row col)) fun v =>
        v.accesses = (gateAddressing l).trace [row, col] := by
  have thread := Rows.place_lt inRows inCols
  have small : l.place row col < 2 ^ 32 := by
    have less : l.rows * l.cols ≤ l.rows * (2 * l.cols) := Nat.mul_le_mul_left _ (by omega)
    omega
  have first := first_lt inRows inCols
  have second := second_lt inRows inCols
  refine .bindWord l.cols (.info half) ?_
  let informed := (Thread.fresh arrays (l.place row col)).set "half" (.word (UInt32.ofNat l.cols))
  have index : Expr.thread.IsWord (gateKernel.context m info) informed (l.place row col) :=
    .var (by simp [informed])
  have cols : (Expr.var "half").IsWord (gateKernel.context m info) informed l.cols :=
    .var (by simp [informed])
  refine .bindWord ((doubled l).place row col) (.eq (.add (.mul (.mul (.group
    (.div index cols small columns (by omega))) (.word 2)) cols)
      (.mod index cols small columns (by omega))) ?_) ?_
  · rw [Rows.place_eq, Rows.place_eq, row_of_position inCols, col_of_position inCols, Nat.mul_assoc]
    rfl
  have smallFirst := first.trans few
  have smallSecond := second.trans few
  rw [← sized.x] at first second
  refine .storeReal (.var (by simp)) small (sized.output ▸ thread)
    (.mul (.call (.tensor (.var (n := (doubled l).place row col) (by simp))
      smallFirst first (reals 1 _ first)) (gate_answers m info))
      (.tensor (n := (doubled l).place row (l.cols + col))
        (.eq (.add (.var (n := (doubled l).place row col) (by simp))
          (.var (n := l.cols) (by simp))) ?_) smallSecond second (reals 1 _ second)))
    fun x => .nil ?_
  · simp only [Rows.place_eq]
    omega
  · simp [gateAddressing]

end

/-- The dispatch that a gate is planned as. -/
def gateDispatch (l : Rows) (tensors : List Span) : Dispatch :=
  ⟨gateKernel, [l.rows * l.cols, l.cols].map UInt32.ofNat, tensors⟩

/-- The threads of the dispatch gate their elements. -/
theorem gateDispatch_follows {l : Rows} {tensors : List Span} (two : tensors.length = 2)
    (sized : GateSized l (Span.elementsAt tensors)) (few : l.rows * (2 * l.cols) < 2 ^ 32)
    (columns : l.cols < 2 ^ 32) (integers : Nat → Nat → Int32) :
    (gateDispatch l tensors).Follows integers 1 (gateAddressing l) := by
  have grid : (gateAddressing l).grid.prod = l.rows * l.cols := List.prod_pair
  have less : l.rows * l.cols ≤ l.rows * (2 * l.cols) := Nat.mul_le_mul_left _ (by omega)
  refine follows_of_covers (gateBody gate) rfl (by rw [grid]; rfl) (by omega) (covers_gate sized) ?_
  intro F m arrays typed coords inside
  obtain ⟨row, inRows, col, inCols, rfl⟩ := inside_pair.mp inside
  have floats : gateKernel.tensors = List.replicate tensors.length "f32" := by
    rw [two]
    rfl
  exact ⟨.next, gateBody_ends inRows inCols (typed.size ▸ sized) few columns
    (typed.all_reals floats) m rfl⟩

/-- A plan that does not fail has one dispatch over both tensors. -/
theorem plan_gate_ok {launch : Launch} {x out : Binding} {half : Int} {ds : List Dispatch}
    (inputs : launch.inputs = [x]) (outputs : launch.outputs = [out])
    (last : out.desc.shape.dims.getLast? = some half) (planned : swiglu.plan launch = .ok ds) :
    (∀ value ∈ [out.desc.shape.elementCount, half], 0 ≤ value ∧ value < 2 ^ 32) ∧
      ds = [onBindings gateKernel ([out.desc.shape.elementCount, half].map (·.toNat.toUInt32))
        [x, out]] := by
  obtain ⟨_, floats, planned⟩ := Answer.bind_eq_ok.mp planned
  rw [expectF32_eq_ok, inputs, outputs] at floats
  simp only [inputs, outputs] at planned
  obtain ⟨_, ⟨⟩, planned⟩ := Answer.bind_eq_ok.mp planned
  obtain ⟨_, ⟨⟩, planned⟩ := Answer.bind_eq_ok.mp planned
  rw [floats x (by simp), floats out (by simp), last] at planned
  obtain ⟨_, ⟨⟩, planned⟩ := Answer.bind_eq_ok.mp planned
  obtain ⟨_, parameters, planned⟩ := Answer.bind_eq_ok.mp planned
  obtain ⟨small, rfl⟩ := words_eq_ok.mp parameters
  exact ⟨small, (Except.ok.inj planned).symm⟩

/-- The dispatch gates rows of two halves. -/
structure Gated (launch : Launch) (l : Rows) (d : Dispatch) : Prop where
  rows : ∃ x out, launch.inputs = [x] ∧ launch.outputs = [out] ∧
    l = Rows.fromAxis out.desc.shape (out.desc.shape.rank - 1) ∧
      x.desc.shape.extents = out.desc.shape.extents.dropLast ++ [2 * l.cols]
  tensors : d.tensors = (launch.inputs ++ launch.outputs).map Binding.span
  follows : ∀ integers, d.Follows integers launch.inputs.length (gateAddressing l)

theorem extents_doubled {x out : Shape} {front : List Int} {half : Nat}
    (halves : x.dims = front ++ [2 * (half : Int)]) (whole : out.dims = front ++ [(half : Int)]) :
    x.extents = out.extents.dropLast ++ [2 * (Rows.fromAxis out (out.rank - 1)).cols] := by
  rw [Rows.fromAxis_last whole, Shape.extents, Shape.extents, halves, whole, List.map_append,
    List.map_append, List.map_singleton, List.map_singleton, List.dropLast_concat]
  rfl

theorem prod_doubled {x out : Shape} {front : List Int} {half : Nat}
    (halves : x.dims = front ++ [2 * (half : Int)]) (whole : out.dims = front ++ [(half : Int)]) :
    x.extents.prod = (Rows.fromAxis out (out.rank - 1)).rows *
      (2 * (Rows.fromAxis out (out.rank - 1)).cols) := by
  rw [Rows.fromAxis_last whole, Shape.extents, halves, List.map_append, List.prod_append,
    List.map_singleton, List.prod_singleton]
  rfl

/-- The bound ranges hold the input and the output. -/
theorem gate_sized {launch : Launch} {inferred : TensorDesc} {x out : Binding} {l : Rows}
    (accepted : launch.Accepted [inferred]) (measured : launch.Measured)
    (inputs : launch.inputs = [x]) (outputs : launch.outputs = [out])
    (same : out.desc.shape = inferred.shape)
    (halves : x.desc.shape.extents.prod = l.rows * (2 * l.cols))
    (rows : out.desc.shape.extents.prod = l.rows * l.cols) :
    GateSized l (Span.elementsAt ((launch.inputs ++ launch.outputs).map Binding.span)) := by
  have count : launch.inputs.length = 1 := by rw [inputs]; rfl
  have isOut : out ∈ launch.inputs ++ launch.outputs := by simp [outputs]
  have output := measured.elementsAt_output accepted 0 rfl (same ▸ measured.resolved out isOut)
  have beyond := accepted.elementsAt_beyond
  rw [count] at output beyond
  rw [same] at rows
  refine ⟨?_, output.trans rows, beyond⟩
  exact (measured.elementsAt_input accepted 0 (by rw [inputs]; rfl)).trans halves

/-- What is planned for a gate whose output has the inferred shape gates rows. -/
theorem gated_of_plan {launch : Launch} {inferred : List TensorDesc} {ds : List Dispatch}
    (accepted : launch.Accepted inferred) (measured : launch.Measured)
    (param : launch.param = .activation .swiglu)
    (shaped : launch.outputs.map (·.desc.shape) = inferred.map TensorDesc.shape)
    (planned : swiglu.plan launch = .ok ds) : ∃ l d, ds = [d] ∧ Gated launch l d := by
  obtain ⟨-, infers⟩ := Operator.infer_ok accepted.infers
  rw [param] at infers
  obtain ⟨_, front, half, read, halves, rfl⟩ := infer_gate_ok infers
  simp only [List.map_eq_cons_iff, List.map_eq_nil_iff] at read
  obtain ⟨x, _, inputs, rfl, rfl⟩ := read
  obtain ⟨out, outputs⟩ := List.length_eq_one_iff.mp accepted.outputs.length_eq
  have same : out.desc.shape = ⟨front ++ [half]⟩ := by
    rw [outputs] at shaped
    exact List.singleton_inj.mp shaped
  have whole : out.desc.shape.dims = front ++ [half] := congrArg Shape.dims same
  have last : out.desc.shape.dims.getLast? = some half := by rw [whole, List.getLast?_concat]
  obtain ⟨small, rfl⟩ := plan_gate_ok inputs outputs last planned
  have isX : x ∈ launch.inputs ++ launch.outputs := by simp [inputs]
  have isOut : out ∈ launch.inputs ++ launch.outputs := by simp [outputs]
  have known : 0 ≤ half := measured.resolved out isOut half (by simp [whole])
  lift half to Nat using known
  let l := Rows.fromAxis out.desc.shape (out.desc.shape.rank - 1)
  have elements : out.desc.shape.extents.prod = l.rows * l.cols := (Rows.prod_fromAxis ..).symm
  have product : x.desc.shape.extents.prod = l.rows * (2 * l.cols) := prod_doubled halves whole
  have threads : out.desc.shape.elementCount = ((l.rows * l.cols : Nat) : Int) := by
    rw [← elements]
    exact TensorDesc.elementCount_eq (measured.resolved out isOut) (measured.few out isOut)
  have columns : half = l.cols := congrArg Rows.cols (Rows.fromAxis_last whole).symm
  rw [threads, columns] at small ⊢
  simp only [List.forall_mem_cons, List.not_mem_nil, false_imp_iff, implies_true, and_true] at small
  refine ⟨l, gateDispatch l ((launch.inputs ++ launch.outputs).map Binding.span), ?_,
    ⟨x, out, inputs, outputs, rfl, extents_doubled halves whole⟩, rfl, ?_⟩
  · rw [inputs, outputs]
    rfl
  · have count : launch.inputs.length = 1 := by rw [inputs]; rfl
    rw [count]
    refine gateDispatch_follows (by simp [inputs, outputs])
      (gate_sized accepted measured inputs outputs same product elements) ?_ (by omega)
    rw [← product]
    exact measured.few x isX

end OperatorGraph.Activation
