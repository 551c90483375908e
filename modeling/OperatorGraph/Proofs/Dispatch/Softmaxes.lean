import OperatorGraph.Proofs.Dispatch.Measures
import OperatorGraph.Proofs.Dispatch.RowPasses

set_option autoImplicit false

namespace OperatorGraph.Softmax

open Dispatch Shader RowMajor

section

variable (l : Rows)

def accesses (row : Nat) : List Access :=
  [.read (.tensor 1) (l.place row 0)] ++
    (List.range' 1 (l.cols - 1)).flatMap (fun col => [.read (.tensor 1) (l.place row col)]) ++
    l.pass (fun col => [.read (.tensor 1) (l.place row col), .write 2 (l.place row col)]) ++
    l.pass fun col => [.read (.tensor 2) (l.place row col), .write 2 (l.place row col)]

def addressing : Addressing where
  grid := [l.rows]
  trace
    | [row] => accesses l row
    | _ => []

/-- Arrays of the sizes of the tensor and of the output. -/
structure Sized (size : Nat → Nat) : Prop where
  x : size 1 = l.rows * l.cols
  output : size 2 = l.rows * l.cols
  others : ∀ binding, 2 < binding → size binding = 0

end

section

variable {l : Rows}

/-- An access of a row's thread is to an element of the row. -/
theorem of_mem_accesses (positive : 0 < l.cols) {row : Nat} {access : Access}
    (member : access ∈ accesses l row) : ∃ col < l.cols,
      access = .read (.tensor 1) (l.place row col) ∨ access = .read (.tensor 2) (l.place row col) ∨
        access = .write 2 (l.place row col) := by
  simp only [accesses, List.mem_append, Rows.mem_pass, List.mem_cons, List.not_mem_nil, or_false,
    List.mem_flatMap, List.mem_range'_1] at member
  rcases member with ((rfl | ⟨col, range, rfl⟩) | ⟨col, inCols, rfl | rfl⟩) |
    ⟨col, inCols, rfl | rfl⟩
  · exact ⟨0, positive, .inl rfl⟩
  · exact ⟨col, by omega, .inl rfl⟩
  · exact ⟨col, inCols, .inl rfl⟩
  · exact ⟨col, inCols, .inr (.inr rfl)⟩
  · exact ⟨col, inCols, .inr (.inl rfl)⟩
  · exact ⟨col, inCols, .inr (.inr rfl)⟩

theorem write_mem_accesses {row col : Nat} (inCols : col < l.cols) :
    .write 2 (l.place row col) ∈ accesses l row := by
  refine List.mem_append_right _ (Rows.mem_pass.mpr ⟨col, inCols, ?_⟩)
  simp

theorem covers (positive : 0 < l.cols) {size : Nat → Nat} (sized : Sized l size) :
    (addressing l).Covers size 1 := by
  refine Addressing.covers_of_rows l [] rfl (fun row inRows access member => ?_)
    (fun row inRows binding k => ⟨fun member => ?_, ?_⟩) sized.output (by simp) fun binding behind _ =>
      sized.others binding behind
  · obtain ⟨col, inCols, rfl | rfl | rfl⟩ := of_mem_accesses positive member
    · rw [Access.within_read, sized.x]
      exact Rows.place_lt inRows inCols
    · rw [Access.within_read, sized.output]
      exact Rows.place_lt inRows inCols
    · rw [Access.within_write, sized.output]
      exact Rows.place_lt inRows inCols
  · obtain ⟨col, inCols, same⟩ := of_mem_accesses positive member
    simp only [reduceCtorEq, Access.write.injEq, false_or] at same
    exact .inl ⟨same.1, col, inCols, same.2⟩
  · rintro (⟨rfl, col, inCols, rfl⟩ | ⟨mark, -⟩)
    · exact write_mem_accesses inCols
    · simp at mark

variable {F : Type} {arrays : Arrays F} {row : Nat} (positive : 0 < l.cols)
  (sized : Sized l arrays.size) (few : l.rows * l.cols < 2 ^ 32) (columns : l.cols < 2 ^ 32)
  (reals : ∀ binding, ∀ i < arrays.size binding, ∃ x, arrays.cell binding i = .real x)
  (inRows : row < l.rows)
include positive sized few columns reals inRows

/-- The thread of a row goes over it three times. -/
theorem body_ends {k : Kernel} {info : List UInt32} (m : Arithmetic F)
    (cols : info[1]? = some (UInt32.ofNat l.cols)) :
    Stmt.Ends (k.context m info) body .next (Thread.fresh arrays row) fun v =>
      v.accesses = accesses l row := by
  refine .bindWord l.cols (.info cols) ?_
  refine .bindWord (row * l.cols) (.mul (.var (by simp)) (.var (by simp))) ?_
  have known : l.Known row arrays.size [] (((Thread.fresh arrays row).set "cols"
      (.word (UInt32.ofNat l.cols))).set "base" (.word (UInt32.ofNat (row * l.cols)))) :=
    ⟨by simp, by simp, by simp, by simp, rfl, reals⟩
  have first := Rows.place_lt inRows positive
  have inside : l.place row 0 < arrays.size 1 := sized.x ▸ first
  refine .declareReal (.tensor (n := l.place row 0) (.eq (.var known.base) ?_) (first.trans few)
    inside (reals 1 _ inside)) fun head => ?_
  · rw [Rows.place_eq, Nat.add_zero]
  have peaking := (known.after [.read (.tensor 1) (l.place row 0)]).set "peak" (by decide) head
  refine .tallyFrom l.cols (fun col => [.read (.tensor 1) (l.place row col)])
    (l.Known row arrays.size ["peak"]) 1 (.word 1) (.var peaking.cols) (by decide) columns peaking
      (fun col _ inCols v holds => ?_) fun v peaked peaks => ?_
  · have counted := holds.count (by decide) (.word (UInt32.ofNat col))
    refine .assignReal (.max (counted.real (by simp)) (counted.item (by simp) few inRows inCols
      sized.x)) fun x => .nil ⟨by simp, ?_⟩
    exact ((counted.after _).set "peak" (by decide) x).mono (by simp)
  refine .declareReal (.real _) fun zero => ?_
  have summing := (peaked.after []).set "total" (by decide) zero
  refine Rows.overColumns_ends (fun col =>
    [.read (.tensor 1) (l.place row col), .write 2 (l.place row col)]) summing columns (by decide)
      (fun col inCols v holds counter => ?_) fun v summed sums => ?_
  · refine .bindReal (.exp (.sub (holds.item counter few inRows inCols sized.x)
      (holds.real (by simp)))) fun e => ?_
    have apart := (holds.after [.read (.tensor 1) (l.place row col)]).set "e" (by decide) e
    refine apart.storeItem (by simpa using counter) few inRows inCols sized.output
      (apart.real (by simp)) fun x => ?_
    have stored := (apart.after []).write 2 (l.place row col) x
    refine .addReal (stored.real (by simp)) (stored.reals "total" (by simp)) fun y =>
      .nil ⟨by simp, ?_⟩
    exact ((stored.after _).set "total" (by decide) y).mono (by simp)
  refine Rows.overColumns_ends (fun col =>
    [.read (.tensor 2) (l.place row col), .write 2 (l.place row col)]) summed columns (by decide)
      (fun col inCols v holds counter => ?_) fun v _ quotients => .nil ?_
  · refine holds.storeItem counter few inRows inCols sized.output (.div
      (holds.item counter few inRows inCols sized.output) (holds.real (by simp))) fun x =>
        .nil ⟨by simp, ?_⟩
    exact (holds.after _).write 2 _ x
  · simp [accesses, quotients, sums, peaks]

end

/-- The dispatch that a softmax is planned as. -/
def dispatched (l : Rows) (kernel : Kernel) (tensors : List Span) : Dispatch :=
  ⟨kernel.withBody body, [l.rows, l.cols].map UInt32.ofNat, tensors⟩

/-- The threads of the dispatch compute the softmax of their rows. -/
theorem dispatched_follows {l : Rows} {kernel : Kernel} {tensors : List Span}
    (floats : kernel.tensors = List.replicate tensors.length "f32") (positive : 0 < l.cols)
    (sized : Sized l (Span.elementsAt tensors)) (few : l.rows * l.cols < 2 ^ 32)
    (rows : l.rows < 2 ^ 32) (columns : l.cols < 2 ^ 32) (integers : Nat → Nat → Int32) :
    (dispatched l kernel tensors).Follows integers 1 (addressing l) := by
  refine follows_of_rows l body rfl rfl rfl rows (covers positive sized)
    fun m arrays typed row inRows => ?_
  exact body_ends positive (typed.size ▸ sized) few columns (typed.all_reals floats) inRows m rfl

/-- A plan that does not fail has one dispatch over the tensor and the output. -/
theorem plan_ok {axis : Int} {launch : Launch} {x out : Binding} {cols : Int}
    {ds : List Dispatch} (inputs : launch.inputs = [x]) (outputs : launch.outputs = [out])
    (last : x.desc.shape.dims.getLast? = some cols) (planned : plan axis launch = .ok ds) :
    x.desc.shape.axis? axis = innerAxis? x.desc.shape ∧ ∃ kernel, floatKernel 2 = .ok kernel ∧
      (∀ value ∈ [rowCount x.desc.shape cols, cols], 0 ≤ value ∧ value < 2 ^ 32) ∧
        ds = [onBindings (kernel.withBody body) ([rowCount x.desc.shape cols, cols].map
          (·.toNat.toUInt32)) [x, out]] := by
  simp only [plan, inputs, outputs] at planned
  obtain ⟨_, -, planned⟩ := Answer.bind_eq_ok.mp planned
  obtain ⟨_, ⟨⟩, planned⟩ := Answer.bind_eq_ok.mp planned
  obtain ⟨_, ⟨⟩, planned⟩ := Answer.bind_eq_ok.mp planned
  split at planned
  · simp [missing] at planned
  · rename_i inner
    simp only [last, Option.getD_some] at planned
    obtain ⟨_, parameters, planned⟩ := Answer.bind_eq_ok.mp planned
    obtain ⟨kernel, bound, planned⟩ := Answer.bind_eq_ok.mp planned
    obtain ⟨small, rfl⟩ := words_eq_ok.mp parameters
    exact ⟨Decidable.not_not.mp inner, kernel, bound, small, (Except.ok.inj planned).symm⟩

/-- The dispatch computes the softmax of the rows of the last axis. -/
structure Distributes (axis : Int) (launch : Launch) (l : Rows) (d : Dispatch) : Prop where
  rows : ∃ x, launch.inputs[0]? = some x ∧ x.desc.shape.axis? axis = some (x.desc.shape.rank - 1) ∧
    l = Rows.fromAxis x.desc.shape (x.desc.shape.rank - 1)
  tensors : d.tensors = (launch.inputs ++ launch.outputs).map Binding.span
  follows : ∀ integers, d.Follows integers launch.inputs.length (addressing l)

theorem sized {launch : Launch} {x : Binding} {l : Rows} (accepted : launch.Accepted [x.desc])
    (measured : launch.Measured) (inputs : launch.inputs = [x])
    (rows : x.desc.shape.extents.prod = l.rows * l.cols) :
    Sized l (Span.elementsAt ((launch.inputs ++ launch.outputs).map Binding.span)) := by
  have count : launch.inputs.length = 1 := by rw [inputs]; rfl
  have isX : x ∈ launch.inputs ++ launch.outputs := by simp [inputs]
  have output := measured.elementsAt_output accepted 0 rfl (measured.resolved x isX)
  have beyond := accepted.elementsAt_beyond
  rw [count] at output beyond
  refine ⟨?_, output.trans rows, beyond⟩
  exact (measured.elementsAt_input accepted 0 (by rw [inputs]; rfl)).trans rows

/-- What is planned for a softmax that writes something computes it row by row. -/
theorem distributes_of_plan {axis : Int} {launch : Launch} {inferred : List TensorDesc}
    {ds : List Dispatch} (accepted : launch.Accepted inferred) (measured : launch.Measured)
    (written : launch.outputs.all (·.bytes = 0) = false) (param : launch.param = .softmax axis)
    (planned : plan axis launch = .ok ds) : ∃ l d, ds = [d] ∧ Distributes axis launch l d := by
  obtain ⟨-, infers⟩ := Operator.infer_ok accepted.infers
  rw [param] at infers
  obtain ⟨_, position, read, found, rfl⟩ := inferSoftmax_ok infers
  simp only [List.map_eq_cons_iff, List.map_eq_nil_iff] at read
  obtain ⟨x, _, inputs, rfl, rfl⟩ := read
  obtain ⟨out, outputs⟩ := List.length_eq_one_iff.mp accepted.outputs.length_eq
  have rank := Shape.axis?_lt found
  obtain ⟨cols, last⟩ : ∃ cols, x.desc.shape.dims.getLast? = some cols := by
    refine ⟨_, List.getLast?_eq_some_getLast fun none => ?_⟩
    rw [Shape.rank, none] at rank
    exact absurd rank (Nat.not_lt_zero _)
  obtain ⟨inner, kernel, floats, small, rfl⟩ := plan_ok inputs outputs last planned
  have isX : x ∈ launch.inputs ++ launch.outputs := by simp [inputs]
  have nonzero : x.desc.shape.elementCount ≠ 0 := accepted.elementCount_ne_zero written
  obtain ⟨columns, rows⟩ :=
    Rows.rowCount_eq last (measured.resolved x isX) (measured.few x isX) nonzero
  rw [rows, columns] at small ⊢
  simp only [List.forall_mem_cons, List.not_mem_nil, false_imp_iff, implies_true, and_true] at small
  let l := Rows.fromAxis x.desc.shape (x.desc.shape.rank - 1)
  have whole : l.rows * l.cols = x.desc.shape.extents.prod := Rows.prod_fromAxis ..
  have few : l.rows * l.cols < 2 ^ 32 := whole ▸ measured.few x isX
  have positive : 0 < l.cols := by
    refine Nat.pos_of_ne_zero fun none => nonzero ?_
    rw [TensorDesc.elementCount_eq (measured.resolved x isX) (measured.few x isX), ← whole, none]
    rfl
  have count : launch.inputs.length = 1 := by rw [inputs]; rfl
  have sized := sized accepted measured inputs whole.symm
  refine ⟨l, dispatched l kernel ((launch.inputs ++ launch.outputs).map Binding.span), ?_,
    ⟨x, by rw [inputs]; rfl, ?_, rfl⟩, rfl, ?_⟩
  · rw [inputs, outputs]
    rfl
  · rw [inner, innerAxis?, if_neg (by omega)]
  · rw [count]
    refine dispatched_follows ?_ positive sized few ?_ ?_
    · simpa [inputs, outputs] using floatKernel_ok floats
    · exact_mod_cast small.1.2
    · exact_mod_cast small.2.2

end OperatorGraph.Softmax
