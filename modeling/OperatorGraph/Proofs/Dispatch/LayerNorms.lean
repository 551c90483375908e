import OperatorGraph.Proofs.Dispatch.Measures
import OperatorGraph.Proofs.Dispatch.RowPasses

set_option autoImplicit false

namespace OperatorGraph.LayerNorm

open Dispatch Shader RowMajor

section

variable (p : LayerNorm) (l : Rows)

/-- The tensors that hold a number of every row. -/
def marks : List Nat :=
  if p.withStats then [5, 6] else []

def accesses (row : Nat) : List Access :=
  l.pass (fun col => [.read (.tensor 1) (l.place row col)]) ++
    l.pass (fun col => [.read (.tensor 1) (l.place row col)]) ++
    l.pass (fun col => [.read (.tensor 1) (l.place row col), .read (.tensor 2) col,
      .read (.tensor 3) col, .write 4 (l.place row col)]) ++
    p.marks.map fun mark => .write mark row

def addressing : Addressing where
  grid := [l.rows]
  trace
    | [row] => p.accesses l row
    | _ => []

/-- Arrays of the sizes of the tensor, of its parameters and of the outputs. -/
structure Sized (size : Nat → Nat) : Prop where
  x : size 1 = l.rows * l.cols
  gain : size 2 = l.cols
  bias : size 3 = l.cols
  output : size 4 = l.rows * l.cols
  stats : ∀ mark ∈ p.marks, size mark = l.rows
  others : ∀ binding, 4 < binding → binding ∉ p.marks → size binding = 0

end

section

variable {p : LayerNorm} {l : Rows}

theorem mem_marks {mark : Nat} (member : mark ∈ p.marks) :
    p.withStats = true ∧ (mark = 5 ∨ mark = 6) := by
  unfold marks at member
  cases stats : p.withStats <;> simp_all

theorem covers {size : Nat → Nat} (sized : p.Sized l size) : (p.addressing l).Covers size 3 := by
  refine Addressing.covers_of_rows l p.marks rfl (fun row inRows access member => ?_)
    (fun row inRows binding k => ?_) sized.output (fun mark member => ?_) sized.others
  · simp only [addressing, accesses, List.mem_append, Rows.mem_pass, List.mem_cons,
      List.not_mem_nil, or_false, List.mem_map] at member
    rcases member with ((⟨col, inCols, rfl⟩ | ⟨col, inCols, rfl⟩) | ⟨col, inCols, member⟩) |
      ⟨mark, member, rfl⟩
    · rw [Access.within_read, sized.x]
      exact Rows.place_lt inRows inCols
    · rw [Access.within_read, sized.x]
      exact Rows.place_lt inRows inCols
    · rcases member with rfl | rfl | rfl | rfl
      · rw [Access.within_read, sized.x]
        exact Rows.place_lt inRows inCols
      · rw [Access.within_read, sized.gain]
        exact inCols
      · rw [Access.within_read, sized.bias]
        exact inCols
      · rw [Access.within_write, sized.output]
        exact Rows.place_lt inRows inCols
    · rw [Access.within_write, sized.stats mark member]
      exact inRows
  · show _ ∈ p.accesses l row ↔ _
    simp only [accesses, List.mem_append, Rows.mem_pass, List.mem_cons, List.not_mem_nil, or_false,
      List.mem_map, reduceCtorEq, false_or, and_false, exists_false, Access.write.injEq]
    constructor
    · rintro (⟨col, inCols, rfl, rfl⟩ | ⟨_, member, rfl, rfl⟩)
      · exact .inl ⟨rfl, col, inCols, rfl⟩
      · exact .inr ⟨member, rfl⟩
    · rintro (⟨rfl, col, inCols, rfl⟩ | ⟨member, rfl⟩)
      · exact .inl ⟨col, inCols, rfl, rfl⟩
      · exact .inr ⟨_, member, rfl, rfl⟩
  · obtain ⟨-, rfl | rfl⟩ := mem_marks member
    · exact ⟨by decide, sized.stats _ member⟩
    · exact ⟨by decide, sized.stats _ member⟩

variable {F : Type} {arrays : Arrays F} {row : Nat} (sized : p.Sized l arrays.size)
  (few : l.rows * l.cols < 2 ^ 32) (columns : l.cols < 2 ^ 32)
  (reals : ∀ binding, ∀ i < arrays.size binding, ∃ x, arrays.cell binding i = .real x)
  (inRows : row < l.rows)
include sized few columns reals inRows

/-- The thread of a row goes over it three times. -/
theorem passes_end {k : Kernel} {info : List UInt32} (m : Arithmetic F)
    (cols : info[1]? = some (UInt32.ofNat l.cols)) {epsilon : Nat}
    (bits : info[2]? = some (UInt32.ofNat epsilon)) :
    Stmt.Ends (k.context m info) body .next (Thread.fresh arrays row) fun v =>
      v.accesses = l.pass (fun col => [.read (.tensor 1) (l.place row col)]) ++
        l.pass (fun col => [.read (.tensor 1) (l.place row col)]) ++
        l.pass (fun col => [.read (.tensor 1) (l.place row col), .read (.tensor 2) col,
          .read (.tensor 3) col, .write 4 (l.place row col)]) ∧
      l.Known row arrays.size ["rstd", "mean"] v := by
  refine .bindWord l.cols (.info cols) ?_
  refine .bindReal (.asFloat (.info bits)) fun eps => ?_
  refine .bindWord (row * l.cols) (.mul (.var (by simp)) (.var (by simp))) ?_
  have known : l.Known row arrays.size ["eps"] (((((Thread.fresh arrays row).set "cols"
      (.word (UInt32.ofNat l.cols))).after []).set "eps" (.real eps)).set "base"
        (.word (UInt32.ofNat (row * l.cols)))) :=
    ⟨by simp, by simp, by simp, by simp, rfl, reals⟩
  refine .declareReal (.real _) fun zero => ?_
  have summing := (known.after []).set "acc" (by decide) zero
  refine Rows.overColumns_ends (fun col => [.read (.tensor 1) (l.place row col)]) summing columns
    (by decide) (fun col inCols v holds counter => ?_) fun v summed first => ?_
  · refine .addReal (holds.item counter few inRows inCols sized.x) (holds.reals "acc" (by simp))
      fun x => .nil ⟨rfl, ?_⟩
    exact ((holds.after _).set "acc" (by decide) x).mono (by simp)
  refine .bindReal (.div (summed.real (by simp)) summed.cols_isReal) fun mean => ?_
  have centred := (summed.after []).set "mean" (by decide) mean
  refine .declareReal (.real _) fun zero => ?_
  have squaring := (centred.after []).set "sq" (by decide) zero
  refine Rows.overColumns_ends (fun col => [.read (.tensor 1) (l.place row col)]) squaring columns
    (by decide) (fun col inCols v holds counter => ?_) fun v squared second => ?_
  · refine .bindReal (.sub (holds.item counter few inRows inCols sized.x) (holds.real (by simp)))
      fun d => ?_
    have apart := (holds.after [.read (.tensor 1) (l.place row col)]).set "d" (by decide) d
    refine .addReal (.mul (apart.real (by simp)) (apart.real (by simp))) (apart.reals "sq" (by simp))
      fun x => .nil ⟨by simp, ?_⟩
    exact ((apart.after _).set "sq" (by decide) x).mono (by simp)
  refine .bindReal (.inverseSqrt (.add (.div (squared.real (by simp)) squared.cols_isReal)
    (squared.real (by simp)))) fun rstd => ?_
  have scaled := (squared.after []).set "rstd" (by decide) rstd
  refine Rows.overColumns_ends (fun col => [.read (.tensor 1) (l.place row col),
    .read (.tensor 2) col, .read (.tensor 3) col, .write 4 (l.place row col)]) scaled columns
    (by decide) (fun col inCols v holds counter => ?_) fun v written third => .nil ⟨?_, ?_⟩
  · refine holds.storeItem counter few inRows inCols sized.output (.add (.mul (.mul (.group
      (.sub (holds.item counter few inRows inCols sized.x) (holds.real (by simp))))
        (holds.real (by simp))) (holds.shared counter columns inCols sized.gain))
          (holds.shared counter columns inCols sized.bias)) fun x => .nil ⟨?_, ?_⟩
    · simp
    · exact (holds.after _).write 4 _ x
  · simp [third, second, first]
  · exact written.mono (by simp)

/-- The program of a layer normalization, with its statistics if they were asked for. -/
theorem whole_ends {k : Kernel} {info : List UInt32} (m : Arithmetic F) (rows : l.rows < 2 ^ 32)
    (cols : info[1]? = some (UInt32.ofNat l.cols)) {epsilon : Nat}
    (bits : info[2]? = some (UInt32.ofNat epsilon)) :
    Stmt.Ends (k.context m info) (if p.withStats then body ++ statsBody else body) .next
      (Thread.fresh arrays row) fun v => v.accesses = p.accesses l row := by
  have passes := passes_end (k := k) sized few columns reals inRows m cols bits
  have marked := sized.stats
  cases stats : p.withStats with
  | false =>
    refine passes.mono fun v ended => ?_
    simp [accesses, marks, stats, ended.1]
  | true =>
    refine passes.append fun v ⟨made, known⟩ => ?_
    simp only [marks, stats, if_true, List.forall_mem_cons] at marked
    obtain ⟨mean, rstd, -⟩ := marked
    refine .storeReal (.var known.index) (inRows.trans rows) (by rw [known.sized, mean]; exact inRows)
      (known.real (by simp)) fun x => ?_
    have next := (known.after []).write 5 row x
    refine .storeReal (.var next.index) (inRows.trans rows) (by rw [next.sized, rstd]; exact inRows)
      (next.real (by simp)) fun y => .nil ?_
    simp [accesses, marks, stats, made]

end

/-- The dispatch that a layer normalization is planned as. -/
def dispatched (p : LayerNorm) (l : Rows) (kernel : Kernel) (tensors : List Span) : Dispatch :=
  ⟨kernel.withBody (if p.withStats then body ++ statsBody else body),
    [l.rows, l.cols].map UInt32.ofNat ++ [p.epsilon.bits], tensors⟩

/-- The threads of the dispatch normalize their rows. -/
theorem dispatched_follows {p : LayerNorm} {l : Rows} {kernel : Kernel} {tensors : List Span}
    (floats : kernel.tensors = List.replicate tensors.length "f32")
    (sized : p.Sized l (Span.elementsAt tensors)) (few : l.rows * l.cols < 2 ^ 32)
    (rows : l.rows < 2 ^ 32) (columns : l.cols < 2 ^ 32) (integers : Nat → Nat → Int32) :
    (dispatched p l kernel tensors).Follows integers 3 (p.addressing l) := by
  refine follows_of_rows l _ rfl rfl rfl rows (covers sized) fun m arrays typed row inRows => ?_
  exact whole_ends (typed.size ▸ sized) few columns (typed.all_reals floats) inRows m rows rfl
    (congrArg some (UInt32.ofNat_toNat (x := p.epsilon.bits)).symm)

/-- A plan that does not fail has one dispatch over the tensor, its parameters and the outputs. -/
theorem plan_ok {p : LayerNorm} {launch : Launch} {x gain bias : Binding} {axis paramsAxis : Nat}
    {ds : List Dispatch} (inputs : launch.inputs = [x, gain, bias])
    (norm : x.desc.shape.axis? p.normAxis = some axis)
    (params : x.desc.shape.axis? p.paramsAxis = some paramsAxis)
    (planned : p.plan launch = .ok ds) : axis = paramsAxis ∧ ∃ outs kernel,
      p.outputs launch = .ok outs ∧ floatKernel (3 + outs.length) = .ok kernel ∧
      let rows := (x.desc.shape.dims.take axis).prod
      let cols := (x.desc.shape.dims.drop axis).prod
      (∀ value ∈ [rows, cols], 0 ≤ value ∧ value < 2 ^ 32) ∧
        ds = [onBindings (kernel.withBody (if p.withStats then body ++ statsBody else body))
          ([rows, cols].map (·.toNat.toUInt32) ++ [p.epsilon.bits]) ([x, gain, bias] ++ outs)] := by
  simp only [plan, inputs] at planned
  obtain ⟨_, -, planned⟩ := Answer.bind_eq_ok.mp planned
  obtain ⟨_, ⟨⟩, planned⟩ := Answer.bind_eq_ok.mp planned
  obtain ⟨_, ⟨⟩, planned⟩ := Answer.bind_eq_ok.mp planned
  obtain ⟨_, ⟨⟩, planned⟩ := Answer.bind_eq_ok.mp planned
  simp only [norm, params] at planned
  split at planned
  · simp [missing] at planned
  · rename_i same
    obtain ⟨rows, atRows, planned⟩ := Answer.bind_eq_ok.mp planned
    obtain ⟨cols, atCols, planned⟩ := Answer.bind_eq_ok.mp planned
    obtain ⟨_, parameters, planned⟩ := Answer.bind_eq_ok.mp planned
    obtain ⟨outs, written, planned⟩ := Answer.bind_eq_ok.mp planned
    obtain ⟨kernel, bound, planned⟩ := Answer.bind_eq_ok.mp planned
    obtain ⟨small, rfl⟩ := words_eq_ok.mp parameters
    obtain rfl := Bounded.product?_eq_prod (Bounded.product?_of_product (exactly_eq_ok.mp atRows))
    obtain rfl := Bounded.product?_eq_prod (Bounded.product?_of_product (exactly_eq_ok.mp atCols))
    exact ⟨Decidable.not_not.mp same, outs, kernel, written, bound, small,
      (Except.ok.inj planned).symm⟩

/-- The outputs that are written are all of them. -/
theorem outputs_eq {p : LayerNorm} {launch : Launch} {outs : List Binding}
    (count : launch.outputs.length = 1 + if p.withStats then 2 else 0)
    (written : p.outputs launch = .ok outs) : outs = launch.outputs := by
  unfold outputs at written
  cases stats : p.withStats with
  | false =>
    obtain ⟨out, all⟩ : ∃ out, launch.outputs = [out] := by
      simpa [stats, List.length_eq_one_iff] using count
    rw [stats, all] at written
    rw [all]
    exact (Except.ok.inj written).symm
  | true =>
    obtain ⟨out, mean, rstd, all⟩ : ∃ out mean rstd, launch.outputs = [out, mean, rstd] := by
      simpa [stats, List.length_eq_three] using count
    rw [stats, all] at written
    rw [all]
    exact (Except.ok.inj written).symm

/-- The dispatch normalizes the rows of the dimensions from an axis on. -/
structure Normalizes (p : LayerNorm) (launch : Launch) (l : Rows) (d : Dispatch) : Prop where
  rows : ∃ x axis, launch.inputs[0]? = some x ∧ x.desc.shape.axis? p.normAxis = some axis ∧
    l = Rows.fromAxis x.desc.shape axis
  tensors : d.tensors = (launch.inputs ++ launch.outputs).map Binding.span
  follows : ∀ integers, d.Follows integers launch.inputs.length (p.addressing l)

theorem resolved_statsShape {s : Shape} (known : s.Resolved) (axis : Nat) :
    (statsShape s axis).Resolved := by
  intro dim member
  rcases List.mem_append.mp member with before | one
  · exact known dim (List.mem_of_mem_take before)
  · rw [List.eq_of_mem_replicate one]
    decide

theorem prod_statsShape (s : Shape) (axis : Nat) :
    (statsShape s axis).extents.prod = (Rows.fromAxis s axis).rows := by
  simp [statsShape, Shape.extents, Rows.fromAxis]

theorem prod_param {param x : Shape} {axis : Nat} (dims : param.dims = x.dims.drop axis) :
    param.extents.prod = (Rows.fromAxis x axis).cols := by
  rw [Shape.extents, dims, List.map_drop]
  rfl

/-- The bound ranges hold the tensor, its parameters and the outputs. -/
theorem sized {p : LayerNorm} {launch : Launch} {inferred : List TensorDesc}
    (accepted : launch.Accepted inferred) (measured : launch.Measured) {x gain bias : Binding}
    {axis : Nat} (inputs : launch.inputs = [x, gain, bias])
    (gains : gain.desc.shape.dims = x.desc.shape.dims.drop axis)
    (biases : bias.desc.shape.dims = x.desc.shape.dims.drop axis)
    (result : inferred = p.written x.desc axis) : p.Sized (Rows.fromAxis x.desc.shape axis)
      (Span.elementsAt ((launch.inputs ++ launch.outputs).map Binding.span)) := by
  have known : x.desc.shape.Resolved := measured.resolved x (by simp [inputs])
  have count : launch.inputs.length = 3 := by rw [inputs]; rfl
  have output := measured.elementsAt_output accepted
  have beyond := accepted.elementsAt_beyond
  rw [result] at output
  rw [count] at output beyond
  refine ⟨?_, ?_, ?_, ?_, fun mark member => ?_, fun binding behind unmarked => beyond binding ?_⟩
  · exact (measured.elementsAt_input accepted 0 (by rw [inputs]; rfl)).trans
      (Rows.prod_fromAxis ..).symm
  · exact (measured.elementsAt_input accepted 1 (by rw [inputs]; rfl)).trans (prod_param gains)
  · exact (measured.elementsAt_input accepted 2 (by rw [inputs]; rfl)).trans (prod_param biases)
  · exact (output 0 rfl known).trans (Rows.prod_fromAxis ..).symm
  · obtain ⟨stats, rfl | rfl⟩ := mem_marks member
    · exact (output 1 (by rw [written, stats]; rfl) (resolved_statsShape known axis)).trans
        (prod_statsShape ..)
    · exact (output 2 (by rw [written, stats]; rfl) (resolved_statsShape known axis)).trans
        (prod_statsShape ..)
  · rw [result, written, List.length_cons, List.length_replicate]
    cases stats : p.withStats with
    | false => simpa [stats] using behind
    | true =>
      simp [marks, stats] at unmarked
      simp
      omega

/-- What is planned for a layer normalization normalizes rows. -/
theorem normalizes_of_plan {p : LayerNorm} {launch : Launch} {inferred : List TensorDesc}
    {ds : List Dispatch} (accepted : launch.Accepted inferred) (measured : launch.Measured)
    (param : launch.param = .layerNorm p) (planned : p.plan launch = .ok ds) :
    ∃ l d, ds = [d] ∧ p.Normalizes launch l d := by
  obtain ⟨-, infers⟩ := Operator.infer_ok accepted.infers
  rw [param] at infers
  obtain ⟨_, _, _, axis, paramsAxis, read, norm, params, gains, biases, result⟩ := infer_ok infers
  simp only [List.map_eq_cons_iff, List.map_eq_nil_iff] at read
  obtain ⟨x, _, inputs, rfl, gain, _, rfl, rfl, bias, _, rfl, rfl, rfl⟩ := read
  obtain ⟨rfl, outs, kernel, written, floats, small, rfl⟩ := plan_ok inputs norm params planned
  have count := accepted.outputs.length_eq
  rw [result, LayerNorm.written, List.length_cons, List.length_replicate, Nat.add_comm] at count
  obtain rfl := outputs_eq count written
  have known : x.desc.shape.Resolved := measured.resolved x (by simp [inputs])
  let l := Rows.fromAxis x.desc.shape axis
  rw [← Shape.cast_prod_take known, ← Shape.cast_prod_drop known] at small ⊢
  simp only [List.forall_mem_cons, List.not_mem_nil, false_imp_iff, implies_true, and_true] at small
  have few : l.rows * l.cols < 2 ^ 32 := by
    rw [Rows.prod_fromAxis]
    exact measured.few x (by simp [inputs])
  have tensors : [x, gain, bias] ++ launch.outputs = launch.inputs ++ launch.outputs := by
    rw [inputs]
  have ranges : floatKernel (launch.inputs ++ launch.outputs).length = .ok kernel := by
    rw [← tensors, List.length_append]
    exact floats
  refine ⟨l, p.dispatched l kernel ((launch.inputs ++ launch.outputs).map Binding.span), ?_,
    ⟨x, axis, by rw [inputs]; rfl, norm, rfl⟩, rfl, ?_⟩
  · rw [tensors]
    rfl
  · have three : launch.inputs.length = 3 := by rw [inputs]; rfl
    rw [three]
    refine dispatched_follows (by simpa using floatKernel_ok ranges)
      (sized accepted measured inputs gains biases result) few ?_ ?_
    · exact_mod_cast small.1.2
    · exact_mod_cast small.2.2

end OperatorGraph.LayerNorm
