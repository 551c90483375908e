import OperatorGraph.Proofs.Inference.Checks

set_option autoImplicit false

namespace OperatorGraph

open Inference

namespace Operator

theorem formatObjection?_eq_none {op : Operator} {index : Nat} {inputs : List TensorDesc} :
    op.formatObjection? index inputs = none ↔
      ∀ (i : Nat) (x : TensorDesc), inputs[i]? = some x →
        x.format ∈ op.acceptedFormats (index + i) := by
  induction inputs generalizing index with
  | nil => simp [formatObjection?]
  | cons first rest ih =>
    rw [formatObjection?]
    split
    · rename_i accepted
      rw [ih]
      constructor
      · intro later i x found
        cases i with
        | zero => rwa [← Option.some.inj found]
        | succ i =>
          rw [← Nat.add_assoc, Nat.add_right_comm]
          exact later i x found
      · intro all i x found
        rw [Nat.add_right_comm, Nat.add_assoc]
        exact all (i + 1) x found
    · rename_i refused
      simp only [reduceCtorEq, false_iff]
      exact fun all => refused (all 0 first rfl)

theorem formats_accepted_iff {op : Operator} {inputs : List TensorDesc} :
    op.formatObjection? 0 inputs = none ↔
      ∀ (i : Nat) (x : TensorDesc), inputs[i]? = some x → x.format ∈ op.acceptedFormats i := by
  rw [formatObjection?_eq_none]
  simp only [Nat.zero_add]

/-- An operator takes as many inputs as it asks for, in the formats that it accepts, where the rule
of its family has an answer. -/
theorem infer_eq_ok {op : Operator} {inputs outputs : List TensorDesc} :
    op.infer inputs = .ok outputs ↔ inputs.length = op.inputCount ∧
      (∀ (i : Nat) (x : TensorDesc), inputs[i]? = some x → x.format ∈ op.acceptedFormats i) ∧
      op.inferFamily inputs = .ok outputs := by
  rw [← formats_accepted_iff, infer]
  split
  · rename_i count
    simp [count]
  · rename_i count
    rw [ne_eq, Decidable.not_not] at count
    cases op.formatObjection? 0 inputs <;> simp [count]

theorem infer_ok {op : Operator} {inputs outputs : List TensorDesc}
    (inferred : op.infer inputs = .ok outputs) :
    inputs.length = op.inputCount ∧ op.inferFamily inputs = .ok outputs := by
  obtain ⟨count, -, family⟩ := infer_eq_ok.mp inferred
  exact ⟨count, family⟩

end Operator

namespace Elementwise

/-- Arithmetic on two tensors has broadcast them. -/
theorem infer_binary_ok {kind : Elementwise} (binary : kind.isBinary)
    {inputs outputs : List TensorDesc} (inferred : kind.infer inputs = .ok outputs) :
    ∃ x y shape, inputs = [x, y] ∧ y.dtype = x.dtype ∧
      x.shape.broadcast? y.shape = some shape ∧ outputs = [.rowMajor x.dtype shape] := by
  unfold infer at inferred
  split at inferred
  · simp [isBinary] at binary
  · simp [isBinary] at binary
  · rename_i x y
    simp only [Answer.bind_eq_ok, Answer.pure_eq_ok, expectDtype_eq_ok, broadcast_eq_ok] at inferred
    obtain ⟨_, dtype, shape, joined, rfl⟩ := inferred
    exact ⟨x, y, shape, rfl, dtype, joined, rfl⟩
  · simp at inferred

theorem infer_unary_ok {kind : Elementwise} (unary : kind.isBinary = false) {x : TensorDesc}
    {outputs : List TensorDesc} (inferred : kind.infer [x] = .ok outputs) :
    outputs.length = 1 := by
  cases kind with
  | scale factor =>
    simp only [infer, Answer.bind_eq_ok, Answer.pure_eq_ok] at inferred
    obtain ⟨_, -, rfl⟩ := inferred
    rfl
  | cast target =>
    obtain rfl := Except.ok.inj inferred
    rfl
  | add | sub | mul | realDiv => simp [isBinary] at unary

end Elementwise

/-- An activation has one input and one output. -/
theorem Activation.infer_ok {kind : Activation} {inputs outputs : List TensorDesc}
    (inferred : kind.infer inputs = .ok outputs) : ∃ x y, inputs = [x] ∧ outputs = [y] := by
  unfold infer at inferred
  split at inferred
  · rename_i x
    simp only [Answer.bind_eq_ok] at inferred
    obtain ⟨_, -, inferred⟩ := inferred
    split at inferred
    · unfold inferGate at inferred
      split at inferred
      · simp at inferred
      · simp only [Answer.bind_eq_ok] at inferred
        obtain ⟨_, -, inferred⟩ := inferred
        split at inferred
        · simp at inferred
        · simp only [Answer.bind_eq_ok, Answer.pure_eq_ok] at inferred
          obtain ⟨half, -, rfl⟩ := inferred
          exact ⟨x, _, rfl, rfl⟩
    · exact ⟨x, x, rfl, (Answer.pure_eq_ok.mp inferred).symm⟩
  · simp at inferred

/-- The gate takes rows of two halves, if a half can be counted. -/
theorem Activation.infer_gate_eq_ok {x : TensorDesc} {outputs : List TensorDesc} :
    swiglu.infer [x] = .ok outputs ↔ x.dtype.isFloat ∧ ∃ front half, Bounded.Fits half ∧
      x.shape.dims = front ++ [2 * half] ∧ [x.withShape ⟨front ++ [half]⟩] = outputs := by
  simp only [infer, if_true, Answer.bind_eq_ok, expectFloat_eq_ok]
  constructor
  · rintro ⟨_, float, gated⟩
    refine ⟨float, ?_⟩
    unfold inferGate at gated
    split at gated
    · simp at gated
    · rename_i hidden last
      simp only [Answer.bind_eq_ok, exactly_eq_ok, Bounded.rem_eq_ok] at gated
      obtain ⟨_, ⟨-, fits, remainder⟩, gated⟩ := gated
      split at gated
      · simp at gated
      · rename_i even
        simp only [Answer.bind_eq_ok, exactly_eq_ok, Bounded.div_eq_ok, Answer.pure_eq_ok] at gated
        obtain ⟨_, ⟨-, -, rfl⟩, rfl⟩ := gated
        have whole : 2 * hidden.tdiv 2 = hidden := Int.mul_tdiv_cancel'
          (Int.dvd_of_tmod_eq_zero (remainder.trans (Decidable.not_not.mp even)))
        refine ⟨x.shape.dims.dropLast, hidden.tdiv 2, fits, ?_, rfl⟩
        rw [whole]
        exact (List.dropLast_append_getLast? hidden last).symm
  · rintro ⟨float, front, half, fits, dims, rfl⟩
    refine ⟨(), float, ?_⟩
    have quotient : (2 * half).tdiv 2 = half := Int.mul_tdiv_cancel_left half (by decide)
    have remainder : (2 * half).tmod 2 = 0 := Int.mul_tmod_right 2 half
    have last : x.shape.dims.getLast? = some (2 * half) := by simp [dims]
    have even : Bounded.rem (2 * half) 2 = .ok 0 :=
      Bounded.rem_eq_ok.mpr ⟨by decide, by rwa [quotient], remainder⟩
    have divided : Bounded.div (2 * half) 2 = .ok half :=
      Bounded.div_eq_ok.mpr ⟨by decide, by rwa [quotient], quotient⟩
    simp only [inferGate, last, Answer.bind_eq_ok, exactly_eq_ok]
    refine ⟨0, even, ?_⟩
    rw [if_neg (by simp)]
    simp only [Answer.bind_eq_ok, exactly_eq_ok, Answer.pure_eq_ok]
    exact ⟨half, divided, by rw [dims, List.dropLast_concat]⟩

theorem Activation.infer_gate_ok {inputs outputs : List TensorDesc}
    (inferred : swiglu.infer inputs = .ok outputs) : ∃ x front half, inputs = [x] ∧
      x.shape.dims = front ++ [2 * half] ∧ outputs = [x.withShape ⟨front ++ [half]⟩] := by
  obtain ⟨x, _, rfl, -⟩ := infer_ok inferred
  obtain ⟨-, front, half, -, dims, written⟩ := infer_gate_eq_ok.mp inferred
  exact ⟨x, front, half, rfl, dims, written.symm⟩

namespace LayerNorm

/-- The outputs of a layer normalization: the tensor, and the statistics that were asked for. -/
def written (p : LayerNorm) (x : TensorDesc) (axis : Nat) : List TensorDesc :=
  .rowMajor x.dtype x.shape ::
    List.replicate (if p.withStats then 2 else 0) (.rowMajor .f32 (statsShape x.shape axis))

theorem expectParams_eq_ok {x y : TensorDesc} {params : Shape} {index : Nat} {done : Unit} :
    expectParams x params index y = .ok done ↔ y.dtype = x.dtype ∧ y.shape = params := by
  simp only [expectParams, Answer.bind_eq_ok, expectDtype_eq_ok]
  by_cases same : y.shape = params <;> simp [same]

/-- What a layer normalization asks of its tensor, its gain and its bias. -/
structure Admits (p : LayerNorm) (axis : Nat) (x gain bias : TensorDesc) : Prop where
  float : x.dtype.isFloat
  normAxis : x.shape.axis? p.normAxis = some axis
  leading : 0 ≤ leading x.shape axis
  params : ∃ paramsAxis, x.shape.axis? p.paramsAxis = some paramsAxis ∧
    (gain.dtype = x.dtype ∧ gain.shape = ⟨x.shape.dims.drop paramsAxis⟩) ∧
    bias.dtype = x.dtype ∧ bias.shape = ⟨x.shape.dims.drop paramsAxis⟩

theorem infer_eq_ok {p : LayerNorm} {x gain bias : TensorDesc} {outputs : List TensorDesc} :
    p.infer [x, gain, bias] = .ok outputs ↔
      ∃ axis, p.Admits axis x gain bias ∧ p.written x axis = outputs := by
  have outcome (axis : Nat) : (.rowMajor x.dtype x.shape ::
      if p.withStats then [.rowMajor .f32 (statsShape x.shape axis),
        .rowMajor .f32 (statsShape x.shape axis)] else []) = p.written x axis := by
    cases stats : p.withStats <;> simp [written, stats]
  simp only [infer, Answer.bind_eq_ok, expectFloat_eq_ok, axisOf_eq_ok]
  constructor
  · rintro ⟨_, float, axis, norm, answered⟩
    split at answered
    · simp at answered
    · rename_i nonneg
      simp only [Answer.bind_eq_ok, axisOf_eq_ok, expectParams_eq_ok, Answer.pure_eq_ok, outcome]
        at answered
      obtain ⟨paramsAxis, params, _, gains, _, biases, rfl⟩ := answered
      exact ⟨axis, ⟨float, norm, by omega, paramsAxis, params, gains, biases⟩, rfl⟩
  · rintro ⟨axis, ⟨float, norm, nonneg, paramsAxis, params, gains, biases⟩, rfl⟩
    refine ⟨(), float, axis, norm, ?_⟩
    rw [if_neg (by omega)]
    simp only [Answer.bind_eq_ok, axisOf_eq_ok, expectParams_eq_ok, Answer.pure_eq_ok, outcome]
    exact ⟨paramsAxis, params, (), gains, (), biases, trivial⟩

theorem infer_ok {p : LayerNorm} {inputs outputs : List TensorDesc}
    (inferred : p.infer inputs = .ok outputs) : ∃ x gain bias axis paramsAxis,
      inputs = [x, gain, bias] ∧ x.shape.axis? p.normAxis = some axis ∧
      x.shape.axis? p.paramsAxis = some paramsAxis ∧
      gain.shape.dims = x.shape.dims.drop paramsAxis ∧
      bias.shape.dims = x.shape.dims.drop paramsAxis ∧ outputs = p.written x axis := by
  obtain ⟨x, gain, bias, rfl⟩ : ∃ x gain bias, inputs = [x, gain, bias] := by
    unfold infer at inferred
    split at inferred
    · exact ⟨_, _, _, rfl⟩
    · simp at inferred
  obtain ⟨axis, admits, written⟩ := infer_eq_ok.mp inferred
  obtain ⟨paramsAxis, params, ⟨-, gains⟩, -, biases⟩ := admits.params
  exact ⟨x, gain, bias, axis, paramsAxis, rfl, admits.normAxis, params, congrArg Shape.dims gains,
    congrArg Shape.dims biases, written.symm⟩

end LayerNorm

theorem inferRmsNorm_ok {inputs outputs : List TensorDesc}
    (inferred : inferRmsNorm inputs = .ok outputs) :
    ∃ x gain hidden, inputs = [x, gain] ∧ x.shape.dims.getLast? = some hidden ∧
      gain.shape.dims = [hidden] ∧ outputs = [.rowMajor x.dtype x.shape] := by
  unfold inferRmsNorm at inferred
  split at inferred
  · rename_i x gain
    simp only [Answer.bind_eq_ok] at inferred
    obtain ⟨_, -, _, -, inferred⟩ := inferred
    split at inferred
    · simp at inferred
    · rename_i hidden last
      simp only [Answer.bind_eq_ok, expectRank_eq_ok, expectDim_eq_ok, Answer.pure_eq_ok] at inferred
      obtain ⟨_, rank, _, size, rfl⟩ := inferred
      exact ⟨x, gain, hidden, rfl, last, Shape.dims_of_rank_one rank size, rfl⟩
  · simp at inferred

theorem inferSoftmax_ok {axis : Int} {inputs outputs : List TensorDesc}
    (inferred : inferSoftmax axis inputs = .ok outputs) :
    ∃ x position, inputs = [x] ∧ x.shape.axis? axis = some position ∧ outputs = [x] := by
  unfold inferSoftmax at inferred
  split at inferred
  · rename_i x
    simp only [Answer.bind_eq_ok, axisOf_eq_ok, Answer.pure_eq_ok] at inferred
    obtain ⟨_, -, position, found, rfl⟩ := inferred
    exact ⟨x, position, rfl, found, rfl⟩
  · simp at inferred

namespace MatMul

/-- The operands of a product, each of them transposed or not, and its bias. -/
structure Admits (p : MatMul) (extents : Extents) (a b : Shape) (rest : List TensorDesc) : Prop where
  left : a.dims = if p.transposeA then [extents.k, extents.m] else [extents.m, extents.k]
  right : b.dims = if p.transposeB then [extents.n, extents.k] else [extents.k, extents.n]
  declared : ∀ declared, p.extents = some declared → declared = extents
  bias : p.hasBias → ∃ bias more, rest = bias :: more ∧ bias.shape.dims = [extents.n]

theorem checkBias_ok {p : MatMul} {columns : Int} {rest : List TensorDesc} {done : Unit}
    (passed : p.checkBias columns rest = .ok done) (hasBias : p.hasBias) :
    ∃ bias more, rest = bias :: more ∧ bias.shape.dims = [columns] := by
  simp only [checkBias, hasBias, if_true] at passed
  split at passed
  · rename_i bias more
    split at passed
    · exact ⟨bias, more, rfl, ‹_›⟩
    · simp at passed
  · simp at passed

/-- Operands with an inner size in common have the extents that follow from them. -/
theorem dims_of_extents {p : MatMul} {a b : Shape} {extents : Extents}
    (computed : p.extentsFor? a b = some extents)
    (inner : b.dims[if p.transposeB then 1 else 0]? = some extents.k) :
    a.dims = (if p.transposeA then [extents.k, extents.m] else [extents.m, extents.k]) ∧
      b.dims = if p.transposeB then [extents.n, extents.k] else [extents.k, extents.n] := by
  unfold extentsFor? at computed
  split at computed
  · rename_i a₀ a₁ b₀ b₁ dimsA dimsB
    cases transA : p.transposeA <;> cases transB : p.transposeB <;>
      (simp only [transA, transB, Bool.false_eq_true, if_false, if_true, Option.some.injEq] at computed
       subst computed
       simp_all)
  · simp at computed

/-- A product was inferred from the extents of its operands, which are those that were declared, if
any were. -/
theorem infer_ok {p : MatMul} {inputs outputs : List TensorDesc}
    (inferred : p.infer inputs = .ok outputs) : ∃ a b rest extents, inputs = a :: b :: rest ∧
      p.extentsFor? a.shape b.shape = some extents ∧ p.Admits extents a.shape b.shape rest ∧
      outputs = [.rowMajor a.dtype ⟨[extents.m, extents.n]⟩] := by
  unfold infer at inferred
  split at inferred
  · rename_i a b rest
    simp only [Answer.bind_eq_ok, dimAt_eq_ok] at inferred
    obtain ⟨_, -, _, -, _, -, inner, atInner, inferred⟩ := inferred
    split at inferred
    · simp at inferred
    · rename_i extents computed
      split at inferred
      · simp at inferred
      · rename_i same
        obtain rfl := Decidable.not_not.mp same
        simp only [Answer.bind_eq_ok, Answer.pure_eq_ok] at inferred
        obtain ⟨_, agrees, _, bias, rfl⟩ := inferred
        obtain ⟨left, right⟩ := dims_of_extents computed atInner
        refine ⟨a, b, rest, extents, rfl, computed,
          ⟨left, right, fun declared given => ?_, checkBias_ok bias⟩, rfl⟩
        simp only [checkDeclared, given] at agrees
        by_contra different
        simp [different] at agrees
  · simp at inferred

end MatMul

theorem Strided.infer_ok {p : Strided} {inputs outputs : List TensorDesc}
    (inferred : p.infer inputs = .ok outputs) : ∃ x, inputs = [x] ∧
      outputs = [x.withShape ⟨p.size⟩] ∧ ∀ size ∈ p.size, 0 ≤ size := by
  unfold infer at inferred
  split at inferred
  · rename_i x
    split at inferred
    · simp at inferred
    · split at inferred
      · simp at inferred
      · rename_i known
        simp only [Answer.bind_eq_ok, Answer.pure_eq_ok] at inferred
        obtain ⟨_, -, rfl⟩ := inferred
        refine ⟨x, rfl, rfl, fun size member => ?_⟩
        by_contra negative
        apply known
        right
        rw [List.any_eq_true]
        exact ⟨size, List.mem_append_left _ member, by simpa using negative⟩
  · simp at inferred

/-- A transposition names every axis once, and permutes the dimensions. -/
theorem Transposition.infer_ok {perm : List Nat} {inputs outputs : List TensorDesc}
    (inferred : infer perm inputs = .ok outputs) : ∃ x dims, inputs = [x] ∧
      (∀ axis ∈ perm, axis < x.shape.rank) ∧ perm.Nodup ∧ perm.length = x.shape.rank ∧
      perm.mapM (dimAt x) = .ok dims ∧ outputs = [x.withShape ⟨dims⟩] := by
  unfold infer at inferred
  split at inferred
  · rename_i x
    split at inferred
    · simp at inferred
    · rename_i injective
      split at inferred
      · simp at inferred
      · rename_i length
        simp only [Answer.bind_eq_ok, Answer.pure_eq_ok] at inferred
        obtain ⟨dims, permuted, rfl⟩ := inferred
        have both : isInjective perm x.shape.rank = true := by simpa using injective
        simp only [isInjective, Bool.and_eq_true, List.all_eq_true, decide_eq_true_eq] at both
        exact ⟨x, dims, rfl, both.1, both.2, Decidable.not_not.mp length, permuted, rfl⟩
  · simp at inferred

/-- A split cuts its axis into equal parts. -/
theorem inferSplit_ok {axis : Int} {count : Nat} {inputs outputs : List TensorDesc}
    (inferred : inferSplit axis count inputs = .ok outputs) : ∃ x position dim part,
      inputs = [x] ∧ x.shape.axis? axis = some position ∧ x.shape.dims[position]? = some dim ∧
      count ≠ 0 ∧ Bounded.div dim count = .ok part ∧ dim = count * part ∧
      count < Bounded.capacity ∧
      outputs = List.replicate count (x.withShape ⟨x.shape.dims.set position part⟩) := by
  unfold inferSplit at inferred
  split at inferred
  · rename_i x
    simp only [Answer.bind_eq_ok, axisOf_eq_ok, dimAt_eq_ok] at inferred
    obtain ⟨position, found, dim, present, inferred⟩ := inferred
    split at inferred
    · simp at inferred
    · rename_i some
      simp only [Answer.bind_eq_ok, exactly_eq_ok] at inferred
      obtain ⟨rest, remainder, inferred⟩ := inferred
      split at inferred
      · simp at inferred
      · rename_i even
        simp only [Answer.bind_eq_ok, exactly_eq_ok, Bounded.reserve_eq_ok, Answer.pure_eq_ok]
          at inferred
        obtain ⟨part, divided, _, room, rfl⟩ := inferred
        rw [Bounded.signed_of_lt_capacity room] at divided remainder
        refine ⟨x, position, dim, part, rfl, found, present, some, divided, ?_, room, rfl⟩
        have none : dim.tmod count = 0 := by
          rw [(Bounded.rem_eq_ok.mp remainder).2.2]
          exact Decidable.not_not.mp even
        rw [← (Bounded.div_eq_ok.mp divided).2.2]
        exact (Int.mul_tdiv_cancel' (Int.dvd_of_tmod_eq_zero none)).symm
  · simp at inferred

/-- A concatenation joins the dimensions of inputs of one rank. -/
theorem Concat.infer_ok {axis : Int} {inputs outputs : List TensorDesc}
    (inferred : infer axis inputs = .ok outputs) : ∃ x y position dims, inputs = [x, y] ∧
      y.dtype = x.dtype ∧ x.shape.axis? axis = some position ∧ x.shape.rank = y.shape.rank ∧
      joinDims position x.shape.dims y.shape.dims = .ok dims ∧ outputs = [x.withShape ⟨dims⟩] := by
  unfold infer at inferred
  split at inferred
  · rename_i x y
    simp only [Answer.bind_eq_ok, axisOf_eq_ok, expectDtype_eq_ok] at inferred
    obtain ⟨_, dtype, position, found, inferred⟩ := inferred
    split at inferred
    · simp at inferred
    · rename_i rank
      simp only [Answer.bind_eq_ok, Answer.pure_eq_ok] at inferred
      obtain ⟨dims, joined, rfl⟩ := inferred
      exact ⟨x, y, position, dims, rfl, dtype, found, Decidable.not_not.mp rank, joined, rfl⟩
  · simp at inferred

/-- Joined dimensions add up along the axis, and are those of both inputs elsewhere. -/
theorem Concat.joinDims_ok {axis : Nat} {lhs rhs dims : List Int}
    (joined : joinDims axis lhs rhs = .ok dims) (rank : lhs.length = rhs.length) :
    dims.length = lhs.length ∧ ∀ (i : Nat) (a b : Int), lhs[i]? = some a → rhs[i]? = some b →
      ∃ dim, dims[i]? = some dim ∧ (i = axis → dim = a + b) ∧ (i ≠ axis → dim = a ∧ dim = b) := by
  have length := Answer.length_mapM joined
  rw [List.length_zipIdx, List.length_zip, ← rank, Nat.min_self] at length
  refine ⟨length, fun i a b atA atB => ?_⟩
  have pair : (lhs.zip rhs)[i]? = some (a, b) := List.getElem?_zip_eq_some.mpr ⟨atA, atB⟩
  have inside := (List.getElem?_eq_some_iff.mp atA).1
  have answer := Answer.getElem?_mapM joined i
  rw [List.getElem?_zipIdx, pair, List.getElem?_eq_getElem (by omega)] at answer
  simp only [Option.map_some, Option.some.injEq, Nat.zero_add] at answer
  refine ⟨_, List.getElem?_eq_getElem (by omega), fun here => ?_, fun elsewhere => ?_⟩
  · rw [if_pos here, exactly_eq_ok, Bounded.add_eq_ok] at answer
    exact answer.2.symm
  · rw [if_neg elsewhere] at answer
    split at answer
    · rename_i same
      have value := Except.ok.inj answer
      exact ⟨value.symm, value.symm.trans same⟩
    · simp at answer

/-- A gather puts the dimensions of its indices in place of the axis. -/
theorem inferGather_ok {axis : Int} {inputs outputs : List TensorDesc}
    (inferred : inferGather axis inputs = .ok outputs) : ∃ table indices position,
      inputs = [table, indices] ∧ table.shape.axis? axis = some position ∧
      outputs = [table.withShape ⟨table.shape.dims.take position ++ indices.shape.dims ++
        table.shape.dims.drop (position + 1)⟩] := by
  unfold inferGather at inferred
  split at inferred
  · rename_i table indices
    split at inferred
    · simp at inferred
    · simp only [Answer.bind_eq_ok, axisOf_eq_ok, Answer.pure_eq_ok] at inferred
      obtain ⟨position, found, rfl⟩ := inferred
      exact ⟨table, indices, position, rfl, found, rfl⟩
  · simp at inferred

namespace Rope

/-- The rows of a tensor that is rotated are whole heads. -/
def Rotates (tokens headDim : Int) (x : Shape) : Prop :=
  ∃ heads, x.dims = [tokens, headDim * heads] ∧ Bounded.div (headDim * heads) headDim = .ok heads

theorem expectHeads_ok {index : Nat} {x : TensorDesc} {headDim tokens : Int}
    (rank : x.shape.rank = 2) (rows : x.shape.dims[0]? = some tokens) {done : Unit}
    (passed : expectHeads index x headDim = .ok done) : Rotates tokens headDim x.shape := by
  simp only [expectHeads, Answer.bind_eq_ok, dimAt_eq_ok, exactly_eq_ok] at passed
  obtain ⟨hidden, columns, rest, remainder, even⟩ := passed
  split at even
  · rename_i none
    obtain ⟨some, fits, value⟩ := Bounded.rem_eq_ok.mp remainder
    have whole : headDim * hidden.tdiv headDim = hidden :=
      Int.mul_tdiv_cancel' (Int.dvd_of_tmod_eq_zero (value.trans none))
    refine ⟨hidden.tdiv headDim, ?_, ?_⟩
    · rw [whole]
      exact Shape.dims_of_rank_two rank rows columns
    · rw [whole]
      exact Bounded.div_eq_ok.mpr ⟨some, fits, rfl⟩
  · simp at even

theorem expectGroups_ok {headDim rotaryCoeff : Int} {done : Unit}
    (passed : expectGroups headDim rotaryCoeff = .ok done) : 0 < headDim ∧ 0 < rotaryCoeff ∧
      rotaryCoeff ∣ headDim ∧ Bounded.div headDim rotaryCoeff = .ok (headDim.tdiv rotaryCoeff) := by
  unfold expectGroups at passed
  split at passed
  · simp at passed
  · rename_i positive
    simp only [Answer.bind_eq_ok, exactly_eq_ok, Bounded.rem_eq_ok] at passed
    obtain ⟨_, ⟨some, fits, remainder⟩, passed⟩ := passed
    split at passed
    · rename_i none
      exact ⟨by omega, by omega, Int.dvd_of_tmod_eq_zero (remainder.trans none),
        Bounded.div_eq_ok.mpr ⟨some, fits, rfl⟩⟩
    · simp at passed

/-- The tensors that a rotation admits: rows of whole heads of whole rotation groups, and tables
with an angle for each element of a head. -/
structure Admits (rotaryCoeff tokens headDim : Int) (q k cos sin : Shape) : Prop where
  cos : cos.dims = [tokens, headDim]
  sin : sin.dims = [tokens, headDim]
  positive : 0 < headDim
  some : 0 < rotaryCoeff
  groups : rotaryCoeff ∣ headDim
  divided : Bounded.div headDim rotaryCoeff = .ok (headDim.tdiv rotaryCoeff)
  query : Rotates tokens headDim q
  key : Rotates tokens headDim k

theorem infer_ok {rotaryCoeff : Int} {inputs outputs : List TensorDesc}
    (inferred : infer rotaryCoeff inputs = .ok outputs) : ∃ q k cos sin tokens headDim,
      inputs = [q, k, cos, sin] ∧ outputs = [q, k] ∧
      Admits rotaryCoeff tokens headDim q.shape k.shape cos.shape sin.shape := by
  unfold infer at inferred
  split at inferred
  · rename_i q k cos sin
    simp only [Answer.bind_eq_ok, expectRank_eq_ok, dimAt_eq_ok, expectDim_eq_ok,
      Answer.pure_eq_ok] at inferred
    obtain ⟨_, rankQ, _, rankK, _, rankCos, _, rankSin, _, -, _, -, _, -, _, -, tokens, rowsQ,
      headDim, head, _, groups, _, rowsK, _, rowsCos, _, rowsSin, _, angles, _, headsQ, _, headsK,
      rfl⟩ := inferred
    obtain ⟨positive, some, whole, divided⟩ := expectGroups_ok groups
    exact ⟨q, k, cos, sin, tokens, headDim, rfl, rfl, Shape.dims_of_rank_two rankCos rowsCos head,
      Shape.dims_of_rank_two rankSin rowsSin angles, positive, some, whole, divided,
      expectHeads_ok rankQ rowsQ headsQ, expectHeads_ok rankK rowsK headsK⟩
  · simp at inferred

end Rope

namespace SelfAttention

/-- The batch layout is consistent: query heads share key heads evenly, and every entry has its
lengths. -/
structure BatchOk (p : SelfAttention) : Prop where
  heads : 0 < p.headNum
  kvHeads : 0 < p.kvHeadNum
  groups : p.kvHeadNum ∣ p.headNum
  lengths : p.tokenOffset.length = p.seqLen.length
  offsets : ∀ n ∈ p.tokenOffset, 0 ≤ n
  lens : ∀ n ∈ p.seqLen, 0 ≤ n

theorem checkBatch_ok {p : SelfAttention} {done : Unit} (passed : p.checkBatch = .ok done) :
    p.BatchOk := by
  unfold checkBatch at passed
  split at passed
  · simp at passed
  · rename_i positive
    simp only [Answer.bind_eq_ok, exactly_eq_ok, Bounded.rem_eq_ok] at passed
    obtain ⟨rest, ⟨-, -, remainder⟩, passed⟩ := passed
    split at passed
    · simp at passed
    · rename_i even
      split at passed
      · simp at passed
      · rename_i lengths
        split at passed
        · simp at passed
        · rename_i known
          have nonneg (n : Int) (member : n ∈ p.seqLen ++ p.tokenOffset) : 0 ≤ n := by
            by_contra negative
            apply known
            rw [List.any_eq_true]
            exact ⟨n, member, by simpa using negative⟩
          exact {
            heads := by omega
            kvHeads := by omega
            groups := Int.dvd_of_tmod_eq_zero (remainder.trans (Decidable.not_not.mp even))
            lengths := Decidable.not_not.mp lengths
            offsets := fun n member => nonneg n (List.mem_append_right _ member)
            lens := fun n member => nonneg n (List.mem_append_left _ member) }

/-- The query, key and value tensors that a batch layout admits. -/
structure Admits (p : SelfAttention) (tokens headDim : Int) (q k v : Shape) : Prop where
  batch : p.BatchOk
  query : q.dims = [tokens, p.headNum * headDim]
  tokens : 0 ≤ tokens → tokens = p.tokens
  key : k.dims = [p.kvTokens, p.kvHeadNum * headDim]
  value : v.dims = [p.kvTokens, p.kvHeadNum * headDim]
  headDim : Bounded.div (p.headNum * headDim) p.headNum = .ok headDim

theorem expectCache_ok {p : SelfAttention} {headDim : Int} {index : Nat} {x : TensorDesc}
    (rank : x.shape.rank = 2) {done : Unit} (passed : p.expectCache headDim index x = .ok done) :
    x.shape.dims = [p.kvTokens, p.kvHeadNum * headDim] := by
  simp only [expectCache, Answer.bind_eq_ok, expectDim_eq_ok, exactly_eq_ok, Bounded.mul_eq_ok]
    at passed
  obtain ⟨_, rows, _, ⟨-, rfl⟩, columns⟩ := passed
  exact Shape.dims_of_rank_two rank rows columns

theorem infer_ok {p : SelfAttention} {inputs outputs : List TensorDesc}
    (inferred : p.infer inputs = .ok outputs) : ∃ q k v tokens headDim, inputs = [q, k, v] ∧
      outputs = [q] ∧ p.Admits tokens headDim q.shape k.shape v.shape := by
  unfold infer at inferred
  split at inferred
  · rename_i q k v
    simp only [Answer.bind_eq_ok, expectRank_eq_ok, dimAt_eq_ok, exactly_eq_ok, Bounded.rem_eq_ok]
      at inferred
    obtain ⟨_, checked, _, rankQ, _, rankK, _, rankV, _, -, _, -, _, -, tokens, rows, hidden,
      columns, rest, ⟨some, fits, remainder⟩, inferred⟩ := inferred
    split at inferred
    · simp at inferred
    · rename_i even
      simp only [Answer.bind_eq_ok, exactly_eq_ok, Bounded.div_eq_ok] at inferred
      obtain ⟨headDim, ⟨-, -, quotient⟩, inferred⟩ := inferred
      split at inferred
      · simp at inferred
      · rename_i rowsOk
        simp only [Answer.bind_eq_ok, Answer.pure_eq_ok] at inferred
        obtain ⟨_, cacheK, _, cacheV, rfl⟩ := inferred
        have whole : p.headNum * headDim = hidden := by
          rw [← quotient]
          exact Int.mul_tdiv_cancel'
            (Int.dvd_of_tmod_eq_zero (remainder.trans (Decidable.not_not.mp even)))
        refine ⟨q, k, v, tokens, headDim, rfl, rfl, checkBatch_ok checked, ?_, ?_,
          expectCache_ok rankK cacheK, expectCache_ok rankV cacheV, ?_⟩
        · rw [whole]
          exact Shape.dims_of_rank_two rankQ rows columns
        · intro known
          by_contra different
          exact rowsOk ⟨known, different⟩
        · rw [whole]
          exact Bounded.div_eq_ok.mpr ⟨some, fits, quotient⟩
  · simp at inferred

end SelfAttention

end OperatorGraph
