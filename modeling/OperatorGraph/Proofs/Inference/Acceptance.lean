import OperatorGraph.Proofs.Inference.Rules

set_option autoImplicit false

namespace OperatorGraph

open Inference

namespace Operator

theorem formats_of_plain {op : Operator}
    (plain : ∀ index, op.acceptedFormats index = [.rowMajor]) {inputs : List TensorDesc} :
    (∀ (i : Nat) (x : TensorDesc), inputs[i]? = some x → x.format ∈ op.acceptedFormats i) ↔
      ∀ x ∈ inputs, x.format = .rowMajor := by
  simp only [plain, List.mem_singleton]
  constructor
  · intro all x member
    obtain ⟨i, found⟩ := List.mem_iff_getElem?.mp member
    exact all i x found
  · exact fun all i x found => all x (List.mem_of_getElem? found)

/-- The second operand of a product may have any format. -/
theorem formats_of_product {p : MatMul} {a b : TensorDesc} {rest : List TensorDesc} :
    (∀ (i : Nat) (x : TensorDesc), (a :: b :: rest)[i]? = some x →
      x.format ∈ (matMul p).acceptedFormats i) ↔
      a.format = .rowMajor ∧ ∀ x ∈ rest, x.format = .rowMajor := by
  have any : b.format ∈ Format.all := by cases b.format <;> decide
  constructor
  · intro all
    refine ⟨List.mem_singleton.mp (all 0 a rfl), fun x member => ?_⟩
    obtain ⟨i, found⟩ := List.mem_iff_getElem?.mp member
    exact List.mem_singleton.mp (all (i + 2) x found)
  · rintro ⟨left, others⟩ i x found
    match i with
    | 0 =>
      obtain rfl : a = x := Option.some.inj found
      exact List.mem_singleton.mpr left
    | 1 =>
      obtain rfl : b = x := Option.some.inj found
      exact any
    | i + 2 => exact List.mem_singleton.mpr (others x (List.mem_of_getElem? found))

end Operator

theorem Shape.axis?_natCast {s : Shape} {axis : Nat} (inside : axis < s.rank) :
    s.axis? axis = some axis := by
  unfold axis?
  grind

namespace LayerNorm

/-- A normalization over the last dimension asks for a gain and a bias of one row. -/
theorem admits_last {p : LayerNorm} {x gain bias : TensorDesc} {leading : List Int}
    {hidden : Int} (dims : x.shape.dims = leading ++ [hidden])
    (nonneg : 0 ≤ Bounded.satProduct leading) (norm : p.normAxis = leading.length)
    (params : p.paramsAxis = leading.length) {axis : Nat} :
    p.Admits axis x gain bias ↔ axis = leading.length ∧ x.dtype.isFloat ∧
      (gain.dtype = x.dtype ∧ gain.shape = ⟨[hidden]⟩) ∧
      bias.dtype = x.dtype ∧ bias.shape = ⟨[hidden]⟩ := by
  have last : x.shape.axis? (leading.length : Int) = some leading.length :=
    Shape.axis?_natCast (by simp [Shape.rank, dims])
  have row : x.shape.dims.drop leading.length = [hidden] := by rw [dims, List.drop_left]
  constructor
  · rintro ⟨float, normAxis, -, paramsAxis, atParams, gains, biases⟩
    rw [norm, last] at normAxis
    rw [params, last] at atParams
    obtain rfl := Option.some.inj normAxis
    obtain rfl := Option.some.inj atParams
    rw [row] at gains biases
    exact ⟨rfl, float, gains, biases⟩
  · rintro ⟨rfl, float, gains, biases⟩
    refine ⟨float, norm ▸ last, ?_, leading.length, params ▸ last, ?_⟩
    · rwa [LayerNorm.leading, dims, List.take_left]
    · rw [row]
      exact ⟨gains, biases⟩

end LayerNorm

namespace MatMul

theorem checkDeclared_eq_ok {p : MatMul} {a b : Shape} {extents : Extents} {done : Unit} :
    p.checkDeclared a b extents = .ok done ↔
      ∀ declared, p.extents = some declared → declared = extents := by
  unfold checkDeclared
  cases p.extents with
  | none => simp
  | some declared => by_cases same : declared = extents <;> simp [same]

theorem checkBias_eq_ok {p : MatMul} {columns : Int} {rest : List TensorDesc} {done : Unit} :
    p.checkBias columns rest = .ok done ↔
      (p.hasBias → ∃ bias more, rest = bias :: more ∧ bias.shape.dims = [columns]) := by
  unfold checkBias
  cases p.hasBias with
  | false => simp
  | true =>
    cases rest with
    | nil => simp
    | cons bias more => by_cases same : bias.shape.dims = [columns] <;> simp [same]

theorem Admits.extentsFor? {p : MatMul} {extents : Extents} {a b : Shape} {rest : List TensorDesc}
    (admits : p.Admits extents a b rest) : p.extentsFor? a b = some extents := by
  unfold MatMul.extentsFor?
  rw [admits.left, admits.right]
  cases p.transposeA <;> cases p.transposeB <;> rfl

theorem infer_eq_ok {p : MatMul} {a b : TensorDesc} {rest outputs : List TensorDesc} :
    p.infer (a :: b :: rest) = .ok outputs ↔ b.dtype = a.dtype ∧
      ∃ extents, p.Admits extents a.shape b.shape rest ∧
        [.rowMajor a.dtype ⟨[extents.m, extents.n]⟩] = outputs := by
  constructor
  · intro inferred
    obtain ⟨_, _, _, extents, inputs, -, admits, rfl⟩ := infer_ok inferred
    simp only [List.cons.injEq] at inputs
    obtain ⟨rfl, rfl, rfl⟩ := inputs
    simp only [infer, Answer.bind_eq_ok, expectDtype_eq_ok] at inferred
    obtain ⟨_, -, _, -, _, dtype, -⟩ := inferred
    exact ⟨dtype, extents, admits, rfl⟩
  · rintro ⟨dtype, extents, admits, rfl⟩
    have rankA : a.shape.rank = 2 := by
      rw [Shape.rank, admits.left]
      split <;> rfl
    have rankB : b.shape.rank = 2 := by
      rw [Shape.rank, admits.right]
      split <;> rfl
    have inner : b.shape.dims[if p.transposeB then 1 else 0]? = some extents.k := by
      rw [admits.right]
      split <;> rfl
    simp only [infer, Answer.bind_eq_ok, expectRank_eq_ok, expectDtype_eq_ok, dimAt_eq_ok]
    refine ⟨(), rankA, (), rankB, (), dtype, extents.k, inner, ?_⟩
    simp only [admits.extentsFor?, ne_eq, not_true_eq_false, if_false, Answer.bind_eq_ok,
      checkDeclared_eq_ok, checkBias_eq_ok, Answer.pure_eq_ok]
    exact ⟨(), admits.declared, (), admits.bias, trivial⟩

/-- A projection by a transposed weight asks for a bias of one row, if it has one. -/
theorem admits_linear {hasBias : Bool} {declared sizes : Extents} {a b : Shape}
    {rest : List TensorDesc} (count : rest.length = if hasBias then 1 else 0) :
    ({ linear hasBias with extents := some declared } : MatMul).Admits sizes a b rest ↔
      a = ⟨[sizes.m, sizes.k]⟩ ∧ b = ⟨[sizes.n, sizes.k]⟩ ∧ declared = sizes ∧
      ∀ bias ∈ rest, bias.shape = ⟨[sizes.n]⟩ := by
  have ofDims {s : Shape} {dims : List Int} : s.dims = dims ↔ s = ⟨dims⟩ :=
    ⟨congrArg Shape.mk, congrArg Shape.dims⟩
  have row : (hasBias → ∃ bias more, rest = bias :: more ∧ bias.shape.dims = [sizes.n]) ↔
      ∀ bias ∈ rest, bias.shape = ⟨[sizes.n]⟩ := by
    cases hasBias with
    | false =>
      obtain rfl := List.length_eq_zero_iff.mp count
      simp
    | true =>
      obtain ⟨bias, rfl⟩ := List.length_eq_one_iff.mp count
      simp [ofDims]
  rw [← row]
  constructor
  · rintro ⟨left, right, given, bias⟩
    exact ⟨ofDims.mp left, ofDims.mp right, given declared rfl, bias⟩
  · rintro ⟨rfl, rfl, rfl, bias⟩
    exact ⟨rfl, rfl, fun other same => (Option.some.inj same).symm, bias⟩

end MatMul

namespace Activation

theorem infer_plain_eq_ok {kind : Activation} (plain : kind ≠ swiglu) {x : TensorDesc}
    {outputs : List TensorDesc} :
    kind.infer [x] = .ok outputs ↔ x.dtype.isFloat ∧ [x] = outputs := by
  simp only [infer, if_neg plain, Answer.bind_eq_ok, expectFloat_eq_ok, Answer.pure_eq_ok,
    exists_const]

/-- The columns of an activated row. -/
def columns (kind : Activation) (columns : Int) : Int :=
  if kind = .swiglu then columns / 2 else columns

theorem columns_le (kind : Activation) {columns : Int} (known : 0 ≤ columns) :
    0 ≤ kind.columns columns ∧ kind.columns columns ≤ columns := by
  unfold Activation.columns
  split <;> omega

end Activation

end OperatorGraph
