import OperatorGraph.Proofs.Inference.Acceptance
import OperatorGraph.Proofs.Runner.Pipelines

set_option autoImplicit false

namespace OperatorGraph

theorem TensorDesc.eq_rowMajor_iff {d : TensorDesc} {dtype : ElementType} {shape : Shape} :
    d = .rowMajor dtype shape ↔ d.dtype = dtype ∧ d.format = .rowMajor ∧ d.shape = shape := by
  cases d
  simp [rowMajor]

theorem TensorDesc.eq_of_parts {d : TensorDesc} {dtype : ElementType} {shape : Shape}
    (sameDtype : d.dtype = dtype) (sameShape : d.shape = shape) : d = ⟨dtype, d.format, shape⟩ := by
  subst sameDtype sameShape
  rfl

namespace Node

variable {n : Node} {g : Graph} {checkViews : Bool} {desc : TensorDesc}

variable (single : n.outputs.length = 1)
include single

/-- A normalization over the last dimension makes a tensor like the one it reads. -/
theorem yields_layerNorm {p : LayerNorm} (declared : n.declared = .layerNorm p)
    (stats : p.withStats = false) (hook : n.hook = some (.layerNormAxis 1))
    {x gain bias : TensorDesc} (sized : x.byteSize?.isSome)
    (reads : n.readInputs g checkViews = .ok [x, gain, bias]) :
    n.Yields g checkViews desc ↔ ∃ dtype leading hidden,
      dtype.isFloat ∧ x = .rowMajor dtype ⟨leading ++ [hidden]⟩ ∧
      gain = .rowMajor dtype ⟨[hidden]⟩ ∧ bias = .rowMajor dtype ⟨[hidden]⟩ ∧ desc = x := by
  have plain (q : LayerNorm) (index : Nat) :
      (Operator.layerNorm q).acceptedFormats index = [.rowMajor] := rfl
  have nonneg {leading : List Int} {hidden : Int} (dims : x.shape.dims = leading ++ [hidden]) :
      0 ≤ Bounded.satProduct leading := by
    obtain ⟨product, known, -⟩ := x.leading_of_sized sized dims
    rwa [product]
  have axis {leading : List Int} {hidden : Int} (dims : x.shape.dims = leading ++ [hidden]) :
      x.shape.rank - 1 = leading.length := by simp [Shape.rank, dims]
  rw [yields_iff single reads]
  simp only [runHook_eq_ok hook, declared, Hook.layerNormAxis_eq_ok]
  constructor
  · rintro ⟨_, ⟨_, _, first, present, -, rank, rfl⟩, inferred, -⟩
    obtain rfl := Option.some.inj first
    obtain rfl := Operator.layerNorm.inj present
    obtain ⟨-, formats, inferred⟩ := Operator.infer_eq_ok.mp inferred
    obtain ⟨formatX, formatGain, formatBias⟩ : x.format = .rowMajor ∧ gain.format = .rowMajor ∧
        bias.format = .rowMajor := by simpa using (Operator.formats_of_plain (plain _)).mp formats
    obtain ⟨at', admits, written⟩ := LayerNorm.infer_eq_ok.mp inferred
    obtain ⟨leading, hidden, dims⟩ : ∃ leading hidden, x.shape.dims = leading ++ [hidden] := by
      rcases List.eq_nil_or_concat x.shape.dims with none | ⟨leading, hidden, dims⟩
      · simp [Shape.rank, none] at rank
      · exact ⟨leading, hidden, by simpa using dims⟩
    obtain ⟨-, float, gains, biases⟩ := (LayerNorm.admits_last dims (nonneg dims)
      (congrArg Int.ofNat (axis dims)) (congrArg Int.ofNat (axis dims))).mp admits
    refine ⟨x.dtype, leading, hidden, float, ?_, ?_, ?_, ?_⟩
    · exact TensorDesc.eq_rowMajor_iff.mpr ⟨rfl, formatX, congrArg Shape.mk dims⟩
    · exact TensorDesc.eq_rowMajor_iff.mpr ⟨gains.1, formatGain, gains.2⟩
    · exact TensorDesc.eq_rowMajor_iff.mpr ⟨biases.1, formatBias, biases.2⟩
    · simp only [LayerNorm.written, stats, Bool.false_eq_true, if_false, List.replicate_zero,
        List.cons.injEq, and_true] at written
      rw [← written]
      exact (TensorDesc.eq_rowMajor_iff.mpr ⟨rfl, formatX, rfl⟩).symm
  · rintro ⟨dtype, leading, hidden, float, rfl, rfl, rfl, rfl⟩
    refine ⟨_, ⟨_, p, rfl, rfl, Nat.one_pos, by simp [Shape.rank, TensorDesc.rowMajor], rfl⟩,
      Operator.infer_eq_ok.mpr ⟨rfl, (Operator.formats_of_plain (plain _)).mpr ?_, ?_⟩,
      TensorDesc.fits_of_sized sized⟩
    · simp [TensorDesc.rowMajor]
    · refine LayerNorm.infer_eq_ok.mpr ⟨leading.length, ?_, ?_⟩
      · exact (LayerNorm.admits_last rfl (nonneg rfl) (congrArg Int.ofNat (axis rfl))
          (congrArg Int.ofNat (axis rfl))).mpr ⟨rfl, float, ⟨rfl, rfl⟩, rfl, rfl⟩
      · simp [LayerNorm.written, stats, TensorDesc.rowMajor]

/-- A projection by a transposed weight makes a row of columns for each row that it reads. -/
theorem yields_linear {hasBias : Bool} (declared : n.declared = .matMul (.linear hasBias))
    (hook : n.hook = some .matMulExtents) {x weight : TensorDesc} {rest : List TensorDesc}
    (count : rest.length = if hasBias then 1 else 0)
    (reads : n.readInputs g checkViews = .ok (x :: weight :: rest)) :
    n.Yields g checkViews desc ↔ ∃ rows inner columns, x = .rowMajor x.dtype ⟨[rows, inner]⟩ ∧
      (weight.dtype = x.dtype ∧ weight.shape = ⟨[columns, inner]⟩) ∧
      (∀ bias ∈ rest, bias = .rowMajor bias.dtype ⟨[columns]⟩) ∧
      desc = .rowMajor x.dtype ⟨[rows, columns]⟩ ∧ desc.overflows = false := by
  rw [yields_iff single reads]
  simp only [runHook_eq_ok hook, declared, Hook.matMulExtents_eq_ok]
  constructor
  · rintro ⟨_, ⟨_, _, _, _, first, second, present, extents, rfl⟩, inferred, fits⟩
    obtain rfl := Option.some.inj first
    obtain rfl := Option.some.inj second
    obtain rfl := Operator.matMul.inj present
    obtain ⟨-, formats, inferred⟩ := Operator.infer_eq_ok.mp inferred
    obtain ⟨format, formats⟩ := Operator.formats_of_product.mp formats
    obtain ⟨dtype, sizes, admits, written⟩ := MatMul.infer_eq_ok.mp inferred
    obtain ⟨left, right, -, bias⟩ := (MatMul.admits_linear count).mp admits
    refine ⟨sizes.m, sizes.k, sizes.n, ?_, ⟨dtype, right⟩, fun other member => ?_, ?_, fits⟩
    · exact TensorDesc.eq_rowMajor_iff.mpr ⟨rfl, format, left⟩
    · exact TensorDesc.eq_rowMajor_iff.mpr ⟨rfl, formats other member, bias other member⟩
    · exact (List.singleton_inj.mp written).symm
  · rintro ⟨rows, inner, columns, left, ⟨dtype, right⟩, bias, rfl, fits⟩
    obtain ⟨-, format, left⟩ := TensorDesc.eq_rowMajor_iff.mp left
    have extents : (MatMul.linear hasBias).extentsFor? x.shape weight.shape =
        some ⟨rows, columns, inner⟩ := by
      rw [left, right]
      rfl
    refine ⟨_, ⟨x, weight, _, _, rfl, rfl, rfl, extents, rfl⟩,
      Operator.infer_eq_ok.mpr ⟨?_, Operator.formats_of_product.mpr ⟨format, ?_⟩, ?_⟩, fits⟩
    · cases hasBias <;> simpa [Operator.inputCount, MatMul.linear] using count
    · exact fun other member => (TensorDesc.eq_rowMajor_iff.mp (bias other member)).2.1
    · refine MatMul.infer_eq_ok.mpr ⟨dtype, ⟨rows, columns, inner⟩,
        (MatMul.admits_linear count).mpr ⟨left, right, rfl, fun other member => ?_⟩, rfl⟩
      exact (TensorDesc.eq_rowMajor_iff.mp (bias other member)).2.2

/-- An activation of rows makes rows, of half as many columns if it is the gate. -/
theorem yields_activation {kind : Activation} (declared : n.declared = .activation kind)
    (plain : n.hook = none) {dtype : ElementType} {rows columns : Int}
    (fits : Bounded.Fits columns)
    (sized : (TensorDesc.rowMajor dtype ⟨[rows, columns]⟩).byteSize?.isSome)
    (reads : n.readInputs g checkViews = .ok [.rowMajor dtype ⟨[rows, columns]⟩]) :
    n.Yields g checkViews desc ↔ dtype.isFloat ∧ (kind = .swiglu → 2 ∣ columns) ∧
      desc = .rowMajor dtype ⟨[rows, kind.columns columns]⟩ := by
  have known : 0 ≤ columns :=
    (TensorDesc.resolved_of_sized sized) columns (by simp [TensorDesc.rowMajor])
  have hooked (s : HookState) : n.runHook g [.rowMajor dtype ⟨[rows, columns]⟩] = .ok s ↔
      s = ⟨[.rowMajor dtype ⟨[rows, columns]⟩], .activation kind⟩ := by
    simp only [runHook, plain, declared, Except.ok.injEq, eq_comm]
  have inferred : (Operator.activation kind).infer [.rowMajor dtype ⟨[rows, columns]⟩] = .ok [desc]
      ↔ kind.infer [.rowMajor dtype ⟨[rows, columns]⟩] = .ok [desc] := by
    rw [Operator.infer_eq_ok, Operator.formats_of_plain fun _ => rfl]
    simp [Operator.inputCount, Operator.inferFamily, TensorDesc.rowMajor]
  simp only [yields_iff single reads, hooked, exists_eq_left, inferred]
  by_cases gate : kind = .swiglu
  · subst gate
    simp only [Activation.infer_gate_eq_ok, Activation.columns, forall_const, if_true]
    constructor
    · rintro ⟨⟨float, front, half, -, dims, written⟩, -⟩
      have parts : [rows] ++ [columns] = front ++ [2 * half] := dims
      obtain ⟨rfl, last⟩ := List.append_inj' parts rfl
      obtain rfl := List.singleton_inj.mp last
      rw [Int.mul_ediv_cancel_left half (by decide)]
      exact ⟨float, ⟨half, rfl⟩, (List.singleton_inj.mp written).symm⟩
    · rintro ⟨float, ⟨half, rfl⟩, rfl⟩
      rw [Int.mul_ediv_cancel_left half (by decide)]
      refine ⟨⟨float, [rows], half, fits.of_le (by omega) (by omega), rfl, rfl⟩, ?_⟩
      exact TensorDesc.fits_of_sized (TensorDesc.sized_of_le sized (by omega) (by omega))
  · simp only [Activation.infer_plain_eq_ok gate, Activation.columns, gate, if_false,
      false_implies, true_and, List.cons.injEq, and_true, and_assoc, eq_comm (a := desc)]
    constructor
    · rintro ⟨float, rfl, -⟩
      exact ⟨float, rfl⟩
    · rintro ⟨float, rfl⟩
      exact ⟨float, rfl, TensorDesc.fits_of_sized sized⟩

end Node

end OperatorGraph
