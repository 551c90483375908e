import Mathlib.Algebra.Order.BigOperators.Group.List
import OperatorGraph.Proofs.Inference.Faults

set_option autoImplicit false

namespace OperatorGraph

open Inference

namespace Operator

/-- As many outputs as the operator has, and known ones of known inputs. -/
def Yields (op : Operator) (inputs outputs : List TensorDesc) : Prop :=
  outputs.length = op.outputCount ∧
    ((∀ x ∈ inputs, x.shape.Resolved) → ∀ y ∈ outputs, y.shape.Resolved)

theorem yields_one {op : Operator} (one : op.outputCount = 1) {inputs : List TensorDesc}
    {y : TensorDesc} (known : (∀ x ∈ inputs, x.shape.Resolved) → y.shape.Resolved) :
    op.Yields inputs [y] :=
  ⟨one.symm, fun all => List.forall_mem_singleton.mpr (known all)⟩

end Operator

open Operator

theorem Elementwise.yields {kind : Elementwise} {inputs outputs : List TensorDesc}
    (count : inputs.length = if kind.isBinary then 2 else 1)
    (inferred : kind.infer inputs = .ok outputs) :
    (elementwise kind).Yields inputs outputs := by
  have binary (two : kind.isBinary) : (elementwise kind).Yields inputs outputs := by
    obtain ⟨x, y, shape, rfl, -, joined, rfl⟩ := infer_binary_ok two inferred
    refine yields_one rfl fun all => ?_
    exact Shape.resolved_of_broadcast joined (all x (by simp)) (all y (by simp))
  cases kind with
  | cast target =>
    obtain ⟨x, rfl⟩ := List.length_eq_one_iff.mp count
    obtain rfl := Except.ok.inj inferred
    exact yields_one rfl fun all => all x (by simp)
  | scale factor =>
    obtain ⟨x, rfl⟩ := List.length_eq_one_iff.mp count
    simp only [infer, Answer.bind_eq_ok, Answer.pure_eq_ok] at inferred
    obtain ⟨_, -, rfl⟩ := inferred
    exact yields_one rfl fun all => all x (by simp)
  | add | sub | mul | realDiv => exact binary rfl

theorem Activation.yields {kind : Activation} {inputs outputs : List TensorDesc}
    (inferred : kind.infer inputs = .ok outputs) :
    (activation kind).Yields inputs outputs := by
  obtain ⟨x, y, rfl, rfl⟩ := infer_ok inferred
  refine yields_one rfl fun all => ?_
  have known := all x List.mem_cons_self
  by_cases gate : kind = swiglu
  · subst gate
    obtain ⟨_, front, half, read, dims, written⟩ := infer_gate_ok inferred
    obtain rfl := (List.cons.inj read).1
    obtain rfl := (List.cons.inj written).1
    rw [Shape.Resolved, dims, List.forall_mem_append, List.forall_mem_singleton] at known
    show ∀ dim ∈ front ++ [half], 0 ≤ dim
    rw [List.forall_mem_append, List.forall_mem_singleton]
    exact ⟨known.1, by omega⟩
  · obtain ⟨-, same⟩ := (infer_plain_eq_ok gate).mp inferred
    obtain rfl := (List.cons.inj same).1
    exact known

theorem LayerNorm.yields {p : LayerNorm} {inputs outputs : List TensorDesc}
    (inferred : p.infer inputs = .ok outputs) : (layerNorm p).Yields inputs outputs := by
  obtain ⟨x, gain, bias, axis, -, rfl, -, -, -, -, rfl⟩ := infer_ok inferred
  constructor
  · cases stats : p.withStats <;> simp [written, outputCount, stats]
  · intro all y member
    have known := all x List.mem_cons_self
    rcases List.mem_cons.mp member with rfl | stats
    · exact known
    · obtain rfl := List.eq_of_mem_replicate stats
      show ∀ dim ∈ x.shape.dims.take axis ++ List.replicate (x.shape.rank - axis) 1, 0 ≤ dim
      rw [List.forall_mem_append]
      refine ⟨fun dim inTake => known dim (List.mem_of_mem_take inTake), fun dim one => ?_⟩
      rw [List.eq_of_mem_replicate one]
      decide

theorem MatMul.yields {p : MatMul} {inputs outputs : List TensorDesc}
    (inferred : p.infer inputs = .ok outputs) : (matMul p).Yields inputs outputs := by
  obtain ⟨a, b, rest, extents, rfl, -, admits, rfl⟩ := infer_ok inferred
  refine yields_one rfl fun all => ?_
  have rows : 0 ≤ extents.m := all a (by simp) extents.m (by rw [admits.left]; split <;> simp)
  have columns : 0 ≤ extents.n := all b (by simp) extents.n (by rw [admits.right]; split <;> simp)
  show ∀ dim ∈ [extents.m, extents.n], 0 ≤ dim
  simp [rows, columns]

theorem inferSplit_yields {axis : Int} {count : Nat} {inputs outputs : List TensorDesc}
    (inferred : inferSplit axis count inputs = .ok outputs) :
    (split axis count).Yields inputs outputs := by
  obtain ⟨x, position, dim, part, rfl, -, found, some, -, whole, -, rfl⟩ := inferSplit_ok inferred
  refine ⟨List.length_replicate, fun all y member => ?_⟩
  obtain rfl := List.eq_of_mem_replicate member
  have known := all x List.mem_cons_self
  have nonneg := known dim (List.mem_of_getElem? found)
  intro other inSet
  rcases List.mem_or_eq_of_mem_set inSet with kept | rfl
  · exact known other kept
  · rw [whole] at nonneg
    exact nonneg_of_mul_nonneg_right nonneg (by omega)

theorem Concat.yields {axis : Int} {inputs outputs : List TensorDesc}
    (inferred : infer axis inputs = .ok outputs) : (concat axis).Yields inputs outputs := by
  obtain ⟨x, y, position, dims, rfl, -, -, rank, joined, rfl⟩ := infer_ok inferred
  refine yields_one rfl fun all => ?_
  obtain ⟨length, each⟩ := joinDims_ok joined rank
  intro dim member
  obtain ⟨i, found⟩ : ∃ i : Nat, dims[i]? = some dim := List.getElem?_of_mem member
  have inside := (List.getElem?_eq_some_iff.mp found).1
  have ranks : x.shape.dims.length = y.shape.dims.length := rank
  have atX : x.shape.dims[i]? = some x.shape.dims[i] := List.getElem?_eq_getElem (by omega)
  have atY : y.shape.dims[i]? = some y.shape.dims[i] := List.getElem?_eq_getElem (by omega)
  have first := all x (by simp) _ (List.mem_of_getElem? atX)
  have second := all y (by simp) _ (List.mem_of_getElem? atY)
  obtain ⟨other, there, here, elsewhere⟩ := each i _ _ atX atY
  obtain rfl := Option.some.inj (found.symm.trans there)
  by_cases joint : i = position
  · have sum := here joint
    omega
  · have kept := (elsewhere joint).1
    omega

theorem inferGather_yields {axis : Int} {inputs outputs : List TensorDesc}
    (inferred : inferGather axis inputs = .ok outputs) :
    (gather axis).Yields inputs outputs := by
  obtain ⟨table, indices, position, rfl, -, rfl⟩ := inferGather_ok inferred
  refine yields_one rfl fun all => ?_
  have known := all table (by simp)
  have listed := all indices (by simp)
  show ∀ dim ∈ _ ++ _ ++ _, 0 ≤ dim
  rw [List.forall_mem_append, List.forall_mem_append]
  exact ⟨⟨fun dim member => known dim (List.mem_of_mem_take member), listed⟩,
    fun dim member => known dim (List.mem_of_mem_drop member)⟩

/-- What inference returns are the outputs of the operator, known ones where its inputs are. -/
theorem Operator.infer_yields {op : Operator} {inputs outputs : List TensorDesc}
    (inferred : op.infer inputs = .ok outputs) : op.Yields inputs outputs := by
  obtain ⟨count, family⟩ := infer_ok inferred
  cases op with
  | elementwise kind => exact Elementwise.yields count family
  | layerNorm p => exact LayerNorm.yields family
  | rmsNorm epsilon =>
    obtain ⟨x, gain, -, rfl, -, -, rfl⟩ := inferRmsNorm_ok family
    exact yields_one rfl fun all => all x (by simp)
  | matMul p => exact MatMul.yields family
  | activation kind => exact Activation.yields family
  | softmax axis =>
    obtain ⟨x, -, rfl, -, rfl⟩ := inferSoftmax_ok family
    exact yields_one rfl fun all => all x (by simp)
  | asStrided p =>
    obtain ⟨x, rfl, rfl, known⟩ := Strided.infer_ok family
    exact yields_one rfl fun _ => known
  | transpose perm =>
    obtain ⟨x, dims, rfl, -, -, -, permuted, rfl⟩ := Transposition.infer_ok family
    exact yields_one rfl fun all => Transposition.resolved_of_permuted permuted (all x (by simp))
  | relayout target =>
    obtain ⟨x, rfl⟩ := List.length_eq_one_iff.mp count
    simp only [inferFamily, inferRelayout] at family
    split at family
    · simp at family
    · obtain rfl := Except.ok.inj family
      exact yields_one rfl fun all => all x (by simp)
  | split axis count => exact inferSplit_yields family
  | concat axis => exact Concat.yields family
  | gather axis => exact inferGather_yields family
  | rope coeff =>
    obtain ⟨q, k, cos, sin, -, -, rfl, rfl, -⟩ := Rope.infer_ok family
    refine ⟨rfl, fun all y member => all y ?_⟩
    simp only [List.mem_cons, List.not_mem_nil, or_false] at member ⊢
    rcases member with rfl | rfl <;> simp
  | selfAttention p =>
    obtain ⟨q, k, v, -, -, rfl, rfl, -⟩ := SelfAttention.infer_ok family
    exact yields_one rfl fun all => all q (by simp)

namespace SelfAttention

/-- A batch of no more entries than 32 bits with a sign count, with lengths of as many bits. Its rows
are counted in 64 bits. -/
structure Packed (p : SelfAttention) : Prop where
  short : p.batch ≤ 2 ^ 31
  offsets : ∀ n ∈ p.tokenOffset, n < 2 ^ 31
  lens : ∀ n ∈ p.seqLen, n < 2 ^ 31

theorem fits_sum {values : List Int} (each : ∀ n ∈ values, 0 ≤ n ∧ n ≤ 2 ^ 32 - 2)
    (short : values.length ≤ 2 ^ 31) : Bounded.Fits values.sum := by
  have nonneg : 0 ≤ values.sum := List.sum_nonneg fun n member => (each n member).1
  have most := List.sum_le_card_nsmul values (2 ^ 32 - 2) fun n member => (each n member).2
  rw [nsmul_eq_mul] at most
  have bound : (values.length : Int) * (2 ^ 32 - 2) ≤ 2 ^ 31 * (2 ^ 32 - 2) :=
    Int.mul_le_mul_of_nonneg_right (by omega) (by omega)
  exact Bounded.fits_of_nonneg nonneg (by unfold Bounded.greatest; omega)

/-- Sums over a batch that has passed its check do not overflow, not even on the way. -/
theorem BatchOk.fits_rows {p : SelfAttention} (batch : p.BatchOk) (packed : p.Packed) (n : Nat) :
    Bounded.Fits (p.seqLen.take n).sum ∧ Bounded.Fits (p.kvLens.take n).sum := by
  have short : p.seqLen.length ≤ 2 ^ 31 := packed.short
  constructor
  · refine fits_sum (fun len member => ?_) (by rw [List.length_take]; omega)
    have inLens := List.mem_of_mem_take member
    have nonneg := batch.lens len inLens
    have most := packed.lens len inLens
    omega
  · refine fits_sum (fun rows member => ?_)
      (by rw [List.length_take, kvLens, List.length_zipWith]; omega)
    obtain ⟨i, found⟩ := List.getElem?_of_mem (List.mem_of_mem_take member)
    obtain ⟨offset, len, atOffset, atLen, rfl⟩ := List.getElem?_zipWith_eq_some.mp found
    have inOffsets := List.mem_of_getElem? atOffset
    have inLens := List.mem_of_getElem? atLen
    have cached := batch.offsets offset inOffsets
    have fresh := batch.lens len inLens
    have mostCached := packed.offsets offset inOffsets
    have mostFresh := packed.lens len inLens
    omega

end SelfAttention

namespace Operator

/-- Over dimensions that are machine integers, inference faults in two ways only, neither of them an
index or a division: a concatenation along an axis whose sizes add up to more than the range holds,
and a split into more parts than a list holds. What it returns are the outputs of the operator,
known ones where its inputs are, and the rows that attention adds up stay in the range. -/
theorem inference_safety {op : Operator} {inputs : List TensorDesc} (held : op.Held)
    (words : ∀ x ∈ inputs, ∀ dim ∈ x.shape.dims, Bounded.Fits dim) :
    (∀ f, op.infer inputs = .error (.fault f) ↔ op.Breaks inputs f) ∧
    (∀ outputs, op.infer inputs = .ok outputs → op.Yields inputs outputs) ∧
    ∀ p, op = .selfAttention p → p.checkBatch = .ok () → p.Packed →
      ∀ n, Bounded.Fits (p.seqLen.take n).sum ∧ Bounded.Fits (p.kvLens.take n).sum :=
  ⟨fun _ => infer_breaks held words, fun _ inferred => infer_yields inferred,
    fun _ _ checked packed n => (SelfAttention.checkBatch_ok checked).fits_rows packed n⟩

/-- As many bytes as a dimension can count. -/
def longBytes : TensorDesc := .rowMajor .u8 ⟨[Bounded.greatest]⟩

def oneByte : TensorDesc := .rowMajor .u8 ⟨[1]⟩

/-- One head that attends to a row of its own and one cached row. -/
def oneHead : SelfAttention := ⟨1, 1, .one, [1], [1]⟩

/-- One byte more is too many, a matrix is split in three, and the rows of one head are counted. -/
theorem joined_bytes_break :
    (concat 0).Breaks [longBytes, oneByte] .overflow ∧
    (split 1 3).Yields [.rowMajor .f32 ⟨[2, 6]⟩]
      (List.replicate 3 (.rowMajor .f32 ⟨[2, 2]⟩)) ∧
    Bounded.Fits (oneHead.kvLens.take 1).sum := by
  have joins := @inference_safety (concat 0) [longBytes, oneByte] trivial (by decide)
  have splits := @inference_safety (split 1 3) [.rowMajor .f32 ⟨[2, 6]⟩]
    (show 3 < 2 ^ 63 by decide) (by decide)
  have attends := @inference_safety (selfAttention oneHead) []
    (show Bounded.Fits 1 by decide) (by decide)
  exact ⟨(joins.1 .overflow).mp (by decide), splits.2.1 _ (by decide),
    (attends.2.2 oneHead rfl (by decide) ⟨by decide, by decide, by decide⟩ 1).2⟩

/-- Inference overflows on tensors that have sizes. -/
theorem inference_overflows : ¬ ∀ (op : Operator) (inputs : List TensorDesc), op.Held →
    (∀ x ∈ inputs, (∀ dim ∈ x.shape.dims, Bounded.Fits dim) ∧ x.overflows = false) →
      op.infer inputs ≠ .error (.fault .overflow) := by
  intro safe
  exact safe (concat 0) [longBytes, oneByte] trivial (by decide) (by decide)

end Operator

end OperatorGraph
