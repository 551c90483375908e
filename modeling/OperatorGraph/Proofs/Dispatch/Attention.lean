import OperatorGraph.Proofs.Dispatch.Excuses
import OperatorGraph.Proofs.Operator.Batch

set_option autoImplicit false

namespace OperatorGraph

open Dispatch

section

variable {launch : Launch} {inferred : List TensorDesc}
  (outputs : launch.outputs.length = inferred.length)
include outputs

section

variable (resolved : ∀ b ∈ launch.inputs, b.desc.shape.Resolved)
  (fits : ∀ desc ∈ inferred, desc.overflows = false)
  (nonempty : ∃ desc ∈ inferred, desc.shape.elementCount ≠ 0)

namespace Rope

omit outputs in
/-- The pairs of a tensor that is rotated are at most as many as its elements. -/
theorem threads_ok {tokens headDim heads : Int} {x : TensorDesc} (positive : 0 < headDim)
    (known : x.shape.Resolved) (fit : x.overflows = false)
    (dims : x.shape.dims = [tokens, headDim * heads]) :
    (Bounded.mul tokens heads >>= (Bounded.mul · (headDim.tdiv 2))) =
      .ok (tokens * heads * headDim.tdiv 2) := by
  have exact := TensorDesc.product?_of_fits known fit
  have whole := Bounded.fits_of_product? exact
  rw [dims, List.prod_pair] at whole
  have rows : 0 ≤ tokens := known tokens (by simp [dims])
  have columns : 0 ≤ headDim * heads := known _ (by simp [dims])
  have some : 0 ≤ heads := nonneg_of_mul_nonneg_right columns positive
  have groups : 0 ≤ tokens * heads := Int.mul_nonneg rows some
  have half : 0 ≤ headDim.tdiv 2 ∧ headDim.tdiv 2 ≤ headDim := by
    rw [Int.tdiv_eq_ediv_of_nonneg (by omega)]
    omega
  have most : tokens * heads ≤ tokens * (headDim * heads) :=
    Int.mul_le_mul_of_nonneg_left (le_mul_of_one_le_left some (by omega)) rows
  have pairs : tokens * heads * headDim.tdiv 2 ≤ tokens * (headDim * heads) :=
    calc tokens * heads * headDim.tdiv 2
      _ ≤ tokens * heads * headDim := Int.mul_le_mul_of_nonneg_left half.2 groups
      _ = tokens * (headDim * heads) := by rw [Int.mul_assoc, Int.mul_comm heads headDim]
  exact Answer.bind_eq_ok.mpr ⟨_, Bounded.mul_eq_ok.mpr ⟨whole.of_le groups most, rfl⟩,
    Bounded.mul_eq_ok.mpr ⟨whole.of_le (Int.mul_nonneg groups half.1) pairs, rfl⟩⟩

omit outputs in
theorem dispatch_excused {tokens headDim chunk : Int} {x cos sin out : Binding}
    (positive : 0 < headDim) (known : x.desc.shape.Resolved) (fit : x.desc.overflows = false)
    (rotates : Rotates tokens headDim x.desc.shape) :
    launch.Excused (dispatch headDim chunk x cos sin out) := by
  obtain ⟨heads, dims, divided⟩ := rotates
  refine excused_bind_ok (dim_eq_ok.mpr (by rw [dims]; rfl)) ?_
  refine excused_bind_ok (dim_eq_ok.mpr (by rw [dims]; rfl)) ?_
  refine excused_bind_ok (exactly_eq_ok.mpr divided) ?_
  refine excused_bind_ok (exactly_eq_ok.mpr (threads_ok positive known fit dims)) ?_
  refine excused_bind (excused_words _) fun _ _ => ?_
  exact excused_bind (excused_floatKernel 4) fun _ _ => excused_ok _

include resolved fits in
theorem plan_excused {rotaryCoeff : Int}
    (infers : infer rotaryCoeff (launch.inputs.map Binding.desc) = .ok inferred) :
    launch.Excused (plan rotaryCoeff launch) := by
  obtain ⟨_, _, _, _, tokens, headDim, read, rfl, admits⟩ := infer_ok infers
  obtain ⟨q, atQ, rfl⟩ := input_of_desc read 0 rfl
  obtain ⟨k, atK, rfl⟩ := input_of_desc read 1 rfl
  obtain ⟨cos, atCos, rfl⟩ := input_of_desc read 2 rfl
  obtain ⟨sin, atSin, rfl⟩ := input_of_desc read 3 rfl
  obtain ⟨qOut, atQOut⟩ := item_answers launch.outputs 0 (by simp [outputs])
  obtain ⟨kOut, atKOut⟩ := item_answers launch.outputs 1 (by simp [outputs])
  refine excused_bind excused_expectF32 fun _ _ => ?_
  refine excused_bind_ok atQ (excused_bind_ok atK ?_)
  refine excused_bind_ok atCos (excused_bind_ok atSin ?_)
  refine excused_bind_ok (dim_eq_ok.mpr (by rw [admits.cos]; rfl)) ?_
  by_cases even : rotaryCoeff.tmod 2 = 0
  · simp only [even, ne_eq, not_true_eq_false, if_false]
    refine excused_bind_ok (exactly_eq_ok.mpr admits.divided) ?_
    refine excused_bind_ok atQOut (excused_bind_ok atKOut ?_)
    refine excused_bind (dispatch_excused admits.positive (resolved q (mem_of_item atQ))
      (fits _ (by simp)) admits.query) fun _ _ => ?_
    exact excused_bind (dispatch_excused admits.positive (resolved k (mem_of_item atK))
      (fits _ (by simp)) admits.key) fun _ _ => excused_ok _
  · simp only [even, ne_eq, not_false_eq_true, if_true]
    exact excused_missing launch _

end Rope

namespace SelfAttention

omit outputs in
/-- One score for every query row, head and key row. -/
theorem scratchBytes_eq {p : SelfAttention} {tokens headDim : Int} {q k v : TensorDesc}
    (admits : p.Admits tokens headDim q.shape k.shape v.shape) :
    (Operator.selfAttention p).scratchBytes [q, k, v] =
      Bounded.satMulWord (Bounded.satMul (Bounded.satMul p.headNum tokens) p.maxKvLen).toNat 4 := by
  simp [Operator.scratchBytes, admits.query, ElementType.size]

omit outputs in
/-- Attention that has elements asks for scratch. -/
theorem scratch_asked {p : SelfAttention} {tokens headDim : Int} {q k v : TensorDesc}
    (admits : p.Admits tokens headDim q.shape k.shape v.shape)
    (positive : ∀ dim ∈ q.shape.dims, 1 ≤ dim) :
    (Operator.selfAttention p).scratchBytes [q, k, v] ≠ 0 := by
  obtain ⟨rows, same⟩ := admits.rows_pos positive
  have longest := admits.batch.maxKvLen_pos (by omega)
  have heads := admits.batch.heads
  have scores : 1 ≤ p.headNum * tokens := by
    have product := Int.mul_le_mul (show 1 ≤ p.headNum by omega) rows (by omega) (by omega)
    omega
  have first : 1 ≤ Bounded.satMul p.headNum tokens := by
    unfold Bounded.satMul Bounded.clamp Bounded.greatest
    omega
  have all : 1 ≤ Bounded.satMul p.headNum tokens * p.maxKvLen := by
    have product := Int.mul_le_mul first (show 1 ≤ p.maxKvLen by omega) (by omega) (by omega)
    omega
  have second : 1 ≤ Bounded.satMul (Bounded.satMul p.headNum tokens) p.maxKvLen := by
    unfold Bounded.satMul at all ⊢
    unfold Bounded.clamp Bounded.greatest at all ⊢
    omega
  rw [scratchBytes_eq admits]
  unfold Bounded.satMulWord
  omega

include resolved fits nonempty in
theorem plan_excused {p : SelfAttention}
    (scratch : (Operator.selfAttention p).scratchBytes (launch.inputs.map Binding.desc) ≠ 0 →
      launch.scratch.isSome)
    (infers : p.infer (launch.inputs.map Binding.desc) = .ok inferred) :
    (launch.scratch.isSome ∧ ∀ b, Bounded.Fits (p.queryStart b)) ∧
      launch.Excused (p.plan launch) := by
  obtain ⟨_, _, _, tokens, headDim, read, rfl, admits⟩ := infer_ok infers
  obtain ⟨q, atQ, rfl⟩ := input_of_desc read 0 rfl
  obtain ⟨k, atK, rfl⟩ := input_of_desc read 1 rfl
  obtain ⟨v, atV, rfl⟩ := input_of_desc read 2 rfl
  obtain ⟨out, atOut⟩ := item_answers launch.outputs 0 (by simp [outputs])
  have known := resolved q (mem_of_item atQ)
  have fit := fits _ List.mem_cons_self
  obtain ⟨desc, member, nonzero⟩ := nonempty
  obtain rfl := List.mem_singleton.mp member
  have positive := TensorDesc.one_le_of_written known fit nonzero
  have given := scratch (read ▸ scratch_asked admits positive)
  obtain ⟨span, atScratch⟩ := Option.isSome_iff_exists.mp given
  obtain ⟨some, most⟩ := admits.threads_le positive
  have threads : Bounded.Fits (p.tokens * p.headNum) :=
    Bounded.fits_of_nonneg (by omega) (most.trans (TensorDesc.prod_le_greatest known fit))
  have rows : 0 ≤ p.tokens := p.tokens_eq_sum ▸ List.sum_nonneg admits.batch.lens
  have one : 1 ≤ p.headNum := admits.batch.heads
  have tokensFit : Bounded.Fits p.tokens := threads.of_le rows (le_mul_of_one_le_right rows one)
  refine ⟨⟨given, fun b => tokensFit.of_le (admits.batch.queryStart_nonneg b)
    (admits.batch.queryStart_le b)⟩, ?_⟩
  refine excused_bind excused_expectF32 fun _ _ => ?_
  refine excused_bind_ok atQ (excused_bind_ok atK (excused_bind_ok atV (excused_bind_ok atOut ?_)))
  simp only [atScratch]
  refine excused_bind_ok (dim_eq_ok.mpr (by rw [admits.query]; rfl)) ?_
  refine excused_bind_ok (exactly_eq_ok.mpr admits.headDim) ?_
  refine excused_bind_ok (exactly_eq_ok.mpr (Bounded.mul_eq_ok.mpr ⟨threads, rfl⟩)) ?_
  refine excused_bind (excused_words _) fun _ _ => excused_bind (excused_words _) fun _ _ => ?_
  exact excused_bind (excused_floatKernel 5) fun _ _ => excused_ok _

end SelfAttention

end

end

end OperatorGraph
