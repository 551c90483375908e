import OperatorGraph.Proofs.Dispatch.AttendedRows
import OperatorGraph.Proofs.Dispatch.Measures

set_option autoImplicit false

namespace OperatorGraph

open Dispatch Shader

namespace Dispatch

/-- Arrays of floating point numbers, as large as the bound ranges. -/
structure Floats {F : Type} (d : Dispatch) (arrays : Arrays F) : Prop where
  size : arrays.size = Span.elementsAt d.tensors
  real : ∀ binding, ∀ i < Span.elementsAt d.tensors binding, ∃ x, arrays.cell binding i = .real x

/-- Whatever numbers the bound tensors hold, the thread runs and makes these accesses to them. -/
def Traces (d : Dispatch) (n : Nat) (trace : List Access) : Prop :=
  ∀ {F : Type} (m : Arithmetic F) (arrays : Arrays F), d.Floats arrays →
    ∃ t, d.kernel.runThread m d.info arrays (UInt32.ofNat n) = .ok t ∧ t.bare.accesses = trace

/-- An element of the tensor that is bound at a place is read or written. -/
def Touches (trace : List Access) (binding k : Nat) : Prop :=
  .read (.tensor binding) k ∈ trace ∨ .write binding k ∈ trace

end Dispatch

namespace SelfAttention

/-- The trace of thread `n`, whose query row is row `i` of entry `b`. -/
structure Attends (p : SelfAttention) (headDim : Nat) (d : Dispatch) (n b i : Nat)
    (trace : List Access) : Prop where
  traces : d.Traces n trace
  owner : p.Owns b i (n / p.headNum.toNat)
  only : ∀ b' i', p.Owns b' i' (n / p.headNum.toNat) → b' = b ∧ i' = i
  /-- Query heads share the key heads. -/
  shares : n % p.headNum.toNat / (p.headNum.toNat / p.kvHeadNum.toNat) < p.kvHeadNum.toNat
  queries : ∀ k, .read (.tensor 1) k ∈ trace ↔ ∃ e < headDim,
    k = (n / p.headNum.toNat * p.headNum.toNat + n % p.headNum.toNat) * headDim + e
  /-- The key rows are those from the entry's first one to the one of the query row. -/
  keys : ∀ k, .read (.tensor 2) k ∈ trace ↔ ∃ j ≤ p.cached.getD b 0 + i, ∃ e < headDim,
    k = (((p.rows.take b).sum + j) * p.kvHeadNum.toNat +
      n % p.headNum.toNat / (p.headNum.toNat / p.kvHeadNum.toNat)) * headDim + e
  values : ∀ k, .read (.tensor 3) k ∈ trace ↔ .read (.tensor 2) k ∈ trace
  own : (p.rows.take b).sum + p.cached.getD b 0 + i < (p.rows.take (b + 1)).sum
  slots : ∀ k, Touches trace 5 k → n * p.maxKvLen.toNat ≤ k ∧ k < (n + 1) * p.maxKvLen.toNat
  outputs : ∀ k, .write 4 k ∈ trace ↔ k / headDim = n
  /-- Nothing but scores and outputs is written. -/
  written : ∀ binding k, .write binding k ∈ trace → binding = 4 ∨ binding = 5
  inside : ∀ binding k, Touches trace binding k → k < Span.elementsAt d.tensors binding

section

variable {p : SelfAttention} {headDim : Nat} {d : Dispatch} {n b i : Nat}

/-- The accesses of a view attend to its entry. -/
theorem attends_of_view (ok : p.BatchOk) (dim : 0 < headDim)
    (sized : p.Sized headDim (Span.elementsAt d.tensors))
    (below : n < p.fresh.sum * p.headNum.toNat) (owns : p.Owns b i (n / p.headNum.toNat))
    (traces : d.Traces n (p.view headDim n b i).accesses) :
    p.Attends headDim d n b i (p.view headDim n b i).accesses := by
  obtain ⟨own, -, widest⟩ := ok.visible_le headDim owns
  have fits := sized.view_fits below ok owns
  have seen : 0 < (p.view headDim n b i).visible := Nat.succ_pos _
  have last : (p.view headDim n b i).visible = p.cached.getD b 0 + i + 1 := rfl
  refine ⟨traces, owns, fun b' i' other => owns.unique other, ok.kvHead_lt n, fun k => ?_,
    fun k => ?_, fun k => View.read_value.trans View.read_key.symm, by omega, fun k touched => ?_,
    fun k => ?_, fun binding k member => ?_, fun binding k touched => fits.inside touched⟩
  · rw [View.read_query seen, Nat.add_mul]
    rfl
  · simp only [View.read_key, keyRow_view, last, Nat.lt_succ_iff]
    rfl
  · obtain ⟨j, visible, rfl⟩ := View.touch_slot touched
    have start : (p.view headDim n b i).slots = n * p.maxKvLen.toNat := rfl
    rw [Nat.succ_mul]
    omega
  · rw [View.write_output, query_view]
    show (∃ e < headDim, k = n * headDim + e) ↔ k / headDim = n
    constructor
    · rintro ⟨e, inside, rfl⟩
      rw [Nat.mul_comm, Nat.mul_add_div dim, Nat.div_eq_of_lt inside, Nat.add_zero]
    · rintro rfl
      exact ⟨k % headDim, Nat.mod_lt _ dim, by rw [Nat.mul_comm, Nat.div_add_mod]⟩
  · rw [View.mem_accesses] at member
    cases member with
    | score => exact .inr rfl
    | output => exact .inl rfl

end

/-- The launch parameters. -/
def parameters (p : SelfAttention) (headDim : Int) : List UInt32 :=
  [p.tokens * p.headNum, p.headNum, p.kvHeadNum, headDim, (p.batch : Int), p.maxKvLen].map
      (·.toNat.toUInt32) ++ [p.qkScale.bits] ++ (p.tokenOffset ++ p.seqLen).map (·.toNat.toUInt32)

/-- The dispatch that the launch is planned as. -/
def dispatched (p : SelfAttention) (kernel : Kernel) (q k v out : Binding) (s : Span)
    (headDim : Int) : Dispatch :=
  ⟨kernel.withBody body, parameters p headDim, [q.span, k.span, v.span, out.span, s]⟩

/-- A launch that setup has let through, with the tensors and the head size that inference has
found. -/
structure Decoded (p : SelfAttention) (launch : Launch) (q k v out : Binding) (s : Span)
    (headDim : Int) : Prop where
  ok : p.BatchOk
  inputs : launch.inputs = [q, k, v]
  outputs : launch.outputs = [out]
  scratch : launch.scratch = some s
  floats : ∀ b ∈ launch.inputs ++ launch.outputs, b.desc.dtype = .f32
  query : q.desc.shape.dims = [p.tokens, p.headNum * headDim]
  divided : Bounded.div (p.headNum * headDim) p.headNum = .ok headDim
  positive : 0 < p.tokens ∧ 0 < headDim
  sized : p.Sized headDim.toNat (Span.elementsAt [q.span, k.span, v.span, out.span, s])
  short : 7 + 2 * p.batch < 2 ^ 32

namespace Decoded

variable {p : SelfAttention} {launch : Launch} {q k v out : Binding} {s : Span} {headDim : Int}
  (decoded : p.Decoded launch q k v out s headDim)
include decoded

theorem rows_pos : 0 < p.fresh.sum ∧ 0 < p.headNum.toNat ∧ 0 < headDim.toNat := by
  have rows := decoded.ok.sum_fresh
  have heads := decoded.ok.heads
  have positive := decoded.positive
  omega

theorem counts : p.fresh.sum * p.headNum.toNat < 2 ^ 32 ∧ p.fresh.sum < 2 ^ 32 ∧
    p.headNum.toNat < 2 ^ 32 ∧ headDim.toNat < 2 ^ 32 ∧ p.maxKvLen.toNat < 2 ^ 32 := by
  obtain ⟨rows, heads, dim⟩ := decoded.rows_pos
  have elements := decoded.sized.small 1 (by decide)
  have scores := decoded.sized.small 5 (by decide)
  rw [decoded.sized.query] at elements
  rw [decoded.sized.scores] at scores
  have threads : 0 < p.fresh.sum * p.headNum.toNat := Nat.mul_pos rows heads
  have most := Nat.le_mul_of_pos_right (p.fresh.sum * p.headNum.toNat) dim
  have ofRows := Nat.le_mul_of_pos_right p.fresh.sum heads
  have ofHeads := Nat.le_mul_of_pos_left p.headNum.toNat rows
  have ofDim := Nat.le_mul_of_pos_left headDim.toNat threads
  have ofSlots := Nat.le_mul_of_pos_left p.maxKvLen.toNat threads
  omega

theorem lengths_small : ∀ n ∈ p.tokenOffset ++ p.seqLen, 0 ≤ n ∧ n < 0x1_0000_0000 := by
  have ok := decoded.ok
  obtain ⟨-, -, -, -, longest⟩ := decoded.counts
  have each {b : Nat} (inside : b < p.batch) {cached fresh : Int}
      (atCached : p.tokenOffset[b]? = some cached) (atFresh : p.seqLen[b]? = some fresh) :
      (0 ≤ cached ∧ cached < 0x1_0000_0000) ∧ 0 ≤ fresh ∧ fresh < 0x1_0000_0000 := by
    have most := le_maxKvLen (List.mem_of_getElem? (kvLens_getElem? atCached atFresh))
    have first := ok.offsets cached (List.mem_of_getElem? atCached)
    have second := ok.lens fresh (List.mem_of_getElem? atFresh)
    omega
  intro n member
  rcases List.mem_append.mp member with inOffsets | inLens
  · obtain ⟨b, atCached⟩ := List.getElem?_of_mem inOffsets
    have inside : b < p.batch := by
      have small := (List.getElem?_eq_some_iff.mp atCached).1
      rwa [ok.lengths] at small
    obtain ⟨_, fresh, -, atFresh, -, -⟩ := ok.entry inside
    exact (each inside atCached atFresh).1
  · obtain ⟨b, atFresh⟩ := List.getElem?_of_mem inLens
    have inside : b < p.batch := (List.getElem?_eq_some_iff.mp atFresh).1
    obtain ⟨cached, _, atCached, -, -, -⟩ := ok.entry inside
    exact (each inside atCached atFresh).2

theorem plan_answers :
    ∃ kernel, p.plan launch = .ok [dispatched p kernel q k v out s headDim] := by
  obtain ⟨threads, -, heads, width, longest⟩ := decoded.counts
  have ok := decoded.ok
  have rows := ok.sum_fresh
  have some := ok.heads
  have others := ok.kvHeads
  have fewer := Int.le_of_dvd some ok.groups
  have short := decoded.short
  have positive := decoded.positive
  have count : p.tokens * p.headNum = ((p.fresh.sum * p.headNum.toNat : Nat) : Int) := by
    rw [Nat.cast_mul, rows, Int.toNat_of_nonneg (by omega)]
  have floats : expectF32 launch = .ok () := expectF32_eq_ok.mpr decoded.floats
  have longestPos := ok.maxKvLen_pos positive.1
  have small : ∀ value ∈ [p.tokens * p.headNum, p.headNum, p.kvHeadNum, headDim, (p.batch : Int),
      p.maxKvLen], 0 ≤ value ∧ value < 0x1_0000_0000 := by
    intro value member
    simp only [List.mem_cons, List.not_mem_nil, or_false] at member
    rcases member with rfl | rfl | rfl | rfl | rfl | rfl <;> omega
  have sizes := words_eq_ok.mpr ⟨small, rfl⟩
  have lengths := words_eq_ok.mpr ⟨decoded.lengths_small, rfl⟩
  have atQ : item launch.inputs 0 = .ok q := item_eq_ok.mpr (by rw [decoded.inputs]; rfl)
  have atK : item launch.inputs 1 = .ok k := item_eq_ok.mpr (by rw [decoded.inputs]; rfl)
  have atV : item launch.inputs 2 = .ok v := item_eq_ok.mpr (by rw [decoded.inputs]; rfl)
  have atOut : item launch.outputs 0 = .ok out := item_eq_ok.mpr (by rw [decoded.outputs]; rfl)
  have columns : dim q 1 = .ok (p.headNum * headDim) := dim_eq_ok.mpr (by rw [decoded.query]; rfl)
  have product : exactly (Bounded.mul p.tokens p.headNum) = .ok (p.tokens * p.headNum) :=
    exactly_eq_ok.mpr (Bounded.mul_eq_ok.mpr
      ⟨Bounded.fits_of_nonneg (by omega) (by unfold Bounded.greatest; omega), rfl⟩)
  obtain ⟨kernel, bound⟩ : ∃ kernel, floatKernel 5 = .ok kernel := ⟨_, rfl⟩
  refine ⟨kernel, ?_⟩
  refine Answer.bind_eq_ok.mpr ⟨_, floats, Answer.bind_eq_ok.mpr ⟨_, atQ, Answer.bind_eq_ok.mpr
    ⟨_, atK, Answer.bind_eq_ok.mpr ⟨_, atV, Answer.bind_eq_ok.mpr ⟨_, atOut, ?_⟩⟩⟩⟩⟩
  simp only [decoded.scratch]
  exact Answer.bind_eq_ok.mpr ⟨_, columns, Answer.bind_eq_ok.mpr
    ⟨_, exactly_eq_ok.mpr decoded.divided, Answer.bind_eq_ok.mpr ⟨_, product,
      Answer.bind_eq_ok.mpr ⟨_, sizes, Answer.bind_eq_ok.mpr ⟨_, lengths,
        Answer.bind_eq_ok.mpr ⟨_, bound, rfl⟩⟩⟩⟩⟩⟩

omit decoded in
theorem parameters_eq (p : SelfAttention) (headDim : Int) : parameters p headDim =
    [(p.tokens * p.headNum).toNat.toUInt32, UInt32.ofNat p.headNum.toNat,
      UInt32.ofNat p.kvHeadNum.toNat, UInt32.ofNat headDim.toNat, UInt32.ofNat p.batch,
      UInt32.ofNat p.maxKvLen.toNat, p.qkScale.bits] ++
      (p.cached.map UInt32.ofNat ++ p.fresh.map UInt32.ofNat) := by
  simp only [parameters, cached, fresh, List.map_append, List.map_map, List.map_cons, List.map_nil,
    List.cons_append, List.nil_append]
  rfl

theorem informs : p.Informs headDim.toNat (parameters p headDim) := by
  have short := decoded.short
  have count : p.cached.length = p.batch := by
    rw [cached, List.length_map, decoded.ok.lengths]
    rfl
  rw [parameters_eq]
  refine ⟨rfl, rfl, rfl, rfl, rfl, rfl, fun b n found => ?_, fun b n found => ?_, by omega⟩
  · have inside := (List.getElem?_eq_some_iff.mp found).1
    rw [List.getElem?_append_right (by simp), List.getElem?_append_left (by simpa using inside)]
    simp [found]
  · rw [List.getElem?_append_right (by simp; omega), List.getElem?_append_right (by simp; omega)]
    have place : 7 + p.batch + b - 7 - p.cached.length = b := by omega
    simp [place, found]

theorem count_eq : (p.tokens * p.headNum).toNat = p.fresh.sum * p.headNum.toNat := by
  have heads := decoded.ok.heads
  rw [← decoded.ok.sum_fresh, Int.toNat_mul (by omega) (by omega), Int.toNat_natCast]

theorem threads_eq (kernel : Kernel) :
    (dispatched p kernel q k v out s headDim).threads = p.fresh.sum * p.headNum.toNat := by
  show (UInt32.ofNat (p.tokens * p.headNum).toNat).toNat = _
  rw [decoded.count_eq, UInt32.toNat_ofNat_of_lt' decoded.counts.1]

/-- Every thread attends to the entry that owns its query row. -/
theorem attends (kernel : Kernel) {n : Nat} (below : n < p.fresh.sum * p.headNum.toNat) :
    ∃ b i trace, p.Attends headDim.toNat (dispatched p kernel q k v out s headDim) n b i trace := by
  obtain ⟨threads, few, heads, -, -⟩ := decoded.counts
  obtain ⟨-, -, dim⟩ := decoded.rows_pos
  obtain ⟨b, i, owns⟩ : ∃ b i, p.Owns b i (n / p.headNum.toNat) :=
    exists_owns (Nat.div_lt_of_lt_mul (Nat.mul_comm .. ▸ below))
  refine ⟨b, i, _, attends_of_view decoded.ok dim decoded.sized below owns ?_⟩
  intro F m arrays floats
  have count :
      (parameters p headDim)[0]? = some (UInt32.ofNat (p.fresh.sum * p.headNum.toNat)) := by
    rw [← decoded.count_eq]
    rfl
  have fits := decoded.sized.view_fits below decoded.ok owns
  have size : arrays.size = Span.elementsAt [q.span, k.span, v.span, out.span, s] := floats.size
  rw [← size] at fits
  have real : ∀ binding ∈ [1, 2, 3], ∀ e < arrays.size binding,
      ∃ x, arrays.cell binding e = .real x := by
    intro binding _ e inside
    rw [floats.size] at inside
    exact floats.real binding e inside
  exact Kernel.runThread_below (k := kernel.withBody body) rfl count threads m below
    (body_ends decoded.informs decoded.ok (Nat.lt_trans below threads) heads owns few fits real)

end Decoded

/-- A launch of attention on tensors of floating point numbers, with a query that has elements and
with the scratch that it asks for, of fewer elements than there are words. -/
structure Given (p : SelfAttention) (launch : Launch) (s : Span) : Prop where
  param : launch.param = .selfAttention p
  floats : ∀ b ∈ launch.inputs, b.desc.dtype = .f32
  resolved : ∀ b ∈ launch.inputs, b.desc.shape.Resolved
  written : launch.outputs.all (·.bytes = 0) = false
  few : ∀ b ∈ launch.inputs, b.desc.shape.extents.prod < 2 ^ 32
  scratch : launch.scratch = some s
  asked : s.len = launch.param.scratchBytes (launch.inputs.map Binding.desc)
  scores : s.elements < 2 ^ 32
  /-- The launch parameters are no more than that, too. -/
  short : 7 + 2 * p.batch < 2 ^ 32

theorem satMul_eq {a b : Int} (known : 0 ≤ a * b) (few : Bounded.satMul a b < Bounded.greatest) :
    Bounded.satMul a b = a * b := by
  unfold Bounded.satMul Bounded.clamp Bounded.least Bounded.greatest at *
  omega

/-- Scratch of fewer elements than there are words has room for all scores. -/
theorem scratch_elements {p : SelfAttention} {tokens headDim : Int} {q k v : TensorDesc} {s : Span}
    (admits : p.Admits tokens headDim q.shape k.shape v.shape)
    (positive : ∀ dim ∈ q.shape.dims, 1 ≤ dim)
    (asked : s.len = (Operator.selfAttention p).scratchBytes [q, k, v])
    (few : s.elements < 2 ^ 32) :
    s.elements = p.fresh.sum * p.headNum.toNat * p.maxKvLen.toNat := by
  obtain ⟨rows, same⟩ := admits.rows_pos positive
  have heads := admits.batch.heads
  have longest := admits.batch.maxKvLen_pos (by omega)
  have count := admits.batch.sum_fresh
  have bytes : s.elements = Bounded.satMulWord
      (Bounded.satMul (Bounded.satMul p.headNum tokens) p.maxKvLen).toNat 4 / 4 := by
    rw [← scratchBytes_eq admits, ← asked]
    rfl
  have product : 0 ≤ p.headNum * tokens := Int.mul_nonneg (by omega) (by omega)
  have inner : 0 ≤ Bounded.satMul p.headNum tokens := by
    unfold Bounded.satMul Bounded.clamp Bounded.greatest
    omega
  have outer : 0 ≤ Bounded.satMul p.headNum tokens * p.maxKvLen := Int.mul_nonneg inner (by omega)
  have whole : Bounded.satMul (Bounded.satMul p.headNum tokens) p.maxKvLen = s.elements := by
    rw [bytes] at few ⊢
    unfold Bounded.satMulWord at few ⊢
    unfold Bounded.satMul at outer few ⊢
    unfold Bounded.clamp Bounded.greatest at outer few ⊢
    omega
  rw [satMul_eq outer (by unfold Bounded.greatest; omega)] at whole
  have least := le_mul_of_one_le_right inner (show 1 ≤ p.maxKvLen by omega)
  rw [satMul_eq product (by unfold Bounded.greatest; omega)] at whole
  rw [← Int.natCast_inj, Int.natCast_mul, Int.natCast_mul, ← whole, count, same,
    Int.toNat_of_nonneg (by omega), Int.toNat_of_nonneg (by omega), Int.mul_comm p.headNum]

theorem prod_extents {x : Shape} {rows : Nat} {heads headDim : Int}
    (dims : x.dims = [(rows : Int), heads * headDim]) (some : 0 ≤ heads) (known : 0 ≤ headDim) :
    x.extents.prod = rows * heads.toNat * headDim.toNat := by
  rw [Shape.extents, dims, List.map_cons, List.map_cons, List.map_nil, List.prod_pair,
    Int.toNat_natCast, Int.toNat_mul some known, Nat.mul_assoc]

namespace Given

variable {p : SelfAttention} {launch : Launch} {s : Span} {inferred : List TensorDesc}
  (given : p.Given launch s) (accepted : launch.Accepted inferred)
include given accepted

theorem admits : ∃ q k v out tokens headDim, launch.inputs = [q, k, v] ∧ launch.outputs = [out] ∧
    inferred = [q.desc] ∧ out.desc.Compatible q.desc ∧
      p.Admits tokens headDim q.desc.shape k.desc.shape v.desc.shape := by
  obtain ⟨-, infers⟩ := Operator.infer_ok accepted.infers
  rw [given.param] at infers
  obtain ⟨_, _, _, tokens, headDim, read, rfl, admits⟩ := infer_ok infers
  simp only [List.map_eq_cons_iff, List.map_eq_nil_iff] at read
  obtain ⟨q, _, inputs, rfl, k, _, rfl, rfl, v, _, rfl, rfl, rfl⟩ := read
  obtain ⟨out, _, same, rest, outputs⟩ := List.forall₂_cons_right_iff.mp accepted.outputs
  rw [List.forall₂_nil_right_iff.mp rest] at outputs
  exact ⟨q, k, v, out, tokens, headDim, inputs, outputs, rfl, same, admits⟩

theorem elements {b : Binding} (input : b ∈ launch.inputs) :
    b.span.elements = b.desc.shape.extents.prod :=
  Binding.elements_eq (accepted.sized b (List.mem_append_left _ input)) (given.resolved b input)
    (given.few b input) (by rw [given.floats b input]; rfl)

theorem floats_all : ∀ b ∈ launch.inputs ++ launch.outputs, b.desc.dtype = .f32 := by
  obtain ⟨q, k, v, out, -, -, inputs, outputs, rfl, same, -⟩ := given.admits accepted
  intro b member
  rcases List.mem_append.mp member with input | output
  · exact given.floats b input
  · rw [outputs, List.mem_singleton] at output
    rw [output, same.1, given.floats q (by simp [inputs])]

theorem ranges : ∀ b ∈ launch.inputs ++ launch.outputs,
    (b.span.elements : Int) = b.desc.shape.elementCount := by
  have input {b : Binding} (member : b ∈ launch.inputs) :
      (b.span.elements : Int) = b.desc.shape.elementCount := by
    rw [given.elements accepted member,
      TensorDesc.elementCount_eq (given.resolved b member) (given.few b member)]
  obtain ⟨q, k, v, out, -, -, inputs, outputs, rfl, same, -⟩ := given.admits accepted
  intro b member
  rcases List.mem_append.mp member with read | output
  · exact input read
  · have filled := Binding.written_elements (by rw [given.floats_all accepted b member]; rfl)
      (accepted.sized b member)
      (by simpa [outputs, List.mem_singleton.mp (outputs ▸ output)] using given.written)
    have whole := input (b := q) (by simp [inputs])
    have count := same.2.2
    rw [outputs, List.mem_singleton] at output
    subst output
    omega

/-- The sizes of the ranges are those of the batch. -/
theorem sized {q k v out : Binding} {tokens headDim : Int} (inputs : launch.inputs = [q, k, v])
    (outputs : launch.outputs = [out]) (same : out.desc.Compatible q.desc)
    (admits : p.Admits tokens headDim q.desc.shape k.desc.shape v.desc.shape)
    (positive : ∀ dim ∈ q.desc.shape.dims, 1 ≤ dim) :
    p.Sized headDim.toNat (Span.elementsAt [q.span, k.span, v.span, out.span, s]) := by
  have isQ : q ∈ launch.inputs := by simp [inputs]
  have isK : k ∈ launch.inputs := by simp [inputs]
  have isV : v ∈ launch.inputs := by simp [inputs]
  have ok := admits.batch
  obtain ⟨rows, tokensEq⟩ := admits.rows_pos positive
  have dim := admits.headDim_pos positive
  have heads := ok.heads
  have others := ok.kvHeads
  have queries : q.span.elements = p.fresh.sum * p.headNum.toNat * headDim.toNat :=
    (given.elements accepted isQ).trans
      (prod_extents (by rw [admits.query, ok.sum_fresh, tokensEq]) (by omega) (by omega))
  have keys : k.span.elements = p.rows.sum * p.kvHeadNum.toNat * headDim.toNat :=
    (given.elements accepted isK).trans
      (prod_extents (by rw [admits.key, ok.sum_rows]) (by omega) (by omega))
  have values : v.span.elements = p.rows.sum * p.kvHeadNum.toNat * headDim.toNat :=
    (given.elements accepted isV).trans
      (prod_extents (by rw [admits.value, ok.sum_rows]) (by omega) (by omega))
  have results : out.span.elements = q.span.elements := by
    have read := given.ranges accepted q (List.mem_append_left _ isQ)
    have written := given.ranges accepted out (List.mem_append_right _ (by simp [outputs]))
    rw [same.2.2, ← read] at written
    exact Int.natCast_inj.mp written
  have asked : s.len = (Operator.selfAttention p).scratchBytes [q.desc, k.desc, v.desc] := by
    rw [given.asked, given.param, inputs]
    rfl
  have few {b : Binding} (input : b ∈ launch.inputs) : b.span.elements < 2 ^ 32 :=
    given.elements accepted input ▸ given.few b input
  refine ⟨queries, keys, values, results.trans queries,
    scratch_elements admits positive asked given.scores, fun binding member => ?_⟩
  simp only [List.mem_cons, List.not_mem_nil, or_false] at member
  rcases member with rfl | rfl | rfl | rfl | rfl
  · exact few isQ
  · exact few isK
  · exact few isV
  · exact results.trans_lt (few isQ)
  · exact given.scores

/-- What inference has found holds of the launch. -/
theorem decoded : ∃ q k v out headDim, p.Decoded launch q k v out s headDim := by
  obtain ⟨q, k, v, out, tokens, headDim, inputs, outputs, rfl, same, admits⟩ :=
    given.admits accepted
  obtain ⟨desc, member, nonzero⟩ := accepted.nonempty given.written
  obtain rfl := List.mem_singleton.mp member
  have positive := TensorDesc.one_le_of_written
    (given.resolved q (by simp [inputs])) (accepted.fits _ member) nonzero
  obtain ⟨rows, tokensEq⟩ := admits.rows_pos positive
  have dim := admits.headDim_pos positive
  exact ⟨q, k, v, out, headDim, admits.batch, inputs, outputs, given.scratch,
    given.floats_all accepted, by rw [admits.query, tokensEq], admits.headDim, by omega,
    given.sized accepted inputs outputs same admits positive, given.short⟩

theorem plan_eq : launch.plan = p.plan launch := by
  obtain ⟨q, k, v, out, -, -, inputs, -, rfl, -, -⟩ := given.admits accepted
  have plain (index : Nat) : launch.param.acceptedFormats index = [.rowMajor] := by
    rw [given.param]
    rfl
  have kept : ∀ desc ∈ [q.desc], ∃ b ∈ launch.inputs, desc.format = b.desc.format := by
    intro desc member
    rw [List.mem_singleton.mp member]
    exact ⟨q, by simp [inputs], rfl⟩
  rw [accepted.plan_eq plain kept given.written]
  simp only [Launch.planFamily, given.param]

end Given

namespace Attends

variable {p : SelfAttention} {headDim : Nat} {d : Dispatch} {n n' b b' i i' : Nat}
  {trace trace' : List Access}

/-- Threads have no score slot in common. -/
theorem eq_of_touches (first : p.Attends headDim d n b i trace)
    (second : p.Attends headDim d n' b' i' trace') {k : Nat} (here : Touches trace 5 k)
    (there : Touches trace' 5 k) : n = n' := by
  obtain ⟨start, stop⟩ := first.slots k here
  obtain ⟨start', stop'⟩ := second.slots k there
  rw [← Nat.div_eq_of_lt_le start stop, Nat.div_eq_of_lt_le start' stop']

end Attends

/-- The threads of the dispatch address the rows of the batch. -/
structure Addresses (p : SelfAttention) (launch : Launch) (s : Span) (d : Dispatch) (headDim : Nat)
    (traces : Nat → List Access) : Prop where
  tensors : d.tensors = (launch.inputs ++ launch.outputs).map Binding.span ++ [s]
  query : ∀ q, launch.inputs.head? = some q → q.desc.shape.dims = [p.tokens, p.headNum * headDim]
  ranges : ∀ b ∈ launch.inputs ++ launch.outputs,
    (b.span.elements : Int) = b.desc.shape.elementCount
  threads : d.threads = p.fresh.sum * p.headNum.toNat
  attends : ∀ n < d.threads, ∃ b i, p.Attends headDim d n b i (traces n)
  /-- Threads have no score slot in common. -/
  apart : ∀ n < d.threads, ∀ n' < d.threads, n ≠ n' →
    ∀ k, Touches (traces n) 5 k → ¬ Touches (traces n') 5 k
  /-- Every element of the output is written by one thread. -/
  once : ∀ k < Span.elementsAt d.tensors 4, ∃! n, n < d.threads ∧ .write 4 k ∈ traces n

/-- The threads of a launch that setup has let through address the rows of the batch. -/
theorem Decoded.addresses {p : SelfAttention} {launch : Launch} {q k v out : Binding} {s : Span}
    {headDim : Int} (decoded : p.Decoded launch q k v out s headDim)
    (ranges : ∀ b ∈ launch.inputs ++ launch.outputs,
      (b.span.elements : Int) = b.desc.shape.elementCount) (kernel : Kernel) :
    ∃ traces,
      p.Addresses launch s (dispatched p kernel q k v out s headDim) headDim.toNat traces := by
  have threads := decoded.threads_eq kernel
  obtain ⟨-, -, dim⟩ := decoded.rows_pos
  have each (n : Nat) : ∃ trace, n < (dispatched p kernel q k v out s headDim).threads → ∃ b i,
      p.Attends headDim.toNat (dispatched p kernel q k v out s headDim) n b i trace := by
    by_cases below : n < p.fresh.sum * p.headNum.toNat
    · obtain ⟨b, i, trace, attends⟩ := decoded.attends kernel below
      exact ⟨trace, fun _ => ⟨b, i, attends⟩⟩
    · exact ⟨[], fun inside => absurd (threads ▸ inside) below⟩
  choose traces attends using each
  refine ⟨traces, ?_, fun first found => ?_, ranges, threads, attends,
    fun n below n' alsoBelow different place here there => ?_, fun place inside => ?_⟩
  · rw [decoded.inputs, decoded.outputs]
    rfl
  · rw [decoded.inputs] at found
    obtain rfl := Option.some.inj found
    rw [decoded.query, Int.toNat_of_nonneg (by omega)]
  · obtain ⟨_, _, first⟩ := attends n below
    obtain ⟨_, _, second⟩ := attends n' alsoBelow
    exact different (first.eq_of_touches second here there)
  · have size : place < p.fresh.sum * p.headNum.toNat * headDim.toNat :=
      decoded.sized.output ▸ inside
    have below : place / headDim.toNat < (dispatched p kernel q k v out s headDim).threads :=
      threads ▸ (Nat.div_lt_iff_lt_mul dim).mpr size
    obtain ⟨_, _, first⟩ := attends _ below
    refine ⟨place / headDim.toNat, ⟨below, (first.outputs place).mpr rfl⟩, ?_⟩
    rintro n ⟨other, written⟩
    obtain ⟨_, _, second⟩ := attends n other
    exact ((second.outputs place).mp written).symm

/-- Attention on tensors that inference has accepted is planned as one dispatch, whose threads
address the rows of the batch. -/
theorem attention_traces {p : SelfAttention} {launch : Launch} {s : Span}
    {inferred : List TensorDesc} (accepted : launch.Accepted inferred) (given : p.Given launch s) :
    ∃ d headDim traces, launch.plan = .ok [d] ∧ p.Addresses launch s d headDim traces := by
  obtain ⟨q, k, v, out, headDim, decoded⟩ := given.decoded accepted
  obtain ⟨kernel, planned⟩ := decoded.plan_answers
  obtain ⟨traces, addresses⟩ := decoded.addresses (given.ranges accepted) kernel
  exact ⟨_, _, traces, (given.plan_eq accepted).trans planned, addresses⟩

/-- Two groups of two heads over three entries: one with a cached prefix, one without query rows and
one without a cache. -/
def ragged : SelfAttention :=
  ⟨4, 2, .one, [2, 1, 0], [2, 0, 1]⟩

/-- A tensor that is bound to a range of its size. -/
def rowsAt (rows columns : Nat) (ptr : Address) : Binding :=
  ⟨.rowMajor .f32 ⟨[rows, columns]⟩, ptr, 4 * (rows * columns)⟩

/-- The ragged batch with heads of two elements, whose longest entry has four key rows. -/
def raggedLaunch : Launch :=
  ⟨"attend", .selfAttention ragged, [rowsAt 3 8 0, rowsAt 6 4 96, rowsAt 6 4 192],
    [rowsAt 3 8 288], some ⟨384, 192⟩⟩

/-- Twelve threads attend to the ragged batch. -/
theorem ragged_traces : ∃ d headDim traces, raggedLaunch.plan = .ok [d] ∧ d.threads = 12 ∧
    ragged.Addresses raggedLaunch ⟨384, 192⟩ d headDim traces := by
  have accepted : raggedLaunch.Accepted [(rowsAt 3 8 0).desc] :=
    ⟨by decide, by decide, by decide, by decide, by decide⟩
  have given : ragged.Given raggedLaunch ⟨384, 192⟩ :=
    ⟨rfl, by decide, by decide, by decide, by decide, rfl, by decide, by decide, by decide⟩
  obtain ⟨d, headDim, traces, planned, addresses⟩ := attention_traces accepted given
  exact ⟨d, headDim, traces, planned, addresses.threads, addresses⟩

end SelfAttention

end OperatorGraph
