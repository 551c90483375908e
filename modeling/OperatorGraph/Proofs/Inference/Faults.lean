import OperatorGraph.Proofs.Dispatch.Copies
import OperatorGraph.Proofs.Inference.Acceptance
import OperatorGraph.Proofs.Shape.Broadcasting

set_option autoImplicit false

namespace OperatorGraph

namespace Bounded

theorem Fits.tdiv {a b : Int} (fits : Fits a) (positive : 0 < b) : Fits (a.tdiv b) := by
  have small := Int.natAbs_tdiv_le_natAbs a b
  obtain ⟨least, greatest⟩ := fits
  unfold Fits Bounded.least Bounded.greatest at *
  rcases Int.le_total 0 a with nonneg | nonpos
  · omega
  · have sign : 0 ≤ (-a).tdiv b := Int.tdiv_nonneg (by omega) positive.le
    rw [Int.neg_tdiv] at sign
    omega

theorem rem_of_positive {a b : Int} (fits : Fits a) (positive : 0 < b) :
    rem a b = .ok (a.tmod b) :=
  rem_eq_ok.mpr ⟨by omega, fits.tdiv positive, rfl⟩

theorem div_of_positive {a b : Int} (fits : Fits a) (positive : 0 < b) :
    div a b = .ok (a.tdiv b) :=
  div_eq_ok.mpr ⟨by omega, fits.tdiv positive, rfl⟩

end Bounded

open Inference

namespace Inference

variable {α β : Type}

/-- A check or a rule answers or objects. -/
def Faultless (answer : Except ShapeError α) : Prop :=
  ∀ f, answer ≠ .error (.fault f)

theorem ok_bind (a : α) (next : α → Except ShapeError β) : (.ok a >>= next) = next a := rfl

theorem faultless_ok (a : α) : Faultless (.ok a) := fun _ => by simp

theorem faultless_pure (a : α) : Faultless (pure a) := fun _ => by simp [pure, Except.pure]

theorem faultless_objection (o : Objection) : Faultless (objection o : Except ShapeError α) :=
  fun _ => by simp [objection]

theorem faultless_bind {first : Except ShapeError α} {next : α → Except ShapeError β}
    (here : Faultless first) (later : ∀ a, first = .ok a → Faultless (next a)) :
    Faultless (first >>= next) := by
  intro f failed
  rcases Answer.bind_eq_error.mp failed with atFirst | ⟨a, answered, atNext⟩
  · exact here f atFirst
  · exact later a answered f atNext

theorem faultless_exactly {value : Except Fault α} {a : α} (answered : value = .ok a) :
    Faultless (exactly value) := by
  rw [answered]
  exact faultless_ok a

theorem faultless_expectRank (index : Nat) (x : TensorDesc) (rank : Nat) :
    Faultless (expectRank index x rank) := by
  intro f
  unfold expectRank
  split <;> simp

theorem faultless_expectDtype (index : Nat) (x : TensorDesc) (expected : ElementType) :
    Faultless (expectDtype index x expected) := by
  intro f
  unfold expectDtype
  split <;> simp

theorem faultless_expectFloat (index : Nat) (x : TensorDesc) : Faultless (expectFloat index x) := by
  intro f
  unfold expectFloat
  split <;> simp [objection]

theorem faultless_axisOf (s : Shape) (axis : Int) : Faultless (axisOf s axis) := by
  intro f
  unfold axisOf
  split <;> simp

theorem faultless_broadcast (lhs rhs : Shape) : Faultless (broadcast lhs rhs) := by
  intro f
  unfold broadcast
  split <;> simp

theorem dimAt_of_lt {x : TensorDesc} {axis : Nat} (inside : axis < x.shape.rank) :
    dimAt x axis = .ok x.shape.dims[axis] :=
  dimAt_eq_ok.mpr (List.getElem?_eq_getElem inside)

theorem faultless_dimAt {x : TensorDesc} {axis : Nat} (inside : axis < x.shape.rank) :
    Faultless (dimAt x axis) := by
  rw [dimAt_of_lt inside]
  exact faultless_ok _

theorem faultless_expectDim (index : Nat) {x : TensorDesc} {axis : Nat}
    (inside : axis < x.shape.rank) (expected : Int) :
    Faultless (expectDim index x axis expected) := by
  refine faultless_bind (faultless_dimAt inside) fun actual _ f => ?_
  split <;> simp

end Inference

theorem Elementwise.faultless {kind : Elementwise} {inputs : List TensorDesc}
    (count : inputs.length = if kind.isBinary then 2 else 1) : Faultless (kind.infer inputs) := by
  cases kind with
  | cast target =>
    obtain ⟨x, rfl⟩ := List.length_eq_one_iff.mp count
    exact faultless_ok _
  | scale factor =>
    obtain ⟨x, rfl⟩ := List.length_eq_one_iff.mp count
    exact faultless_bind (faultless_expectFloat 0 x) fun _ _ => faultless_pure _
  | add | sub | mul | realDiv =>
    obtain ⟨x, y, rfl⟩ := List.length_eq_two.mp count
    exact faultless_bind (faultless_expectDtype 1 y x.dtype) fun _ _ =>
      faultless_bind (faultless_broadcast x.shape y.shape) fun _ _ => faultless_pure _

theorem Activation.faultless (kind : Activation) {x : TensorDesc}
    (words : ∀ dim ∈ x.shape.dims, Bounded.Fits dim) : Faultless (kind.infer [x]) := by
  refine faultless_bind (faultless_expectFloat 0 x) fun _ _ => ?_
  split
  · unfold inferGate
    split
    · exact faultless_objection _
    · rename_i hidden last
      have fits := words hidden (List.mem_of_getLast? last)
      refine faultless_bind (faultless_exactly (Bounded.rem_of_positive fits (by decide)))
        fun _ _ => ?_
      split
      · exact faultless_objection _
      · exact faultless_bind (faultless_exactly (Bounded.div_of_positive fits (by decide)))
          fun _ _ => faultless_pure _
  · exact faultless_pure _

namespace LayerNorm

theorem faultless_expectParams (x : TensorDesc) (params : Shape) (index : Nat) (y : TensorDesc) :
    Faultless (expectParams x params index y) := by
  refine faultless_bind (faultless_expectDtype index y x.dtype) fun _ _ => ?_
  split
  · exact faultless_ok _
  · exact faultless_objection _

theorem faultless (p : LayerNorm) (x gain bias : TensorDesc) :
    Faultless (p.infer [x, gain, bias]) := by
  refine faultless_bind (faultless_expectFloat 0 x) fun _ _ => ?_
  refine faultless_bind (faultless_axisOf x.shape p.normAxis) fun axis _ => ?_
  dsimp only
  split
  · exact faultless_objection _
  · refine faultless_bind (faultless_axisOf x.shape p.paramsAxis) fun paramsAxis _ => ?_
    refine faultless_bind (faultless_expectParams x _ 1 gain) fun _ _ => ?_
    exact faultless_bind (faultless_expectParams x _ 2 bias) fun _ _ => faultless_pure _

end LayerNorm

theorem inferRmsNorm_faultless (x gain : TensorDesc) : Faultless (inferRmsNorm [x, gain]) := by
  refine faultless_bind (faultless_expectFloat 0 x) fun _ _ => ?_
  refine faultless_bind (faultless_expectDtype 1 gain x.dtype) fun _ _ => ?_
  split
  · exact faultless_objection _
  · refine faultless_bind (faultless_expectRank 1 gain 1) fun _ ranked => ?_
    have rank := expectRank_eq_ok.mp ranked
    exact faultless_bind (faultless_expectDim 1 (by omega) _) fun _ _ => faultless_pure _

theorem inferSoftmax_faultless (axis : Int) (x : TensorDesc) : Faultless (inferSoftmax axis [x]) :=
  faultless_bind (faultless_expectFloat 0 x) fun _ _ =>
    faultless_bind (faultless_axisOf x.shape axis) fun _ _ => faultless_pure _

theorem MatMul.faultless (p : MatMul) {inputs : List TensorDesc}
    (count : inputs.length = if p.hasBias then 3 else 2) : Faultless (p.infer inputs) := by
  obtain ⟨a, b, rest, rfl⟩ : ∃ a b rest, inputs = a :: b :: rest := by
    match inputs, count with
    | a :: b :: rest, _ => exact ⟨a, b, rest, rfl⟩
    | [], count | [_], count => cases bias : p.hasBias <;> simp [bias] at count
  refine faultless_bind (faultless_expectRank 0 a 2) fun _ rankedA => ?_
  refine faultless_bind (faultless_expectRank 1 b 2) fun _ rankedB => ?_
  refine faultless_bind (faultless_expectDtype 1 b a.dtype) fun _ _ => ?_
  have rankA := expectRank_eq_ok.mp rankedA
  have rankB := expectRank_eq_ok.mp rankedB
  refine faultless_bind (faultless_dimAt (by split <;> omega)) fun inner _ => ?_
  obtain ⟨a₀, a₁, dimsA⟩ := List.length_eq_two.mp rankA
  obtain ⟨b₀, b₁, dimsB⟩ := List.length_eq_two.mp rankB
  obtain ⟨extents, computed⟩ : ∃ extents, p.extentsFor? a.shape b.shape = some extents := by
    simp [extentsFor?, dimsA, dimsB]
  simp only [computed]
  split
  · exact fun _ => by simp
  · refine faultless_bind ?_ fun _ _ => faultless_bind ?_ fun _ _ => faultless_pure _
    · unfold checkDeclared
      split
      · split
        · exact faultless_ok _
        · exact faultless_objection _
      · exact faultless_ok _
    · unfold checkBias
      split
      · rename_i hasBias
        split
        · split
          · exact faultless_ok _
          · exact faultless_objection _
        · simp [hasBias] at count
      · exact faultless_ok _

theorem Strided.faultless (p : Strided) (x : TensorDesc) : Faultless (p.infer [x]) := by
  rw [infer]
  split
  · exact faultless_objection _
  · split
    · exact faultless_objection _
    · refine faultless_bind ?_ fun _ _ => faultless_pure _
      unfold checkReach
      split
      · split
        · split
          · exact faultless_ok _
          · exact faultless_objection _
        · exact faultless_objection _
      · exact faultless_ok _

theorem Transposition.faultless (perm : List Nat) (x : TensorDesc) :
    Faultless (infer perm [x]) := by
  rw [infer]
  split
  · exact faultless_objection _
  · rename_i injective
    split
    · exact fun _ => by simp
    · have axes : ∀ axis ∈ perm, axis < x.shape.rank := by
        have both : isInjective perm x.shape.rank = true := by simpa using injective
        simp only [isInjective, Bool.and_eq_true, List.all_eq_true, decide_eq_true_eq] at both
        exact both.1
      obtain ⟨dims, permuted⟩ := Answer.mapM_answers fun axis member =>
        ⟨_, dimAt_of_lt (axes axis member)⟩
      rw [permuted]
      exact faultless_pure _

theorem inferRelayout_faultless (target : Format) (x : TensorDesc) :
    Faultless (inferRelayout target [x]) := by
  rw [inferRelayout]
  split
  · exact fun _ => by simp
  · exact faultless_ok _

theorem inferGather_faultless (axis : Int) (table indices : TensorDesc) :
    Faultless (inferGather axis [table, indices]) := by
  rw [inferGather]
  split
  · exact fun _ => by simp
  · exact faultless_bind (faultless_axisOf table.shape axis) fun _ _ => faultless_pure _

namespace Rope

theorem faultless_expectGroups {headDim rotaryCoeff : Int} (fits : Bounded.Fits headDim) :
    Faultless (expectGroups headDim rotaryCoeff) := by
  unfold expectGroups
  split
  · exact faultless_objection _
  · refine faultless_bind (faultless_exactly (Bounded.rem_of_positive fits (by omega)))
      fun _ _ => ?_
    split
    · exact faultless_ok _
    · exact faultless_objection _

theorem faultless_expectHeads (index : Nat) {x : TensorDesc} (rank : x.shape.rank = 2)
    (words : ∀ dim ∈ x.shape.dims, Bounded.Fits dim) {headDim : Int} (positive : 0 < headDim) :
    Faultless (expectHeads index x headDim) := by
  refine faultless_bind (faultless_dimAt (by omega)) fun hidden found => ?_
  have fits := words hidden (List.mem_of_getElem? (dimAt_eq_ok.mp found))
  refine faultless_bind (faultless_exactly (Bounded.rem_of_positive fits positive)) fun _ _ => ?_
  split
  · exact faultless_ok _
  · exact faultless_objection _

theorem faultless (rotaryCoeff : Int) {q k cos sin : TensorDesc}
    (words : ∀ x ∈ [q, k, cos, sin], ∀ dim ∈ x.shape.dims, Bounded.Fits dim) :
    Faultless (infer rotaryCoeff [q, k, cos, sin]) := by
  simp only [List.forall_mem_cons] at words
  obtain ⟨wordsQ, wordsK, wordsCos, -⟩ := words
  refine faultless_bind (faultless_expectRank 0 q 2) fun _ rankedQ => ?_
  refine faultless_bind (faultless_expectRank 1 k 2) fun _ rankedK => ?_
  refine faultless_bind (faultless_expectRank 2 cos 2) fun _ rankedCos => ?_
  refine faultless_bind (faultless_expectRank 3 sin 2) fun _ rankedSin => ?_
  have rankQ := expectRank_eq_ok.mp rankedQ
  have rankK := expectRank_eq_ok.mp rankedK
  have rankCos := expectRank_eq_ok.mp rankedCos
  have rankSin := expectRank_eq_ok.mp rankedSin
  refine faultless_bind (faultless_expectFloat 0 q) fun _ _ => ?_
  refine faultless_bind (faultless_expectDtype 1 k q.dtype) fun _ _ => ?_
  refine faultless_bind (faultless_expectDtype 2 cos q.dtype) fun _ _ => ?_
  refine faultless_bind (faultless_expectDtype 3 sin q.dtype) fun _ _ => ?_
  refine faultless_bind (faultless_dimAt (by omega)) fun tokens _ => ?_
  refine faultless_bind (faultless_dimAt (by omega)) fun headDim found => ?_
  have fits := wordsCos headDim (List.mem_of_getElem? (dimAt_eq_ok.mp found))
  refine faultless_bind (faultless_expectGroups fits) fun _ groups => ?_
  have positive := (expectGroups_ok groups).1
  refine faultless_bind (faultless_expectDim 1 (by omega) tokens) fun _ _ => ?_
  refine faultless_bind (faultless_expectDim 2 (by omega) tokens) fun _ _ => ?_
  refine faultless_bind (faultless_expectDim 3 (by omega) tokens) fun _ _ => ?_
  refine faultless_bind (faultless_expectDim 3 (by omega) headDim) fun _ _ => ?_
  refine faultless_bind (faultless_expectHeads 0 rankQ wordsQ positive) fun _ _ => ?_
  exact faultless_bind (faultless_expectHeads 1 rankK wordsK positive) fun _ _ => faultless_pure _

end Rope

namespace SelfAttention

theorem faultless_checkBatch {p : SelfAttention} (heads : Bounded.Fits p.headNum) :
    Faultless p.checkBatch := by
  unfold checkBatch
  split
  · exact faultless_objection _
  · refine faultless_bind (faultless_exactly (Bounded.rem_of_positive heads (by omega)))
      fun _ _ => ?_
    split
    · exact faultless_objection _
    · split
      · exact faultless_objection _
      · split
        · exact faultless_objection _
        · exact faultless_ok _

/-- A share of what fits, fits: key heads are no more than query heads. -/
theorem BatchOk.fits_columns {p : SelfAttention} (batch : p.BatchOk) {headDim : Int}
    (fits : Bounded.Fits (p.headNum * headDim)) : Bounded.Fits (p.kvHeadNum * headDim) := by
  have most : p.kvHeadNum ≤ p.headNum := Int.le_of_dvd batch.heads batch.groups
  have positive := batch.kvHeads
  obtain ⟨least, greatest⟩ := fits
  rcases Int.le_total 0 headDim with nonneg | nonpos
  · have below : p.kvHeadNum * headDim ≤ p.headNum * headDim :=
      Int.mul_le_mul_of_nonneg_right most nonneg
    have product : 0 ≤ p.kvHeadNum * headDim := Int.mul_nonneg positive.le nonneg
    exact Bounded.fits_of_nonneg product (by omega)
  · have above : p.headNum * headDim ≤ p.kvHeadNum * headDim :=
      Int.mul_le_mul_of_nonpos_right most nonpos
    have product : p.kvHeadNum * headDim ≤ 0 :=
      Int.mul_nonpos_of_nonneg_of_nonpos positive.le nonpos
    unfold Bounded.Fits Bounded.greatest
    omega

theorem faultless_expectCache {p : SelfAttention} {headDim : Int}
    (fits : Bounded.Fits (p.kvHeadNum * headDim)) (index : Nat) {x : TensorDesc}
    (rank : x.shape.rank = 2) : Faultless (p.expectCache headDim index x) := by
  refine faultless_bind (faultless_expectDim index (by omega) _) fun _ _ => ?_
  refine faultless_bind (faultless_exactly (Bounded.mul_eq_ok.mpr ⟨fits, rfl⟩)) fun _ _ => ?_
  exact faultless_expectDim index (by omega) _

theorem faultless {p : SelfAttention} (heads : Bounded.Fits p.headNum) {q k v : TensorDesc}
    (words : ∀ dim ∈ q.shape.dims, Bounded.Fits dim) : Faultless (p.infer [q, k, v]) := by
  refine faultless_bind (faultless_checkBatch heads) fun _ checked => ?_
  have batch := checkBatch_ok checked
  refine faultless_bind (faultless_expectRank 0 q 2) fun _ rankedQ => ?_
  refine faultless_bind (faultless_expectRank 1 k 2) fun _ rankedK => ?_
  refine faultless_bind (faultless_expectRank 2 v 2) fun _ rankedV => ?_
  have rankQ := expectRank_eq_ok.mp rankedQ
  have rankK := expectRank_eq_ok.mp rankedK
  have rankV := expectRank_eq_ok.mp rankedV
  refine faultless_bind (faultless_expectFloat 0 q) fun _ _ => ?_
  refine faultless_bind (faultless_expectDtype 1 k q.dtype) fun _ _ => ?_
  refine faultless_bind (faultless_expectDtype 2 v q.dtype) fun _ _ => ?_
  refine faultless_bind (faultless_dimAt (by omega)) fun tokens _ => ?_
  refine faultless_bind (faultless_dimAt (by omega)) fun hidden found => ?_
  have fits := words hidden (List.mem_of_getElem? (dimAt_eq_ok.mp found))
  have remainder := Bounded.rem_of_positive fits batch.heads
  refine faultless_bind (faultless_exactly remainder) fun rest same => ?_
  split
  · exact faultless_objection _
  · rename_i whole
    rw [exactly_eq_ok, remainder, Except.ok.injEq] at same
    have quotient := Bounded.div_of_positive fits batch.heads
    refine faultless_bind (faultless_exactly quotient) fun headDim divided => ?_
    rw [exactly_eq_ok, quotient, Except.ok.injEq] at divided
    split
    · exact fun _ => by simp
    · have product : p.headNum * headDim = hidden := by
        rw [← divided]
        exact Int.mul_tdiv_cancel' (Int.dvd_of_tmod_eq_zero (same.trans (not_not.mp whole)))
      have columns : Bounded.Fits (p.kvHeadNum * headDim) :=
        batch.fits_columns (product.symm ▸ fits)
      refine faultless_bind (faultless_expectCache columns 1 rankK) fun _ _ => ?_
      exact faultless_bind (faultless_expectCache columns 2 rankV) fun _ _ => faultless_pure _

end SelfAttention

/-- What a split cannot do is to list more parts than a list can hold. -/
theorem inferSplit_eq_fault {axis : Int} {count : Nat} (small : count < 2 ^ 63) {x : TensorDesc}
    (words : ∀ dim ∈ x.shape.dims, Bounded.Fits dim) {f : Fault} :
    inferSplit axis count [x] = .error (.fault f) ↔
      f = .capacity ∧ Bounded.capacity ≤ count ∧ ∃ position dim,
        x.shape.axis? axis = some position ∧ x.shape.dims[position]? = some dim ∧
          (count : Int) ∣ dim := by
  have room : 0 < Bounded.capacity := by decide
  have signed : Bounded.signed count = count :=
    Int.bmod_eq_of_le (by omega) (by omega)
  cases named : x.shape.axis? axis with
  | none => simp [inferSplit, axisOf, named, bind, Except.bind]
  | some position =>
    obtain ⟨dim, found⟩ : ∃ dim, x.shape.dims[position]? = some dim :=
      ⟨_, List.getElem?_eq_getElem (Shape.axis?_lt named)⟩
    have fits := words dim (List.mem_of_getElem? found)
    have atAxis : axisOf x.shape axis = .ok position := axisOf_eq_ok.mpr named
    have atDim : dimAt x position = .ok dim := dimAt_eq_ok.mpr found
    have only : (∃ place size, some position = some place ∧ x.shape.dims[place]? = some size ∧
        (count : Int) ∣ size) ↔ (count : Int) ∣ dim := by
      constructor
      · rintro ⟨place, size, same, there, divides⟩
        obtain rfl := Option.some.inj same
        obtain rfl := Option.some.inj (found.symm.trans there)
        exact divides
      · exact fun divides => ⟨position, dim, rfl, found, divides⟩
    rw [only, inferSplit, atAxis, Inference.ok_bind, atDim, Inference.ok_bind, signed]
    rcases Nat.eq_zero_or_pos count with rfl | positive
    · have none : ¬ Bounded.capacity ≤ 0 := by omega
      simp [objection, none]
    · rw [if_neg (by omega), Bounded.rem_of_positive fits (by omega),
        Bounded.div_of_positive fits (by omega), exactly, Except.mapError, Inference.ok_bind]
      rw [Int.dvd_iff_tmod_eq_zero]
      split
      · rename_i uneven
        simp [objection, uneven]
      · rename_i even
        rw [not_not] at even
        by_cases fewer : count < Bounded.capacity
        · have none : ¬ Bounded.capacity ≤ count := by omega
          simp [Bounded.reserve, fewer, none, exactly, Except.mapError, Inference.ok_bind]
        · have many : Bounded.capacity ≤ count := by omega
          simp only [Bounded.reserve, fewer, if_false, exactly, Except.mapError, many, even,
            and_true]
          exact ⟨fun failed => by cases failed; rfl, fun cause => cause ▸ rfl⟩

namespace Concat

variable {lhs rhs : List Int} {position : Nat}

/-- The step of a join at one position. -/
def joinDim (axis : Nat) : (Int × Int) × Nat → Except ShapeError Int
  | ((a, b), position) =>
    if position = axis then exactly (Bounded.add a b)
    else if a = b then .ok a
    else .error (.dim 1 position a b)

theorem joinDims_eq (axis : Nat) (lhs rhs : List Int) :
    joinDims axis lhs rhs = (lhs.zip rhs).zipIdx.mapM (joinDim axis) := rfl

theorem joinDim_eq_fault {a b : Int} {axis : Nat} {f : Fault} :
    joinDim axis ((a, b), position) = .error (.fault f) ↔
      position = axis ∧ f = .overflow ∧ ¬ Bounded.Fits (a + b) := by
  unfold joinDim
  by_cases here : position = axis
  · by_cases fits : Bounded.Fits (a + b) <;>
      simp [here, exactly, Bounded.add, Bounded.add?, fits, Except.mapError, eq_comm]
  · by_cases same : a = b <;> simp [here, same]

theorem joinDim_answers {a b : Int} {axis : Nat} (before : position < axis) :
    (∃ dim, joinDim axis ((a, b), position) = .ok dim) ↔ a = b := by
  unfold joinDim
  by_cases same : a = b <;> simp [before.ne, same]

theorem getElem?_zipIdx_zip {i : Nat} {entry : (Int × Int) × Nat} :
    (lhs.zip rhs).zipIdx[i]? = some entry ↔
      lhs[i]? = some entry.1.1 ∧ rhs[i]? = some entry.1.2 ∧ entry.2 = i := by
  obtain ⟨⟨a, b⟩, place⟩ := entry
  rw [List.getElem?_zipIdx, Option.map_eq_some_iff]
  simp only [List.getElem?_zip_eq_some, Prod.exists, Prod.mk.injEq]
  constructor
  · rintro ⟨_, _, ⟨atA, atB⟩, ⟨rfl, rfl⟩, rfl⟩
    exact ⟨atA, atB, by omega⟩
  · rintro ⟨atA, atB, rfl⟩
    exact ⟨a, b, ⟨atA, atB⟩, ⟨rfl, rfl⟩, by omega⟩

/-- What two shapes of one rank cannot be joined to is a dimension past the range. -/
theorem joinDims_eq_fault (rank : lhs.length = rhs.length) (inside : position < lhs.length)
    {f : Fault} :
    joinDims position lhs rhs = .error (.fault f) ↔ f = .overflow ∧
      lhs.take position = rhs.take position ∧ ∃ a b, lhs[position]? = some a ∧
        rhs[position]? = some b ∧ ¬ Bounded.Fits (a + b) := by
  rw [joinDims_eq, Answer.mapM_eq_error]
  constructor
  · rintro ⟨i, ⟨⟨a, b⟩, place⟩, found, refused, before⟩
    obtain ⟨atA, atB, rfl⟩ := getElem?_zipIdx_zip.mp found
    obtain ⟨rfl, cause, past⟩ := joinDim_eq_fault.mp refused
    refine ⟨cause, List.ext_getElem? fun j => ?_, a, b, atA, atB, past⟩
    rw [List.getElem?_take, List.getElem?_take]
    split
    · rename_i small
      have inA : lhs[j]? = some lhs[j] := List.getElem?_eq_getElem (by omega)
      have inB : rhs[j]? = some rhs[j] := List.getElem?_eq_getElem (by omega)
      have answered := before j small ((lhs[j], rhs[j]), j)
        (getElem?_zipIdx_zip.mpr ⟨inA, inB, rfl⟩)
      rw [inA, inB, (joinDim_answers small).mp answered]
    · rfl
  · rintro ⟨cause, same, a, b, atA, atB, past⟩
    refine ⟨position, ((a, b), position), getElem?_zipIdx_zip.mpr ⟨atA, atB, rfl⟩,
      joinDim_eq_fault.mpr ⟨rfl, cause, past⟩, ?_⟩
    rintro j small ⟨⟨x, y⟩, place⟩ found
    obtain ⟨atX, atY, rfl⟩ := getElem?_zipIdx_zip.mp found
    have taken := congrArg (·[place]?) same
    simp only [List.getElem?_take, small, if_true] at taken
    exact (joinDim_answers small).mpr
      (Option.some.inj (atX.symm.trans (taken.trans atY)))

theorem infer_eq_fault {axis : Int} {x y : TensorDesc} {f : Fault} :
    infer axis [x, y] = .error (.fault f) ↔ f = .overflow ∧ y.dtype = x.dtype ∧
      x.shape.rank = y.shape.rank ∧ ∃ position a b, x.shape.axis? axis = some position ∧
        x.shape.dims.take position = y.shape.dims.take position ∧
        x.shape.dims[position]? = some a ∧ y.shape.dims[position]? = some b ∧
        ¬ Bounded.Fits (a + b) := by
  have objects : expectDtype 1 y x.dtype = .error (.fault f) ↔ False :=
    iff_false_intro (faultless_expectDtype 1 y x.dtype f)
  have unnamed : axisOf x.shape axis = .error (.fault f) ↔ False :=
    iff_false_intro (faultless_axisOf x.shape axis f)
  simp only [infer, Answer.bind_eq_error, objects, unnamed, false_or, expectDtype_eq_ok,
    axisOf_eq_ok]
  constructor
  · rintro ⟨_, dtype, position, named, failed⟩
    split at failed
    · simp at failed
    · rename_i rank
      rw [not_not] at rank
      rcases Answer.bind_eq_error.mp failed with joined | ⟨_, -, impossible⟩
      · obtain ⟨cause, same, a, b, atA, atB, past⟩ :=
          (joinDims_eq_fault rank (Shape.axis?_lt named)).mp joined
        exact ⟨cause, dtype, rank, position, a, b, named, same, atA, atB, past⟩
      · simp [pure, Except.pure] at impossible
  · rintro ⟨cause, dtype, rank, position, a, b, named, same, atA, atB, past⟩
    refine ⟨(), dtype, position, named, ?_⟩
    rw [if_neg (not_not.mpr rank), Answer.bind_eq_error]
    exact .inl ((joinDims_eq_fault rank (Shape.axis?_lt named)).mpr
      ⟨cause, same, a, b, atA, atB, past⟩)

end Concat

namespace Operator

/-- Parameters that arithmetic is done with are machine integers. -/
def Held : Operator → Prop
  | split _ count => count < 2 ^ 63
  | selfAttention p => Bounded.Fits p.headNum
  | _ => True

/-- The inputs of an operator whose rule faults, and how. Attention adds up the rows of its batch in
exact arithmetic, so nothing is said here of batches that are too long to be `Packed`: their sums
may leave the 64-bit range. -/
inductive Breaks : Operator → List TensorDesc → Fault → Prop where
  /-- Two dimensions that are added are more than the range holds. -/
  | joined {axis : Int} {x y : TensorDesc} (formats : x.format = .rowMajor ∧ y.format = .rowMajor)
      (dtype : y.dtype = x.dtype) (rank : x.shape.rank = y.shape.rank) {position : Nat} {a b : Int}
      (named : x.shape.axis? axis = some position)
      (before : x.shape.dims.take position = y.shape.dims.take position)
      (atX : x.shape.dims[position]? = some a) (atY : y.shape.dims[position]? = some b)
      (past : ¬ Bounded.Fits (a + b)) : Breaks (concat axis) [x, y] .overflow
  /-- More equal parts are asked for than a list holds. -/
  | parts {axis : Int} {count : Nat} {x : TensorDesc} (format : x.format = .rowMajor)
      (many : Bounded.capacity ≤ count) {position : Nat} {dim : Int}
      (named : x.shape.axis? axis = some position) (found : x.shape.dims[position]? = some dim)
      (divides : (count : Int) ∣ dim) : Breaks (split axis count) [x] .capacity

theorem formatObjection?_ne_fault {op : Operator} {index : Nat} {inputs : List TensorDesc}
    {f : Fault} : op.formatObjection? index inputs ≠ some (.fault f) := by
  induction inputs generalizing index with
  | nil => simp [formatObjection?]
  | cons x rest ih =>
    rw [formatObjection?]
    split
    · exact ih
    · simp

/-- An operator faults where it accepts its inputs and the rule of its family faults. -/
theorem infer_eq_fault {op : Operator} {inputs : List TensorDesc} {f : Fault} :
    op.infer inputs = .error (.fault f) ↔ inputs.length = op.inputCount ∧
      (∀ (i : Nat) (x : TensorDesc), inputs[i]? = some x → x.format ∈ op.acceptedFormats i) ∧
      op.inferFamily inputs = .error (.fault f) := by
  rw [← formats_accepted_iff, infer]
  split
  · rename_i count
    simp [count]
  · rename_i count
    cases refused : op.formatObjection? 0 inputs with
    | none => simp [not_not.mp count]
    | some refusal =>
      have other : refusal ≠ .fault f := fun same =>
        formatObjection?_ne_fault (refused.trans (congrArg some same))
      simp [other]

/-- Rules fault in two ways only, and not by an index or a division. -/
theorem infer_breaks {op : Operator} {inputs : List TensorDesc} (held : op.Held)
    (words : ∀ x ∈ inputs, ∀ dim ∈ x.shape.dims, Bounded.Fits dim) {f : Fault} :
    op.infer inputs = .error (.fault f) ↔ op.Breaks inputs f := by
  rw [infer_eq_fault]
  constructor
  · rintro ⟨count, formats, failed⟩
    cases op with
    | elementwise kind => exact absurd failed (Elementwise.faultless count f)
    | layerNorm p =>
      obtain ⟨x, gain, bias, rfl⟩ := List.length_eq_three.mp count
      exact absurd failed (p.faultless x gain bias f)
    | rmsNorm epsilon =>
      obtain ⟨x, gain, rfl⟩ := List.length_eq_two.mp count
      exact absurd failed (inferRmsNorm_faultless x gain f)
    | matMul p => exact absurd failed (p.faultless count f)
    | activation kind =>
      obtain ⟨x, rfl⟩ := List.length_eq_one_iff.mp count
      exact absurd failed (kind.faultless (words x List.mem_cons_self) f)
    | softmax axis =>
      obtain ⟨x, rfl⟩ := List.length_eq_one_iff.mp count
      exact absurd failed (inferSoftmax_faultless axis x f)
    | asStrided p =>
      obtain ⟨x, rfl⟩ := List.length_eq_one_iff.mp count
      exact absurd failed (p.faultless x f)
    | transpose perm =>
      obtain ⟨x, rfl⟩ := List.length_eq_one_iff.mp count
      exact absurd failed (Transposition.faultless perm x f)
    | relayout target =>
      obtain ⟨x, rfl⟩ := List.length_eq_one_iff.mp count
      exact absurd failed (inferRelayout_faultless target x f)
    | split axis parts =>
      obtain ⟨x, rfl⟩ := List.length_eq_one_iff.mp count
      obtain ⟨rfl, many, position, dim, named, found, divides⟩ :=
        (inferSplit_eq_fault held (words x List.mem_cons_self)).mp failed
      exact .parts (List.mem_singleton.mp (formats 0 x rfl)) many named found divides
    | concat axis =>
      obtain ⟨x, y, rfl⟩ := List.length_eq_two.mp count
      obtain ⟨rfl, dtype, rank, position, a, b, named, before, atX, atY, past⟩ :=
        Concat.infer_eq_fault.mp failed
      exact .joined ⟨List.mem_singleton.mp (formats 0 x rfl),
        List.mem_singleton.mp (formats 1 y rfl)⟩ dtype rank named before atX atY past
    | gather axis =>
      obtain ⟨table, indices, rfl⟩ := List.length_eq_two.mp count
      exact absurd failed (inferGather_faultless axis table indices f)
    | rope coeff =>
      obtain ⟨q, k, cos, sin, rfl⟩ : ∃ q k cos sin, inputs = [q, k, cos, sin] := by
        match inputs, count with
        | [q, k, cos, sin], _ => exact ⟨q, k, cos, sin, rfl⟩
      exact absurd failed (Rope.faultless coeff words f)
    | selfAttention p =>
      obtain ⟨q, k, v, rfl⟩ := List.length_eq_three.mp count
      exact absurd failed (SelfAttention.faultless held (words q List.mem_cons_self) f)
  · intro breaks
    cases breaks with
    | joined formats dtype rank named before atX atY past =>
      refine ⟨rfl, (formats_of_plain fun _ => rfl).mpr (by simp [formats]), ?_⟩
      exact Concat.infer_eq_fault.mpr
        ⟨rfl, dtype, rank, _, _, _, named, before, atX, atY, past⟩
    | parts format many named found divides =>
      refine ⟨rfl, (formats_of_plain fun _ => rfl).mpr (by simp [format]), ?_⟩
      exact (inferSplit_eq_fault held (words _ List.mem_cons_self)).mpr
        ⟨rfl, many, _, _, named, found, divides⟩

end Operator

end OperatorGraph
