import Mathlib.Data.List.Induction
import OperatorGraph.Proofs.Shape.Extents
import OperatorGraph.Shape.View

set_option autoImplicit false

namespace OperatorGraph

namespace Bounded

@[simp] theorem satProduct_concat (first : List Int) (last : Int) :
    satProduct (first ++ [last]) = satMul (satProduct first) last := by
  rw [satProduct, List.foldl_append]
  rfl

theorem fits_satProduct (dims : List Int) : Fits (satProduct dims) := by
  rcases List.eq_nil_or_concat dims with rfl | ⟨first, last, rfl⟩
  · decide
  · rw [List.concat_eq_append, satProduct_concat]
    exact fits_clamp _

theorem satMul_nonneg {a b : Int} (first : 0 ≤ a) (second : 0 ≤ b) : 0 ≤ satMul a b := by
  have product := Int.mul_nonneg first second
  unfold satMul clamp least greatest
  omega

/-- Positive factors saturate exactly where their product is past the range. -/
theorem satProduct_of_positive {dims : List Int} (positive : ∀ dim ∈ dims, 1 ≤ dim) :
    satProduct dims = min dims.prod greatest := by
  induction dims using List.reverseRecOn with
  | nil => decide
  | append_singleton first last ih =>
    simp only [List.forall_mem_append, List.forall_mem_singleton] at positive
    have before := List.one_le_prod positive.1
    have grows : first.prod ≤ first.prod * last := le_mul_of_one_le_right (by omega) positive.2
    rw [satProduct_concat, ih positive.1, List.prod_append, List.prod_singleton]
    rcases Int.le_total first.prod greatest with fits | past
    · rw [min_eq_left fits, satMul, clamp, max_eq_right]
      unfold least greatest
      omega
    · have room : greatest ≤ greatest * last := le_mul_of_one_le_right (by decide) positive.2
      rw [min_eq_right past, min_eq_right (past.trans grows), satMul, clamp, min_eq_right room]
      decide

end Bounded

/-- Exactly one dimension is left open, and the others are positive. -/
structure Shape.OneOpen (target : Shape) : Prop where
  one : target.dims.count (-1) = 1
  positive : ∀ dim ∈ target.dims.filter (· ≠ -1), 1 ≤ dim

namespace View

/-- A view makes a known shape with the same exact product. -/
def Keeps (v : View) (s : Shape) : Prop :=
  (v.apply s).Resolved ∧ (v.apply s).dims.prod = s.dims.prod

theorem flattenLeading_concat (first : List Int) (last : Int) :
    flattenLeading.apply ⟨first ++ [last]⟩ = ⟨[Bounded.satProduct first, last]⟩ := by
  simp [flattenLeading]

theorem splitLast_concat (first : List Int) (last : Int) {heads : Int} (positive : 0 < heads) :
    (splitLast heads).apply ⟨first ++ [last]⟩ = ⟨first ++ [heads, last.tdiv heads]⟩ := by
  simp [splitLast, positive]

theorem splitLast_of_nonpos {heads : Int} (nonpos : heads ≤ 0) (s : Shape) :
    (splitLast heads).apply s = s := by
  cases last : s.dims.getLast? <;> simp [splitLast, last, Int.not_lt.mpr nonpos]

theorem mergeLast_append_pair (first : List Int) (a b : Int) :
    mergeLast (first ++ [a, b]) = first ++ [Bounded.satMul a b] := by
  induction first with
  | nil => rfl
  | cons dim rest ih =>
    obtain ⟨c, d, tail, two⟩ : ∃ c d tail, rest ++ [a, b] = c :: d :: tail := by
      rcases rest with _ | ⟨c, _ | ⟨d, tail⟩⟩ <;> exact ⟨_, _, _, rfl⟩
    rw [List.cons_append, two, mergeLast, ← two, ih, List.cons_append]

theorem mergeLastTwo_append_pair (first : List Int) (a b : Int) :
    mergeLastTwo.apply ⟨first ++ [a, b]⟩ = ⟨first ++ [Bounded.satMul a b]⟩ :=
  congrArg Shape.mk (mergeLast_append_pair first a b)

theorem flattenLeading_keepsCount (s : Shape) : flattenLeading.KeepsCount s := by
  obtain ⟨dims⟩ := s
  rcases List.eq_nil_or_concat dims with rfl | ⟨first, last, rfl⟩
  · rfl
  · rw [List.concat_eq_append, KeepsCount, flattenLeading_concat]
    have fits := Bounded.fits_satProduct first
    show Bounded.satMul (Bounded.satMul 1 (Bounded.satProduct first)) last =
      Bounded.satProduct (first ++ [last])
    rw [Bounded.satProduct_concat, Bounded.satMul.eq_1 1, Int.one_mul, Bounded.clamp_of_fits fits]

theorem prod_reshape (s : Shape) {target : Shape} (oneOpen : target.OneOpen) :
    ((reshape target).apply s).dims.prod =
      inferredDim s target * (target.dims.filter (· ≠ -1)).prod := by
  have single : (target.dims.filter (· = -1)).length = 1 := by
    rw [← oneOpen.one, List.count_eq_length_filter]
    rfl
  show (target.dims.map fun dim => if dim = -1 then inferredDim s target else dim).prod = _
  rw [List.prod_map_ite, List.map_const', List.prod_replicate, single, pow_one, List.map_id']

section

variable {s : Shape} (known : s.Resolved)
include known

theorem unsqueeze_keeps (axis : Nat) : (unsqueeze axis).Keeps s := by
  have inside : min axis s.rank ≤ s.dims.length := Nat.min_le_right ..
  constructor
  · intro dim member
    rcases (List.mem_insertIdx inside).mp member with rfl | member
    · decide
    · exact known dim member
  · exact (List.CommMonoid.prod_insertIdx inside).trans (Int.one_mul _)

theorem squeeze_keeps (axis : Nat) : (squeeze axis).Keeps s := by
  unfold Keeps squeeze
  dsimp only
  split
  case isFalse => exact ⟨known, rfl⟩
  case isTrue found =>
    obtain ⟨inside, one⟩ := List.getElem?_eq_some_iff.mp found
    have product := List.CommMonoid.mul_prod_eraseIdx inside
    rw [one, Int.one_mul] at product
    exact ⟨fun dim member => known dim (List.mem_of_mem_eraseIdx member), product⟩

/-- Splitting the last dimension keeps it where the number of heads divides it, and nothing is lost
where there is nothing. -/
theorem splitLast_keeps_iff (heads : Int) : (splitLast heads).Keeps s ↔
    heads ≤ 0 ∨ s = Shape.scalar ∨ (∃ last, s.dims.getLast? = some last ∧ heads ∣ last) ∨
      s.dims.dropLast.prod = 0 := by
  rcases lt_or_ge 0 heads with positive | nonpos
  case inr => simp only [Keeps, splitLast_of_nonpos nonpos, nonpos, true_or, known, and_self]
  obtain ⟨dims⟩ := s
  rcases List.eq_nil_or_concat dims with rfl | ⟨first, last, rfl⟩
  · exact ⟨fun _ => .inr (.inl rfl), fun _ => ⟨known, rfl⟩⟩
  rw [List.concat_eq_append] at known ⊢
  have leading : ∀ dim ∈ first, 0 ≤ dim := fun dim member =>
    known dim (List.mem_append_left _ member)
  have nonneg : 0 ≤ last := known last (by simp)
  have quotient : 0 ≤ last.tdiv heads := Int.tdiv_nonneg nonneg (by omega)
  have resolved : (⟨first ++ [heads, last.tdiv heads]⟩ : Shape).Resolved := by
    simp only [Shape.Resolved, List.forall_mem_append, List.forall_mem_cons]
    exact ⟨leading, by omega, quotient, by simp⟩
  have scalar : (⟨first ++ [last]⟩ : Shape) ≠ Shape.scalar := by simp [Shape.scalar]
  rw [Keeps, splitLast_concat first last positive, and_iff_right resolved]
  simp only [List.prod_append, List.prod_pair, List.prod_singleton, scalar, false_or,
    Int.not_le.mpr positive, List.getLast?_concat, Option.some.injEq, exists_eq_left',
    List.dropLast_concat, mul_eq_mul_left_iff]
  exact or_congr_left ⟨fun whole => ⟨_, whole.symm⟩, Int.mul_tdiv_cancel'⟩

end

section

variable {s : Shape} (known : s.Resolved) (fits : s.elementCount?.isSome)
include known fits

theorem flattenLeading_keeps : flattenLeading.Keeps s := by
  obtain ⟨count, exact⟩ := Option.isSome_iff_exists.mp fits
  obtain ⟨dims⟩ := s
  rcases List.eq_nil_or_concat dims with rfl | ⟨first, last, rfl⟩
  · exact ⟨known, rfl⟩
  rw [List.concat_eq_append] at known exact ⊢
  have leading := Bounded.satProduct_of_checked (Bounded.product?_split exact).1
  rw [Keeps, flattenLeading_concat, leading]
  simp only [Shape.Resolved, List.forall_mem_append, List.forall_mem_singleton] at known
  refine ⟨?_, by simp⟩
  simp only [Shape.Resolved, List.forall_mem_cons]
  exact ⟨List.prod_nonneg known.1, known.2, by simp⟩

theorem mergeLastTwo_keeps : mergeLastTwo.Keeps s := by
  obtain ⟨count, exact⟩ := Option.isSome_iff_exists.mp fits
  obtain ⟨dims⟩ := s
  rcases List.eq_nil_or_concat dims with rfl | ⟨before, b, rfl⟩
  · exact ⟨known, rfl⟩
  rcases List.eq_nil_or_concat before with rfl | ⟨first, a, rfl⟩
  · exact ⟨known, rfl⟩
  have split : (first.concat a).concat b = first ++ [a, b] := by simp
  rw [split] at known exact ⊢
  have leading : ∀ dim ∈ first, 0 ≤ dim := fun dim member =>
    known dim (List.mem_append_left _ member)
  have second : ∀ dim ∈ [a, b], 0 ≤ dim := fun dim member =>
    known dim (List.mem_append_right _ member)
  have nonneg : 0 ≤ a ∧ 0 ≤ b := by simpa using second
  rw [Keeps, mergeLastTwo_append_pair]
  constructor
  · simp only [Shape.Resolved, List.forall_mem_append, List.forall_mem_singleton]
    exact ⟨leading, Bounded.satMul_nonneg nonneg.1 nonneg.2⟩
  · rw [List.prod_append, List.prod_append, List.prod_singleton, List.prod_pair]
    -- Either nothing is in front, or the two dimensions have their product in the range.
    by_cases zero : first.prod = 0
    · rw [zero, Int.zero_mul, Int.zero_mul]
    · have pair := (Bounded.product?_split exact).2 (Bounded.one_le_of_prod_ne_zero leading zero)
        second
      rw [List.prod_pair] at pair
      have inRange := Bounded.fits_of_product? pair
      rw [Bounded.satMul, Bounded.clamp_of_fits inRange]

theorem inferredDim_eq {target : Shape} (oneOpen : target.OneOpen) :
    inferredDim s target =
      s.dims.prod / min (target.dims.filter (· ≠ -1)).prod Bounded.greatest := by
  obtain ⟨count, exact⟩ := Option.isSome_iff_exists.mp fits
  have value := Bounded.product?_eq_prod exact
  have one := List.one_le_prod oneOpen.positive
  have divisor : min (target.dims.filter (· ≠ -1)).prod Bounded.greatest ≠ 0 := by
    unfold Bounded.greatest
    omega
  rw [inferredDim, Bounded.satProduct_of_positive oneOpen.positive]
  simp only [divisor, if_false]
  rw [Shape.elementCount, Bounded.satProduct_of_checked exact, value,
    Int.tdiv_eq_ediv_of_nonneg (List.prod_nonneg known)]

/-- A reshape that infers one dimension keeps the count exactly if the others divide it. -/
theorem reshape_keeps_iff {target : Shape} (oneOpen : target.OneOpen) :
    (reshape target).Keeps s ↔ (target.dims.filter (· ≠ -1)).prod ∣ s.dims.prod := by
  obtain ⟨count, exact⟩ := Option.isSome_iff_exists.mp fits
  have nonneg : 0 ≤ s.dims.prod := List.prod_nonneg known
  have value := Bounded.product?_eq_prod exact
  have most : s.dims.prod ≤ Bounded.greatest := value ▸ (Bounded.fits_of_product? exact).2
  have one := List.one_le_prod oneOpen.positive
  have inferred := inferredDim_eq known fits oneOpen
  have resolved : ((reshape target).apply s).Resolved := by
    have quotient : 0 ≤ inferredDim s target := by
      rw [inferred]
      exact Int.ediv_nonneg nonneg (by unfold Bounded.greatest; omega)
    refine List.forall_mem_map.mpr fun dim member => ?_
    split
    case isTrue => exact quotient
    case isFalse settled =>
      have positive := oneOpen.positive dim (List.mem_filter.mpr ⟨member, by simpa using settled⟩)
      omega
  rw [Keeps, and_iff_right resolved, prod_reshape s oneOpen, inferred]
  rcases le_or_gt (target.dims.filter (· ≠ -1)).prod Bounded.greatest with inRange | past
  · rw [min_eq_left inRange]
    exact ⟨fun whole => ⟨_, (Int.mul_comm .. ▸ whole).symm⟩, Int.ediv_mul_cancel⟩
  -- Past the range, the others divide no count but zero.
  · rw [min_eq_right past.le]
    constructor
    · exact fun whole => ⟨_, (Int.mul_comm .. ▸ whole).symm⟩
    · intro divides
      rw [Int.eq_zero_of_dvd_of_nonneg_of_lt nonneg (most.trans_lt past) divides, Int.zero_ediv,
        Int.zero_mul]

end

theorem squeeze_unsqueeze {s : Shape} {axis : Nat} (inside : axis ≤ s.rank) :
    (squeeze axis).apply ((unsqueeze axis).apply s) = s := by
  have here : (s.dims.insertIdx axis 1)[axis]? = some 1 := by
    rw [List.getElem?_insertIdx_self, if_pos (by exact inside)]
  simp only [unsqueeze, Nat.min_eq_left inside, squeeze, here, if_true,
    List.eraseIdx_insertIdx_self]

theorem mergeLastTwo_splitLast {s : Shape} {heads last : Int} (found : s.dims.getLast? = some last)
    (fits : Bounded.Fits last) (positive : 0 < heads) (divides : heads ∣ last) :
    mergeLastTwo.apply ((splitLast heads).apply s) = s := by
  obtain ⟨first, same⟩ := List.getLast?_eq_some_iff.mp found
  obtain rfl : s = ⟨first ++ [last]⟩ := congrArg Shape.mk same
  rw [splitLast_concat first last positive, mergeLastTwo_append_pair, Bounded.satMul,
    Int.mul_tdiv_cancel' divides, Bounded.clamp_of_fits fits]

/-- Joining the leading dimensions keeps even a saturated count. Of a known shape with an element
count, the views that only join dimensions or add and drop ones make a known shape with the same
exact product, and those with a number of heads or a target do so exactly where these fit. What was
put in or split is undone by the view that drops or joins. -/
theorem counts_kept (s : Shape) :
    flattenLeading.KeepsCount s ∧
    (s.Resolved → s.elementCount?.isSome →
      flattenLeading.Keeps s ∧ mergeLastTwo.Keeps s ∧
      (∀ axis, (unsqueeze axis).Keeps s ∧ (squeeze axis).Keeps s) ∧
      (∀ heads, (splitLast heads).Keeps s ↔
        heads ≤ 0 ∨ s = Shape.scalar ∨ (∃ last, s.dims.getLast? = some last ∧ heads ∣ last) ∨
          s.dims.dropLast.prod = 0) ∧
      ∀ target : Shape, target.OneOpen → ((reshape target).Keeps s ↔
        (target.dims.filter (· ≠ -1)).prod ∣ s.dims.prod)) ∧
    (∀ axis ≤ s.rank, (squeeze axis).apply ((unsqueeze axis).apply s) = s) ∧
    ∀ heads last, s.dims.getLast? = some last → Bounded.Fits last → 0 < heads → heads ∣ last →
      mergeLastTwo.apply ((splitLast heads).apply s) = s :=
  ⟨flattenLeading_keepsCount s,
    fun known fits =>
      ⟨flattenLeading_keeps known fits, mergeLastTwo_keeps known fits,
        fun axis => ⟨unsqueeze_keeps known axis, squeeze_keeps known axis⟩,
        splitLast_keeps_iff known, fun _ oneOpen => reshape_keeps_iff known fits oneOpen⟩,
    fun _ inside => squeeze_unsqueeze inside,
    fun _ _ found fits positive divides => mergeLastTwo_splitLast found fits positive divides⟩

/-- An empty batch whose other dimensions have no product in the range. -/
def emptyBatch : Shape := ⟨[0, 2 ^ 40, 2 ^ 40]⟩

/-- Its last two dimensions are joined into a saturated one, and its last is split in three although
three does not divide it, both next to a zero. -/
theorem emptyBatch_kept :
    emptyBatch.Resolved ∧ emptyBatch.elementCount?.isSome ∧
    mergeLastTwo.apply emptyBatch = ⟨[0, Bounded.greatest]⟩ ∧ mergeLastTwo.Keeps emptyBatch ∧
    (splitLast 3).Keeps emptyBatch ∧ (reshape ⟨[-1, 3]⟩).Keeps emptyBatch ∧
    (squeeze 3).apply ((unsqueeze 3).apply emptyBatch) = emptyBatch ∧
    mergeLastTwo.apply ((splitLast 4).apply emptyBatch) = emptyBatch :=
  have ⟨_, views, added, joined⟩ := counts_kept emptyBatch
  have ⟨_, merged, _, split, reshaped⟩ := views (by decide) (by decide)
  ⟨by decide, by decide, by decide, merged, (split 3).mpr (.inr (.inr (.inr (by decide)))),
    (reshaped ⟨[-1, 3]⟩ ⟨by decide, by decide⟩).mpr (by decide), added 3 (by decide),
    joined 4 (2 ^ 40) (by decide) (by decide) (by decide) (by decide)⟩

end View

end OperatorGraph
