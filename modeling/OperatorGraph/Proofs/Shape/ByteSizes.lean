import Mathlib.Algebra.BigOperators.Group.List.Lemmas
import OperatorGraph.Proofs.Shape.Extents

set_option autoImplicit false

namespace OperatorGraph

namespace Shape

/-- No prefix of the element count leaves the signed range. -/
def Counted (s : Shape) : Prop :=
  ∀ n, (s.dims.take n).prod ≤ Bounded.greatest

theorem Counted.prod_le {s : Shape} (counted : s.Counted) : s.dims.prod ≤ Bounded.greatest := by
  have whole := counted s.rank
  rwa [rank, List.take_length] at whole

theorem counted_zero_cons (dims : List Int) : Counted ⟨0 :: dims⟩ := by
  rintro (_ | n)
  · rw [List.take_zero, List.prod_nil]
    decide
  · rw [List.take_succ_cons, List.prod_cons, zero_mul]
    decide

theorem Counted.prod_le_of_append {first later : List Int} (counted : Counted ⟨first ++ later⟩) :
    first.prod ≤ Bounded.greatest := by
  have before := counted first.length
  rwa [List.take_left] at before

theorem filter_of_zero_notMem {dims : List Int} (positive : 0 ∉ dims) :
    dims.filter (· ≠ 0) = dims := by
  rw [List.filter_eq_self]
  intro dim member
  exact decide_eq_true fun same => positive (same ▸ member)

variable {s : Shape} (resolved : s.Resolved)
include resolved

theorem cast_prod_extents : (s.extents.prod : Int) = s.dims.prod :=
  Bounded.cast_prod_toNat resolved

theorem counted_iff_fits : s.Counted ↔ ∀ n, Bounded.Fits (s.dims.take n).prod := by
  refine forall_congr' fun n => ⟨Bounded.fits_of_nonneg ?_, And.right⟩
  exact List.prod_nonneg fun dim member => resolved dim (List.mem_of_mem_take member)

theorem elementCount?_eq_some_iff {count : Int} :
    s.elementCount? = some count ↔ s.Counted ∧ count = s.extents.prod := by
  rw [counted_iff_fits resolved, cast_prod_extents resolved]
  exact Bounded.product?_eq_some_iff

/-- Dimensions are counted in any order if those that are not zero are. -/
theorem counted_of_filter (few : (s.dims.filter (· ≠ 0)).prod ≤ Bounded.greatest) : s.Counted := by
  intro n
  by_cases zero : (0 : Int) ∈ s.dims.take n
  · rw [List.prod_eq_zero zero]
    decide
  · have divides : (s.dims.take n).prod ∣ (s.dims.filter (· ≠ 0)).prod := by
      rw [← filter_of_zero_notMem zero]
      exact ((List.take_sublist n s.dims).filter _).prod_dvd_prod
    have positive : 0 < (s.dims.filter (· ≠ 0)).prod := by
      apply List.prod_pos
      intro dim member
      obtain ⟨inside, different⟩ := List.mem_filter.mp member
      exact lt_of_le_of_ne (resolved dim inside) (of_decide_eq_true different).symm
    exact (Int.le_of_dvd positive divides).trans few

theorem counted_iff_of_zero_notMem (positive : 0 ∉ s.dims) :
    s.Counted ↔ s.dims.prod ≤ Bounded.greatest := by
  refine ⟨Counted.prod_le, fun few => counted_of_filter resolved ?_⟩
  rwa [filter_of_zero_notMem positive]

/-- Every order of the dimensions is counted exactly if those that are not zero are. -/
theorem counted_perm_iff :
    (∀ t : Shape, t.dims.Perm s.dims → t.Counted) ↔
      (s.dims.filter (· ≠ 0)).prod ≤ Bounded.greatest := by
  constructor
  · intro all
    apply Counted.prod_le_of_append
    exact all _ (List.filter_append_perm _ s.dims)
  · intro few t reordered
    refine counted_of_filter (fun dim member => resolved dim (reordered.subset member)) ?_
    rwa [(reordered.filter _).prod_eq]

end Shape

namespace TensorDesc

/-- The number of bytes of a resolved tensor. -/
def exactBytes (d : TensorDesc) : Nat :=
  d.shape.extents.prod * d.dtype.size

variable {d : TensorDesc}

theorem byteSize?_eq_some_iff {bytes : Nat} : d.byteSize? = some bytes ↔
    d.shape.Resolved ∧ d.shape.Counted ∧ d.exactBytes < 2 ^ 64 ∧ bytes = d.exactBytes := by
  unfold byteSize?
  by_cases resolved : d.shape.Resolved
  · simp only [resolved, if_true, true_and, Option.bind_eq_some_iff,
      Shape.elementCount?_eq_some_iff resolved, Option.ite_none_right_eq_some, Option.some.injEq]
    constructor
    · rintro ⟨_, ⟨counted, rfl⟩, small, rfl⟩
      exact ⟨counted, small, rfl⟩
    · rintro ⟨counted, small, rfl⟩
      exact ⟨_, ⟨counted, rfl⟩, small, rfl⟩
  · simp [resolved]

theorem exactBytes_of_zero_mem (zero : 0 ∈ d.shape.dims) : d.exactBytes = 0 := by
  have none : d.shape.extents.prod = 0 := List.prod_eq_zero (List.mem_map_of_mem zero)
  rw [exactBytes, none, Nat.zero_mul]

theorem overflows_iff : d.overflows = true ↔
    d.shape.Resolved ∧ (¬ d.shape.Counted ∨ 2 ^ 64 ≤ d.exactBytes) := by
  have missing : d.overflows = true ↔ d.shape.Resolved ∧ d.byteSize? = none := by simp [overflows]
  rw [missing]
  refine and_congr_right fun resolved => ?_
  rw [Option.eq_none_iff_forall_ne_some, ← not_lt, ← not_and_or]
  constructor
  · rintro none ⟨counted, small⟩
    exact none _ (byteSize?_eq_some_iff.mpr ⟨resolved, counted, small, rfl⟩)
  · intro refused bytes answered
    obtain ⟨-, counted, small, -⟩ := byteSize?_eq_some_iff.mp answered
    exact refused ⟨counted, small⟩

/-- Without a zero only single bytes can be too many to count when their size is not too great. -/
theorem counted_iff_of_small (resolved : d.shape.Resolved) (positive : 0 ∉ d.shape.dims)
    (small : d.exactBytes < 2 ^ 64) :
    d.shape.Counted ↔ (d.dtype.size = 1 → d.exactBytes < 2 ^ 63) := by
  have exact := Shape.cast_prod_extents resolved
  have whole : d.shape.Counted ↔ d.shape.extents.prod < 2 ^ 63 := by
    rw [Shape.counted_iff_of_zero_notMem resolved positive, ← exact, Bounded.greatest]
    omega
  rw [whole]
  have sizes : d.dtype.size = 1 ∨ 2 ≤ d.dtype.size := by cases d.dtype <;> decide
  unfold exactBytes at small ⊢
  rcases sizes with single | more
  · simp [single]
  · have twice := Nat.mul_le_mul_left d.shape.extents.prod more
    exact iff_of_true (by omega) fun single => by omega

/-- Descriptors that differ in the order of their dimensions. -/
structure Reordered (d e : TensorDesc) : Prop where
  dtype : e.dtype = d.dtype
  dims : e.shape.dims.Perm d.shape.dims

namespace Reordered

variable {e : TensorDesc} (reordered : d.Reordered e)
include reordered

theorem resolved_iff : e.shape.Resolved ↔ d.shape.Resolved :=
  forall_congr' fun _ => imp_congr_left reordered.dims.mem_iff

theorem exactBytes_eq : e.exactBytes = d.exactBytes := by
  have extents : e.shape.extents.Perm d.shape.extents := reordered.dims.map Int.toNat
  rw [exactBytes, exactBytes, extents.prod_eq, reordered.dtype]

theorem byteSize?_eq (counted : d.shape.Resolved → (e.shape.Counted ↔ d.shape.Counted)) :
    e.byteSize? = d.byteSize? := by
  apply Option.ext
  intro bytes
  simp only [byteSize?_eq_some_iff, reordered.resolved_iff, reordered.exactBytes_eq]
  exact and_congr_right fun resolved => and_congr_left fun _ => counted resolved

theorem overflows_eq (answer : e.byteSize? = d.byteSize?) : e.overflows = d.overflows := by
  simp only [overflows, reordered.resolved_iff, answer]

end Reordered

/-- The order of the dimensions matters exactly where there is a zero among dimensions that are too
many to count without it. -/
theorem byteSize?_reordered_iff : (∀ e, d.Reordered e → e.byteSize? = d.byteSize?) ↔
    (d.shape.Resolved → 0 ∈ d.shape.dims →
      (d.shape.dims.filter (· ≠ 0)).prod ≤ Bounded.greatest) := by
  constructor
  · intro same resolved zero
    rw [← Shape.counted_perm_iff resolved]
    -- The zero is counted first, and then the size is known in every order.
    have first : d.byteSize? = some 0 := by
      have front : d.Reordered ⟨d.dtype, d.format, ⟨0 :: d.shape.dims.erase 0⟩⟩ :=
        ⟨rfl, (List.perm_cons_erase zero).symm⟩
      rw [← same _ front, byteSize?_eq_some_iff, front.resolved_iff, front.exactBytes_eq,
        exactBytes_of_zero_mem zero]
      exact ⟨resolved, Shape.counted_zero_cons _, by decide, rfl⟩
    intro t reordered
    have answered := (same ⟨d.dtype, d.format, t⟩ ⟨rfl, reordered⟩).trans first
    exact (byteSize?_eq_some_iff.mp answered).2.1
  · intro few e reordered
    apply reordered.byteSize?_eq
    intro resolved
    by_cases zero : (0 : Int) ∈ d.shape.dims
    · have all := (Shape.counted_perm_iff resolved).mpr (few resolved zero)
      exact iff_of_true (all e.shape reordered.dims) (all d.shape (.refl _))
    · rw [Shape.counted_iff_of_zero_notMem resolved zero,
        Shape.counted_iff_of_zero_notMem (reordered.resolved_iff.mpr resolved)
          (mt reordered.dims.mem_iff.mp zero), reordered.dims.prod_eq]

/-- A size is answered if it is exact, fits a word and every prefix of the count fits a signed word.
Without a zero and with more than one byte to an element the first two conditions imply the third;
no order of the dimensions matters as long as those that are not zero can be counted. -/
theorem byteSize_exact (d : TensorDesc) :
    (∀ bytes, d.byteSize? = some bytes ↔
      d.shape.Resolved ∧ d.shape.Counted ∧ d.exactBytes < 2 ^ 64 ∧ bytes = d.exactBytes) ∧
    (d.overflows = true ↔ d.shape.Resolved ∧ (¬ d.shape.Counted ∨ 2 ^ 64 ≤ d.exactBytes)) ∧
    (d.shape.Resolved → 0 ∉ d.shape.dims → d.exactBytes < 2 ^ 64 →
      (d.shape.Counted ↔ (d.dtype.size = 1 → d.exactBytes < 2 ^ 63))) ∧
    ((∀ e, d.Reordered e → e.byteSize? = d.byteSize? ∧ e.overflows = d.overflows) ↔
      (d.shape.Resolved → 0 ∈ d.shape.dims →
        (d.shape.dims.filter (· ≠ 0)).prod ≤ Bounded.greatest)) := by
  refine ⟨fun _ => byteSize?_eq_some_iff, overflows_iff, counted_iff_of_small, ?_⟩
  rw [← byteSize?_reordered_iff]
  refine forall_congr' fun e => imp_congr_right fun reordered => ?_
  exact and_iff_left_of_imp reordered.overflows_eq

/-- Two dimensions of bytes whose product is within a word, but not within a signed one. -/
theorem byteSize_of_wide_bytes :
    let d : TensorDesc := .rowMajor .u8 ⟨[0x4000_0000_0000_0000, 2]⟩
    d.shape.Resolved ∧ 0 ∉ d.shape.dims ∧ d.exactBytes = 2 ^ 63 ∧ d.byteSize? = none ∧
      ¬ d.shape.Counted := by
  intro d
  have counted := (byteSize_exact d).2.2.1 (by decide) (by decide) (by decide)
  exact ⟨by decide, by decide, by decide, by decide, by rw [counted]; decide⟩

/-- A zero that comes too late has no size, and one that comes in time has: the answer is missing
for an exact size that a word holds, and depends on the order of the dimensions. -/
theorem byteSize_of_late_zero :
    (¬ ∀ d : TensorDesc, d.byteSize? = none → ¬ d.shape.Resolved ∨ 2 ^ 64 ≤ d.exactBytes) ∧
    (¬ ∀ d : TensorDesc, d.overflows = true ↔ d.shape.Resolved ∧ 2 ^ 64 ≤ d.exactBytes) ∧
    ¬ ∀ d e : TensorDesc, d.Reordered e → e.byteSize? = d.byteSize? := by
  let late : TensorDesc := .rowMajor .f32 ⟨[0x4000_0000_0000_0000, 4, 0]⟩
  let early : TensorDesc := .rowMajor .f32 ⟨[0, 0x4000_0000_0000_0000, 4]⟩
  refine ⟨fun all => ?_, fun all => ?_, fun all => ?_⟩
  · exact absurd (all late (by decide)) (by decide)
  · exact absurd ((all late).mp (by decide)) (by decide)
  · exact absurd (all late early ⟨rfl, by decide⟩) (by decide)

end TensorDesc

end OperatorGraph
