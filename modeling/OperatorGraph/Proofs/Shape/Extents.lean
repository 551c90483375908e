import OperatorGraph.Proofs.Shape.Coordinates

set_option autoImplicit false

namespace OperatorGraph

/-- The dimensions in natural numbers. -/
def Shape.extents (s : Shape) : List Nat :=
  s.dims.map Int.toNat

@[simp] theorem Shape.length_extents (s : Shape) : s.extents.length = s.rank :=
  List.length_map ..

theorem Shape.prod_extents_pair {s : Shape} {rows columns : Nat}
    (dims : s.dims = [(rows : Int), columns]) : s.extents.prod = rows * columns := by
  rw [extents, dims]
  exact List.prod_pair

namespace Bounded

theorem cast_prod_toNat {dims : List Int} (known : ∀ dim ∈ dims, 0 ≤ dim) :
    ((dims.map Int.toNat).prod : Int) = dims.prod := by
  induction dims with
  | nil => rfl
  | cons dim rest ih =>
    have first := known dim (by simp)
    rw [List.map_cons, List.prod_cons, List.prod_cons, Nat.cast_mul, Int.toNat_of_nonneg first,
      ih fun other member => known other (List.mem_cons_of_mem dim member)]

end Bounded

namespace Shape

variable {s : Shape} (known : s.Resolved) (axis : Nat)
include known

theorem cast_prod_take : ((s.extents.take axis).prod : Int) = (s.dims.take axis).prod := by
  rw [← Bounded.cast_prod_toNat fun dim member => known dim (List.mem_of_mem_take member),
    List.map_take]
  rfl

theorem cast_prod_drop : ((s.extents.drop axis).prod : Int) = (s.dims.drop axis).prod := by
  rw [← Bounded.cast_prod_toNat fun dim member => known dim (List.mem_of_mem_drop member),
    List.map_drop]
  rfl

end Shape

namespace Bounded

theorem foldl_satMul_zero (dims : List Int) : dims.foldl satMul 0 = 0 := by
  induction dims with
  | nil => rfl
  | cons dim rest ih =>
    have zero : satMul 0 dim = 0 := by
      rw [satMul, Int.zero_mul]
      decide
    rw [List.foldl_cons, zero, ih]

/-- A product with a zero in it is zero, even where it has saturated before. -/
theorem satProduct_of_zero {dims : List Int} (zero : 0 ∈ dims) : satProduct dims = 0 := by
  obtain ⟨first, later, rfl⟩ := List.append_of_mem zero
  have here (start : Int) : satMul start 0 = 0 := by
    rw [satMul, Int.mul_zero]
    decide
  rw [satProduct, List.foldl_append, List.foldl_cons, here, foldl_satMul_zero]

theorem product?_of_positive {dims : List Int} (positive : ∀ dim ∈ dims, 1 ≤ dim)
    (most : dims.prod ≤ greatest) : product? dims = some dims.prod := by
  refine product?_eq_some_iff.mpr ⟨fun n => ?_, rfl⟩
  have before : 1 ≤ (dims.take n).prod :=
    List.one_le_prod fun dim member => positive dim (List.mem_of_mem_take member)
  have behind : 1 ≤ (dims.drop n).prod :=
    List.one_le_prod fun dim member => positive dim (List.mem_of_mem_drop member)
  have part : (dims.take n).prod ≤ (dims.take n).prod * (dims.drop n).prod :=
    le_mul_of_one_le_right (by omega) behind
  rw [List.prod_take_mul_prod_drop] at part
  exact fits_of_nonneg (by omega) (by omega)

theorem satProduct_eq_prod {dims : List Int} (known : ∀ dim ∈ dims, 0 ≤ dim)
    (most : dims.prod ≤ greatest) : satProduct dims = dims.prod := by
  by_cases zero : (0 : Int) ∈ dims
  · rw [satProduct_of_zero zero, List.prod_eq_zero zero]
  · refine satProduct_of_checked (product?_of_positive (fun dim member => ?_) most)
    have nonneg := known dim member
    have different : dim ≠ 0 := fun same => zero (same ▸ member)
    omega

end Bounded

namespace TensorDesc

variable {d : TensorDesc} (resolved : d.shape.Resolved) (few : d.shape.extents.prod < 2 ^ 32)
include resolved few

theorem elementCount_eq : d.shape.elementCount = (d.shape.extents.prod : Int) := by
  have count := Bounded.cast_prod_toNat resolved
  unfold Shape.extents at few ⊢
  rw [count, Shape.elementCount]
  refine Bounded.satProduct_eq_prod resolved ?_
  unfold Bounded.greatest
  omega

theorem byteSize_eq : d.byteSize?.getD 0 = d.shape.extents.prod * d.dtype.size := by
  have count := elementCount_eq resolved few
  have bytes (size : Nat) (sized : d.byteSize? = some size) :
      size = d.shape.extents.prod * d.dtype.size := by
    rw [(byteSize?_eq_some sized).2.1, count, Int.toNat_natCast]
  cases sized : d.byteSize? with
  | some size => exact bytes size sized
  | none =>
    -- What has elements has a size, so that this tensor has none.
    rcases Nat.eq_zero_or_pos d.shape.extents.prod with zero | some
    · rw [zero, Nat.zero_mul]
      rfl
    · exfalso
      have exact := Bounded.cast_prod_toNat resolved
      unfold Shape.extents at some few
      have positive := Bounded.one_le_of_prod_ne_zero resolved (by omega)
      have product := Bounded.product?_of_positive positive (by unfold Bounded.greatest; omega)
      have width : d.dtype.size ≤ 8 := by cases d.dtype <;> decide
      have small : d.shape.dims.prod.toNat * d.dtype.size < 0x1_0000_0000_0000_0000 := by
        have most : d.shape.dims.prod.toNat * d.dtype.size ≤ 2 ^ 32 * 8 :=
          Nat.mul_le_mul (by omega) width
        omega
      rw [byteSize?, if_pos resolved, Shape.elementCount?, product, Option.bind_some] at sized
      simp [small] at sized

end TensorDesc

/-- Dimensions that are at most those of a shape with elements, but fewer than there are words. -/
structure Shape.Part (small large : List Int) : Prop where
  le : List.Forall₂ (fun a b => 0 ≤ a ∧ a ≤ b) small large
  positive : ∀ dim ∈ large, 1 ≤ dim
  few : large.prod < 2 ^ 32

namespace Shape.Part

theorem self {dims : List Int} (positive : ∀ dim ∈ dims, 1 ≤ dim) (few : dims.prod < 2 ^ 32) :
    Part dims dims :=
  ⟨Bounded.forall₂_self fun dim member => by have one := positive dim member; omega, positive, few⟩

theorem tail {a b : Int} {small large : List Int} (part : Part (a :: small) (b :: large)) :
    Part small large := by
  have few := part.few
  have first := part.positive b (by simp)
  have others := fun dim member => part.positive dim (List.mem_cons_of_mem b member)
  have later := List.one_le_prod others
  rw [List.prod_cons] at few
  have grows : large.prod ≤ b * large.prod := le_mul_of_one_le_left (by omega) first
  exact ⟨(List.forall₂_cons.mp part.le).2, others, by omega⟩

variable {small large : List Int} (part : Part small large)
include part

theorem known : ∀ dim ∈ small, 0 ≤ dim := by
  intro dim member
  obtain ⟨i, found⟩ := List.getElem?_of_mem member
  have inside := (List.getElem?_eq_some_iff.mp found).1
  rw [part.le.length_eq] at inside
  exact (Answer.getElem?_of_forall₂ part.le found (List.getElem?_eq_getElem inside)).1

theorem product? : Bounded.product? small = some small.prod := by
  have few := part.few
  exact Bounded.product?_of_le part.le
    (Bounded.product?_of_positive part.positive (by unfold Bounded.greatest; omega))

theorem prod_le : small.prod ≤ large.prod :=
  (Bounded.prod_le_of_parts part.le).2

theorem prod_small : 0 ≤ small.prod ∧ small.prod < 2 ^ 32 :=
  ⟨List.prod_nonneg part.known, Int.lt_of_le_of_lt part.prod_le part.few⟩

theorem volume_eq : volume small = small.prod := by
  obtain ⟨le, positive, few⟩ := part
  induction le with
  | nil => rfl
  | @cons a b small large here le ih =>
    have whole : Part (a :: small) (b :: large) := ⟨.cons here le, positive, few⟩
    have bounds := whole.prod_small
    show Bounded.satMul (volume small) a = (a :: small).prod
    rw [ih whole.tail.positive whole.tail.few, Bounded.satMul, mul_comm, ← List.prod_cons]
    exact Bounded.clamp_of_fits
      (Bounded.fits_of_nonneg bounds.1 (by unfold Bounded.greatest; omega))

theorem map_strides : (strides small).map Int.toNat = RowMajor.strides (small.map Int.toNat) := by
  obtain ⟨le, positive, few⟩ := part
  induction le with
  | nil => rfl
  | @cons a b small large here le ih =>
    have whole : Part (a :: small) (b :: large) := ⟨.cons here le, positive, few⟩
    have count := Bounded.cast_prod_toNat whole.tail.known
    rw [strides, List.map_cons, List.map_cons, RowMajor.strides, whole.tail.volume_eq,
      ih whole.tail.positive whole.tail.few, ← count, Int.toNat_natCast]

theorem dim_small : ∀ dim ∈ small, 0 ≤ dim ∧ dim < 2 ^ 32 := by
  intro dim member
  obtain ⟨i, found⟩ := List.getElem?_of_mem member
  have inside := (List.getElem?_eq_some_iff.mp found).1
  rw [part.le.length_eq] at inside
  have atLarge := List.getElem?_eq_getElem inside
  have here := Answer.getElem?_of_forall₂ part.le found atLarge
  have block := mul_prod_drop_le part.positive atLarge
  have behind : 1 ≤ (large.drop (i + 1)).prod :=
    List.one_le_prod fun other inDrop => part.positive other (List.mem_of_mem_drop inDrop)
  have first := part.positive _ (List.mem_of_getElem? atLarge)
  have most : large[i] ≤ large[i] * (large.drop (i + 1)).prod :=
    le_mul_of_one_le_right (by omega) behind
  have few := part.few
  omega

theorem stride_small : ∀ stride ∈ strides small, 0 ≤ stride ∧ stride < 2 ^ 32 := by
  obtain ⟨le, positive, few⟩ := part
  induction le with
  | nil => simp [strides]
  | @cons a b small large here le ih =>
    have whole : Part (a :: small) (b :: large) := ⟨.cons here le, positive, few⟩
    rw [strides, List.forall_mem_cons, whole.tail.volume_eq]
    exact ⟨whole.tail.prod_small, ih whole.tail.positive whole.tail.few⟩

end Shape.Part

end OperatorGraph
