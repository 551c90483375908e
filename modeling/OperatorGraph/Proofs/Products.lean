import Mathlib.Algebra.BigOperators.Ring.List
import Mathlib.Algebra.Order.BigOperators.GroupWithZero.List
import Mathlib.Algebra.Order.Ring.Int
import OperatorGraph.Proofs.Answers
import OperatorGraph.Tensor

set_option autoImplicit false

namespace OperatorGraph

namespace Bounded

theorem fits_of_nonneg {x : Int} (nonneg : 0 ≤ x) (le : x ≤ greatest) : Fits x := by
  unfold Fits least
  omega

theorem Fits.of_le {x y : Int} (fits : Fits y) (nonneg : 0 ≤ x) (le : x ≤ y) : Fits x :=
  fits_of_nonneg nonneg (le.trans fits.2)

@[simp] theorem rem_eq_ok {a b r : Int} :
    rem a b = .ok r ↔ b ≠ 0 ∧ Fits (a.tdiv b) ∧ a.tmod b = r := by
  unfold rem
  by_cases zero : b = 0
  · simp [zero]
  · by_cases fits : Fits (a.tdiv b) <;> simp [zero, fits]

@[simp] theorem div_eq_ok {a b q : Int} :
    div a b = .ok q ↔ b ≠ 0 ∧ Fits (a.tdiv b) ∧ a.tdiv b = q := by
  unfold div
  by_cases zero : b = 0
  · simp [zero]
  · by_cases fits : Fits (a.tdiv b) <;> simp [zero, fits]

@[simp] theorem add_eq_ok {a b c : Int} : add a b = .ok c ↔ Fits (a + b) ∧ a + b = c := by
  unfold add add?
  by_cases fits : Fits (a + b) <;> simp [fits]

@[simp] theorem mul_eq_ok {a b c : Int} : mul a b = .ok c ↔ Fits (a * b) ∧ a * b = c := by
  unfold mul mul?
  by_cases fits : Fits (a * b) <;> simp [fits]

@[simp] theorem reserve_eq_ok {count : Nat} {done : Unit} :
    reserve count = .ok done ↔ count < capacity := by
  unfold reserve
  by_cases fits : count < capacity <;> simp [fits]

theorem signed_of_lt_capacity {count : Nat} (small : count < capacity) : signed count = count := by
  unfold capacity at small
  exact Int.bmod_eq_of_le (by omega) (by omega)

theorem product_eq_ok {dims : List Int} {count : Int} (exact : product? dims = some count) :
    product dims = .ok count := by
  simp only [product, exact, Option.elim_some]

theorem product?_of_product {dims : List Int} {count : Int} (answered : product dims = .ok count) :
    product? dims = some count := by
  unfold product at answered
  cases exact : product? dims with
  | none => simp [exact] at answered
  | some value =>
    rw [exact, Option.elim_some] at answered
    rw [Except.ok.inj answered]

/-- A checked product is answered where every prefix of it is in the range. -/
theorem foldlM_mul?_eq_some_iff {dims : List Int} {start count : Int} (fits : Fits start) :
    dims.foldlM mul? start = some count ↔
      (∀ n, Fits (start * (dims.take n).prod)) ∧ count = start * dims.prod := by
  induction dims generalizing start with
  | nil => simp [fits, eq_comm]
  | cons dim rest ih =>
    have prefixes : (∀ n, Fits (start * ((dim :: rest).take n).prod)) ↔
        Fits (start * dim) ∧ ∀ n, Fits (start * dim * (rest.take n).prod) := by
      constructor
      · intro all
        have later (n : Nat) : Fits (start * dim * (rest.take n).prod) := by
          have next := all (n + 1)
          rwa [List.take_succ_cons, List.prod_cons, ← mul_assoc] at next
        have first := later 0
        rw [List.take_zero, List.prod_nil, mul_one] at first
        exact ⟨first, later⟩
      · rintro ⟨-, later⟩ (_ | n)
        · rwa [List.take_zero, List.prod_nil, mul_one]
        · rw [List.take_succ_cons, List.prod_cons, ← mul_assoc]
          exact later n
    rw [prefixes, List.prod_cons, ← mul_assoc]
    by_cases first : Fits (start * dim)
    · simp [mul?, first, ih first]
    · simp [mul?, first]

theorem product?_eq_some_iff {dims : List Int} {count : Int} : product? dims = some count ↔
    (∀ n, Fits (dims.take n).prod) ∧ count = dims.prod := by
  have counted : dims.foldlM mul? 1 = some count ↔ _ := foldlM_mul?_eq_some_iff (by decide)
  simp only [one_mul] at counted
  exact counted

theorem product?_eq_prod {dims : List Int} {count : Int} (exact : product? dims = some count) :
    count = dims.prod :=
  (product?_eq_some_iff.mp exact).2

theorem fits_of_product? {dims : List Int} {count : Int} (exact : product? dims = some count) :
    Fits count := by
  obtain ⟨fits, rfl⟩ := product?_eq_some_iff.mp exact
  have whole := fits dims.length
  rwa [List.take_length] at whole

theorem prod_le_of_parts {small large : List Int}
    (le : List.Forall₂ (fun a b => 0 ≤ a ∧ a ≤ b) small large) :
    0 ≤ small.prod ∧ small.prod ≤ large.prod := by
  induction le with
  | nil => simp
  | cons here _ ih =>
    rw [List.prod_cons, List.prod_cons]
    exact ⟨Int.mul_nonneg here.1 ih.1, Int.mul_le_mul here.2 ih.2 ih.1 (by omega)⟩

theorem product?_of_le {small large : List Int}
    (le : List.Forall₂ (fun a b => 0 ≤ a ∧ a ≤ b) small large) {count : Int}
    (exact : product? large = some count) : product? small = some small.prod := by
  obtain ⟨fits, -⟩ := product?_eq_some_iff.mp exact
  refine product?_eq_some_iff.mpr ⟨fun n => ?_, rfl⟩
  obtain ⟨nonneg, part⟩ := prod_le_of_parts (List.forall₂_take n le)
  exact (fits n).of_le nonneg part

theorem nonneg_of_parts {small large : List Int}
    (le : List.Forall₂ (fun a b => 0 ≤ a ∧ a ≤ b) small large) : ∀ dim ∈ large, 0 ≤ dim := by
  induction le with
  | nil => simp
  | cons here _ ih =>
    rw [List.forall_mem_cons]
    exact ⟨by omega, ih⟩

theorem forall₂_self {dims : List Int} (known : ∀ dim ∈ dims, 0 ≤ dim) :
    List.Forall₂ (fun a b => 0 ≤ a ∧ a ≤ b) dims dims := by
  rw [List.forall₂_same]
  exact fun dim member => ⟨known dim member, Int.le_refl dim⟩

theorem one_le_of_prod_ne_zero {dims : List Int} (known : ∀ dim ∈ dims, 0 ≤ dim)
    (nonzero : dims.prod ≠ 0) : ∀ dim ∈ dims, 1 ≤ dim := by
  intro dim member
  have different : dim ≠ 0 := fun zero => nonzero (List.prod_eq_zero (zero ▸ member))
  have nonneg := known dim member
  omega

/-- The dimensions before a position have a product, and so have those from it on unless one before
them is zero. -/
theorem product?_split {first later : List Int} {count : Int}
    (exact : product? (first ++ later) = some count) :
    product? first = some first.prod ∧ ((∀ dim ∈ first, 1 ≤ dim) → (∀ dim ∈ later, 0 ≤ dim) →
      product? later = some later.prod) := by
  obtain ⟨fits, -⟩ := product?_eq_some_iff.mp exact
  constructor
  · refine product?_eq_some_iff.mpr ⟨fun n => ?_, rfl⟩
    have before := fits (min n first.length)
    rwa [List.take_append_of_le_length (Nat.min_le_right ..), ← List.take_eq_take_min] at before
  · intro positive known
    refine product?_eq_some_iff.mpr ⟨fun n => ?_, rfl⟩
    have behind := fits (first.length + n)
    rw [List.take_length_add_append, List.prod_append] at behind
    have nonneg : 0 ≤ (later.take n).prod :=
      List.prod_nonneg fun dim member => known dim (List.mem_of_mem_take member)
    exact behind.of_le nonneg (le_mul_of_one_le_left nonneg (List.one_le_prod positive))

theorem foldl_satMul_of_checked {dims : List Int} {start count : Int}
    (exact : dims.foldlM mul? start = some count) : dims.foldl satMul start = count := by
  induction dims generalizing start with
  | nil => simpa using exact
  | cons dim rest ih =>
    simp only [List.foldlM_cons, Option.bind_eq_bind, Option.bind_eq_some_iff, mul?_eq_some]
      at exact
    obtain ⟨_, ⟨fits, rfl⟩, later⟩ := exact
    rw [List.foldl_cons, satMul, clamp_of_fits fits, ih later]

/-- A product that never leaves the range does not saturate. -/
theorem satProduct_of_checked {dims : List Int} {count : Int}
    (exact : product? dims = some count) : satProduct dims = count :=
  foldl_satMul_of_checked exact

end Bounded

namespace Shape

/-- Strides do not saturate where all dimensions are positive and their product fits. -/
theorem volume_eq_prod {dims : List Int} (positive : ∀ dim ∈ dims, 1 ≤ dim)
    (fits : dims.prod ≤ Bounded.greatest) : volume dims = dims.prod := by
  induction dims with
  | nil => rfl
  | cons dim rest ih =>
    have first := positive dim (by simp)
    have others := fun other member => positive other (List.mem_cons_of_mem dim member)
    have later := List.one_le_prod others
    rw [List.prod_cons] at fits ⊢
    have most : rest.prod ≤ dim * rest.prod := le_mul_of_one_le_left (by omega) first
    have tail := ih others (by omega)
    show Bounded.satMul (volume rest) dim = dim * rest.prod
    rw [tail, Bounded.satMul, mul_comm]
    exact Bounded.clamp_of_fits (Bounded.fits_of_nonneg (by omega) fits)

theorem getElem?_strides {dims : List Int} {axis : Nat} (inside : axis < dims.length) :
    (strides dims)[axis]? = some (volume (dims.drop (axis + 1))) := by
  induction dims generalizing axis with
  | nil => simp at inside
  | cons dim rest ih =>
    cases axis with
    | zero => rfl
    | succ axis => exact ih (by simpa using inside)

/-- A dimension and those behind it hold at most as many elements as the whole shape. -/
theorem mul_prod_drop_le {dims : List Int} (positive : ∀ dim ∈ dims, 1 ≤ dim) {axis : Nat}
    {dim : Int} (found : dims[axis]? = some dim) :
    dim * (dims.drop (axis + 1)).prod ≤ dims.prod := by
  obtain ⟨inside, rfl⟩ := List.getElem?_eq_some_iff.mp found
  have whole : dims.prod = (dims.take axis).prod * (dims[axis] * (dims.drop (axis + 1)).prod) := by
    rw [← List.prod_cons, ← List.drop_eq_getElem_cons inside, List.prod_take_mul_prod_drop]
  have before : 1 ≤ (dims.take axis).prod :=
    List.one_le_prod fun other member => positive other (List.mem_of_mem_take member)
  have behind : 1 ≤ (dims.drop (axis + 1)).prod :=
    List.one_le_prod fun other member => positive other (List.mem_of_mem_drop member)
  have here := positive _ (List.getElem_mem inside)
  rw [whole]
  exact le_mul_of_one_le_left (Int.mul_nonneg (by omega) (by omega)) before

/-- A part that ends before the whole does starts at an offset that fits. -/
theorem offset_le {axis : Nat} {dims : List Int} (positive : ∀ dim ∈ dims, 1 ≤ dim)
    (most : dims.prod ≤ Bounded.greatest) {whole size : Int} (found : dims[axis]? = some whole)
    (part : size ≤ whole) : ∃ stride,
      (strides dims)[axis]? = some stride ∧ 1 ≤ stride ∧ size * stride ≤ dims.prod := by
  have inside := (List.getElem?_eq_some_iff.mp found).1
  have one := positive whole (List.mem_of_getElem? found)
  have others : ∀ dim ∈ dims.drop (axis + 1), 1 ≤ dim := fun dim member =>
    positive dim (List.mem_of_mem_drop member)
  have tail : 1 ≤ (dims.drop (axis + 1)).prod := List.one_le_prod others
  have least : (dims.drop (axis + 1)).prod ≤ whole * (dims.drop (axis + 1)).prod :=
    le_mul_of_one_le_left (by omega) one
  have block := mul_prod_drop_le positive found
  have offset : size * (dims.drop (axis + 1)).prod ≤ whole * (dims.drop (axis + 1)).prod :=
    Int.mul_le_mul_of_nonneg_right part (by omega)
  refine ⟨_, ?_, tail, offset.trans block⟩
  rw [getElem?_strides inside, volume_eq_prod others (by omega)]

end Shape

namespace TensorDesc

theorem byteSize?_eq_some {d : TensorDesc} {bytes : Nat} (sized : d.byteSize? = some bytes) :
    d.shape.Resolved ∧ bytes = d.shape.elementCount.toNat * d.dtype.size ∧
      bytes < 0x1_0000_0000_0000_0000 := by
  unfold byteSize? at sized
  split at sized
  · rename_i resolved
    obtain ⟨count, exact, fits⟩ := Option.bind_eq_some_iff.mp sized
    simp only at fits
    split at fits
    · rename_i small
      obtain rfl := Option.some.inj fits
      rw [Shape.elementCount, Bounded.satProduct_of_checked exact]
      exact ⟨resolved, rfl, small⟩
    · simp at fits
  · simp at sized

theorem byteSize?_getD_le {d e : TensorDesc} (dtype : d.dtype = e.dtype)
    (count : d.shape.elementCount = e.shape.elementCount) {bytes : Nat}
    (sized : e.byteSize? = some bytes) : d.byteSize?.getD 0 ≤ bytes := by
  cases other : d.byteSize? with
  | none => simp
  | some size =>
    obtain ⟨-, bytesD, -⟩ := byteSize?_eq_some other
    obtain ⟨-, bytesE, -⟩ := byteSize?_eq_some sized
    have same : size = bytes := by rw [bytesD, bytesE, dtype, count]
    show size ≤ bytes
    exact Nat.le_of_eq same

theorem byteSize?_of_resolved {d : TensorDesc} (resolved : d.shape.Resolved)
    (fits : d.overflows = false) :
    d.byteSize? = some (d.shape.elementCount.toNat * d.dtype.size) := by
  simp only [overflows, resolved, decide_true, Bool.true_and] at fits
  cases sized : d.byteSize? with
  | none => simp [sized] at fits
  | some bytes => rw [(byteSize?_eq_some sized).2.1]

section Resolved

variable {d : TensorDesc} (resolved : d.shape.Resolved) (fits : d.overflows = false)
include resolved fits

theorem product?_of_fits : Bounded.product? d.shape.dims = some d.shape.dims.prod := by
  have sized := byteSize?_of_resolved resolved fits
  simp only [byteSize?, resolved, if_true, Shape.elementCount?, Option.bind_eq_some_iff] at sized
  obtain ⟨count, exact, -⟩ := sized
  rw [exact, Bounded.product?_eq_prod exact]

theorem elementCount_of_fits : d.shape.elementCount = d.shape.dims.prod :=
  Bounded.satProduct_of_checked (product?_of_fits resolved fits)

theorem prod_le_greatest : d.shape.dims.prod ≤ Bounded.greatest :=
  (Bounded.fits_of_product? (product?_of_fits resolved fits)).2

theorem one_le_of_written (written : d.shape.elementCount ≠ 0) : ∀ dim ∈ d.shape.dims, 1 ≤ dim := by
  rw [elementCount_of_fits resolved fits] at written
  exact Bounded.one_le_of_prod_ne_zero resolved written

end Resolved

theorem fits_of_sized {d : TensorDesc} (sized : d.byteSize?.isSome) : d.overflows = false := by
  obtain ⟨bytes, sized⟩ := Option.isSome_iff_exists.mp sized
  simp [overflows, sized]

theorem resolved_of_sized {d : TensorDesc} (sized : d.byteSize?.isSome) : d.shape.Resolved := by
  obtain ⟨bytes, sized⟩ := Option.isSome_iff_exists.mp sized
  exact (byteSize?_eq_some sized).1

theorem sized_of_fits {d : TensorDesc} (resolved : d.shape.Resolved) (fits : d.overflows = false) :
    d.byteSize?.isSome := by
  rw [byteSize?_of_resolved resolved fits]
  rfl

theorem elementCount_of_sized {d : TensorDesc} (sized : d.byteSize?.isSome) :
    d.shape.elementCount = d.shape.dims.prod :=
  elementCount_of_fits (resolved_of_sized sized) (fits_of_sized sized)

/-- The dimensions before the last have a product that saturates nowhere. -/
theorem leading_of_sized {d : TensorDesc} (sized : d.byteSize?.isSome) {leading : List Int}
    {last : Int} (dims : d.shape.dims = leading ++ [last]) :
    Bounded.satProduct leading = leading.prod ∧ 0 ≤ leading.prod ∧
      Bounded.Fits leading.prod ∧ 0 ≤ last := by
  have resolved : ∀ dim ∈ d.shape.dims, 0 ≤ dim := resolved_of_sized sized
  have exact := product?_of_fits (resolved_of_sized sized) (fits_of_sized sized)
  rw [dims] at resolved exact
  have product := (Bounded.product?_split exact).1
  have nonneg : 0 ≤ leading.prod :=
    List.prod_nonneg fun dim member => resolved dim (List.mem_append_left _ member)
  exact ⟨Bounded.satProduct_of_checked product, nonneg, Bounded.fits_of_product? product,
    resolved last (by simp)⟩

theorem first_of_sized {d : TensorDesc} (sized : d.byteSize?.isSome) {first second : Int}
    (dims : d.shape.dims = [first, second]) : 0 ≤ first ∧ Bounded.Fits first := by
  have split : d.shape.dims = [first] ++ [second] := dims
  obtain ⟨-, known, fits, -⟩ := leading_of_sized sized split
  rw [List.prod_singleton] at known fits
  exact ⟨known, fits⟩

theorem sized_of_product {d : TensorDesc} (resolved : d.shape.Resolved) {count : Int}
    (exact : Bounded.product? d.shape.dims = some count)
    (small : count.toNat * d.dtype.size < 0x1_0000_0000_0000_0000) : d.byteSize?.isSome := by
  simp only [byteSize?, if_pos resolved, Shape.elementCount?, exact, Option.bind_some, if_pos small,
    Option.isSome_some]

/-- A matrix with fewer columns has a size as well. -/
theorem sized_of_le {dtype : ElementType} {rows less columns : Int}
    (sized : (rowMajor dtype ⟨[rows, columns]⟩).byteSize?.isSome) (nonneg : 0 ≤ less)
    (le : less ≤ columns) : (rowMajor dtype ⟨[rows, less]⟩).byteSize?.isSome := by
  have resolved := resolved_of_sized sized
  have known : 0 ≤ rows := resolved rows (by simp [rowMajor])
  have product : Bounded.product? [rows, less] = some [rows, less].prod :=
    Bounded.product?_of_le (.cons ⟨known, Int.le_refl rows⟩ (.cons ⟨nonneg, le⟩ .nil))
      (product?_of_fits resolved (fits_of_sized sized))
  have fewer : [rows, less].prod ≤ [rows, columns].prod := by
    simpa using Int.mul_le_mul_of_nonneg_left le known
  obtain ⟨bytes, total⟩ := Option.isSome_iff_exists.mp sized
  obtain ⟨-, value, fits⟩ := byteSize?_eq_some total
  rw [elementCount_of_sized sized] at value
  have bound : [rows, less].prod.toNat * dtype.size ≤ bytes := by
    rw [value]
    exact Nat.mul_le_mul_right _ (Int.toNat_le_toNat fewer)
  refine sized_of_product ?_ product (Nat.lt_of_le_of_lt bound fits)
  simp [Shape.Resolved, rowMajor, known, nonneg]

theorem sized_of_known {dtype : ElementType} {rows columns : Int} (first : 0 ≤ rows)
    (second : 0 ≤ columns) (fits : (rowMajor dtype ⟨[rows, columns]⟩).overflows = false) :
    (rowMajor dtype ⟨[rows, columns]⟩).byteSize?.isSome :=
  sized_of_fits (by simp [Shape.Resolved, rowMajor, first, second]) fits

end TensorDesc

end OperatorGraph
