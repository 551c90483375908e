import OperatorGraph.Proofs.Inference.Acceptance
import OperatorGraph.Proofs.Shape.Extents

set_option autoImplicit false

namespace OperatorGraph

open Inference RowMajor

/-- How far a coordinate is from the origin, along strides of either sign. -/
def RowMajor.distance (coords : List Nat) (strides : List Int) : Int :=
  (List.zipWith (fun (coord : Nat) (stride : Int) => coord * stride) coords strides).sum

namespace RowMajor

@[simp] theorem distance_nil (strides : List Int) : distance [] strides = 0 := rfl

@[simp] theorem distance_no_strides (coords : List Nat) : distance coords [] = 0 := by
  simp [distance]

@[simp] theorem distance_cons (coord : Nat) (stride : Int) (coords : List Nat)
    (strides : List Int) :
    distance (coord :: coords) (stride :: strides) = coord * stride + distance coords strides := by
  simp only [distance, List.zipWith_cons_cons, List.sum_cons]

theorem distance_eq_along {coords : List Nat} {strides : List Int}
    (known : ∀ stride ∈ strides, 0 ≤ stride) :
    distance coords strides = along coords (strides.map Int.toNat) := by
  induction coords generalizing strides with
  | nil => rfl
  | cons coord coords ih =>
    cases strides with
    | nil => simp [along]
    | cons stride strides =>
      rw [List.forall_mem_cons] at known
      rw [distance_cons, List.map_cons, along_cons, ih known.2, Nat.cast_add, Nat.cast_mul,
        Int.toNat_of_nonneg known.1]

/-- Along strides that are not negative, no coordinate lies past the last one. -/
theorem distance_le_last {sizes strides : List Int} {coords : List Nat}
    (known : ∀ stride ∈ strides, 0 ≤ stride) (inside : Inside coords (sizes.map Int.toNat)) :
    distance coords strides ≤ distance (sizes.map fun size => (size - 1).toNat) strides := by
  rw [Inside, List.forall₂_map_right_iff] at inside
  induction inside generalizing strides with
  | nil => exact Int.le_refl _
  | @cons coord size coords sizes here _ ih =>
    cases strides with
    | nil => simp
    | cons stride strides =>
      rw [List.forall_mem_cons] at known
      have step : (coord : Int) * stride ≤ ((size - 1).toNat : Int) * stride :=
        Int.mul_le_mul_of_nonneg_right (by omega) known.1
      have others := ih known.2
      rw [List.map_cons, distance_cons, distance_cons]
      omega

end RowMajor

namespace Strided

/-- The element that is read for a coordinate, as an exact integer. -/
def index (p : Strided) (coords : List Nat) : Int :=
  p.offset + distance coords p.stride

/-- A reading that names no element outside a shape. -/
structure InBounds (p : Strided) (s : Shape) : Prop where
  paired : p.size.length = p.stride.length
  sizes : ∀ size ∈ p.size, 0 ≤ size
  strides : ∀ stride ∈ p.stride, 0 ≤ stride
  offset : 0 ≤ p.offset
  inside : ∀ coords, Inside coords (p.size.map Int.toNat) → p.index coords < s.dims.prod

/-- The last coordinate of a reading that has elements. -/
def lastCoords (p : Strided) : List Nat :=
  p.size.map fun size => (size - 1).toNat

theorem inside_lastCoords {p : Strided} (positive : ∀ size ∈ p.size, 0 < size) :
    Inside p.lastCoords (p.size.map Int.toNat) := by
  rw [Inside, lastCoords, List.forall₂_map_left_iff, List.forall₂_map_right_iff, List.forall₂_same]
  intro size member
  have some := positive size member
  omega

/-- Only a reading that has elements has coordinates. -/
theorem positive_of_inside {p : Strided} {coords : List Nat}
    (inside : Inside coords (p.size.map Int.toNat)) : ∀ size ∈ p.size, 0 < size := by
  intro size member
  obtain ⟨axis, found⟩ := List.getElem?_of_mem member
  have atSize : (p.size.map Int.toNat)[axis]? = some size.toNat := by
    rw [List.getElem?_map, found, Option.map_some]
  have small : axis < coords.length := by
    rw [inside.length]
    exact (List.getElem?_eq_some_iff.mp atSize).1
  have below := inside.lt (List.getElem?_eq_getElem small) atSize
  omega

theorem index_le_last {p : Strided} {coords : List Nat} (known : ∀ stride ∈ p.stride, 0 ≤ stride)
    (inside : Inside coords (p.size.map Int.toNat)) : p.index coords ≤ p.index p.lastCoords :=
  Int.add_le_add_left (distance_le_last known inside) p.offset

/-- One axis more of the way to the last coordinate, unless a step leaves the 64-bit range. -/
def reach (reached : Int) : Int × Int → Option Int
  | (size, stride) => do
    let step ← Bounded.mul? (size - 1) stride
    Bounded.add? step reached

@[simp] theorem reach_eq_some {reached size stride next : Int} :
    reach reached (size, stride) = some next ↔ Bounded.Fits ((size - 1) * stride) ∧
      Bounded.Fits ((size - 1) * stride + reached) ∧ (size - 1) * stride + reached = next := by
  simp [reach, Option.bind_eq_some_iff]

section

variable {sizes strides : List Int} (positive : ∀ size ∈ sizes, 0 < size) {start : Int}
include positive

/-- What is reached is what the exact steps add up to. -/
theorem foldlM_reach_eq {last : Int}
    (reached : (sizes.zip strides).foldlM reach start = some last) :
    last = start + distance (sizes.map fun size => (size - 1).toNat) strides := by
  induction sizes generalizing strides start with
  | nil =>
    obtain rfl : start = last := by simpa using reached
    simp
  | cons size sizes ih =>
    cases strides with
    | nil =>
      obtain rfl : start = last := by simpa using reached
      simp
    | cons stride strides =>
      rw [List.forall_mem_cons] at positive
      simp only [List.zip_cons_cons, List.foldlM_cons, Option.bind_eq_bind,
        Option.bind_eq_some_iff, reach_eq_some] at reached
      obtain ⟨next, ⟨-, -, rfl⟩, later⟩ := reached
      have steps : ((size - 1).toNat : Int) = size - 1 := Int.toNat_of_nonneg (by omega)
      rw [ih positive.2 later, List.map_cons, distance_cons, steps]
      omega

/-- Steps that add up to no more than the range holds stay in it, each of them. -/
theorem foldlM_reach_of_le (known : ∀ stride ∈ strides, 0 ≤ stride) (nonneg : 0 ≤ start)
    (most : start + distance (sizes.map fun size => (size - 1).toNat) strides ≤
      Bounded.greatest) :
    ∃ last, (sizes.zip strides).foldlM reach start = some last := by
  induction sizes generalizing strides start with
  | nil => exact ⟨start, rfl⟩
  | cons size sizes ih =>
    cases strides with
    | nil => exact ⟨start, rfl⟩
    | cons stride strides =>
      rw [List.forall_mem_cons] at positive known
      have steps : ((size - 1).toNat : Int) = size - 1 := Int.toNat_of_nonneg (by omega)
      rw [List.map_cons, distance_cons, steps] at most
      have step : 0 ≤ (size - 1) * stride := Int.mul_nonneg (by omega) known.1
      have later : 0 ≤ distance (sizes.map fun size => (size - 1).toNat) strides := by
        rw [distance_eq_along known.2]
        exact Int.natCast_nonneg _
      obtain ⟨last, reached⟩ :
          ∃ last, (sizes.zip strides).foldlM reach ((size - 1) * stride + start) = some last :=
        ih positive.2 known.2 (by omega) (by omega)
      refine ⟨last, ?_⟩
      rw [List.zip_cons_cons, List.foldlM_cons, reach_eq_some.mpr
        ⟨Bounded.fits_of_nonneg step (by omega), Bounded.fits_of_nonneg (by omega) (by omega), rfl⟩]
      exact reached

end

/-- The check passes where the last element that is read is below the element count. -/
theorem checkReach_eq_ok {p : Strided} {s : Shape} (known : s.Resolved)
    (fits : s.dims.prod ≤ Bounded.greatest) (strides : ∀ stride ∈ p.stride, 0 ≤ stride)
    (offset : 0 ≤ p.offset) {done : Unit} :
    p.checkReach s = .ok done ↔
      ((∀ size ∈ p.size, 0 < size) → p.index p.lastCoords < s.dims.prod) := by
  have count : s.elementCount = s.dims.prod := Bounded.satProduct_eq_prod known fits
  by_cases positive : ∀ size ∈ p.size, 0 < size
  · rw [checkReach, if_pos ⟨known, positive⟩, count, forall_prop_of_true positive]
    cases reached : p.lastElement? with
    | some last =>
      have same : last = p.index p.lastCoords := foldlM_reach_eq positive reached
      by_cases below : last < s.dims.prod <;> simp [below, ← same]
    | none =>
      -- Some step has left the range, and with it the last element.
      have past : ¬ p.index p.lastCoords < s.dims.prod := fun below => by
        obtain ⟨last, found⟩ := foldlM_reach_of_le positive strides offset
          (show p.index p.lastCoords ≤ _ by omega)
        exact absurd (reached.symm.trans found) (by simp)
      simp [past]
  · simp [checkReach, positive]

/-- A reading of a known row-major tensor is accepted exactly if none of its coordinates names an
element past those that there are. -/
theorem infer_eq_ok {p : Strided} {x : TensorDesc} (known : x.shape.Resolved)
    (fits : x.shape.dims.prod ≤ Bounded.greatest) {outputs : List TensorDesc} :
    p.infer [x] = .ok outputs ↔ p.InBounds x.shape ∧ outputs = [x.withShape ⟨p.size⟩] := by
  have signs : (p.offset < 0 ∨ (p.size ++ p.stride).any (· < 0)) ↔
      ¬ (0 ≤ p.offset ∧ (∀ size ∈ p.size, 0 ≤ size) ∧ ∀ stride ∈ p.stride, 0 ≤ stride) := by
    simp only [List.any_eq_true, List.mem_append, decide_eq_true_eq, ← List.forall_mem_append]
    grind
  rw [infer]
  split
  case isTrue lengths =>
    simp only [objection_ne_ok, false_iff]
    exact fun accepts => lengths accepts.1.paired
  case isFalse lengths =>
    split
    case isTrue negative =>
      simp only [objection_ne_ok, false_iff]
      intro accepts
      have bounds := accepts.1
      exact signs.mp negative ⟨bounds.offset, bounds.sizes, bounds.strides⟩
    case isFalse nonneg =>
      obtain ⟨offset, sizes, strides⟩ := not_not.mp (mt signs.mpr nonneg)
      simp only [Answer.bind_eq_ok, checkReach_eq_ok known fits strides offset, Answer.pure_eq_ok,
        exists_const]
      refine and_congr ⟨fun last => ?_, fun bounds positive => ?_⟩ eq_comm
      · refine ⟨not_not.mp lengths, sizes, strides, offset, fun coords inside => ?_⟩
        exact (index_le_last strides inside).trans_lt (last (positive_of_inside inside))
      · exact bounds.inside _ (inside_lastCoords positive)

end Strided

end OperatorGraph
