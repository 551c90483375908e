import Mathlib.Algebra.Order.BigOperators.GroupWithZero.List
import Mathlib.Algebra.Order.Ring.Nat
import OperatorGraph.Proofs.Products

set_option autoImplicit false

namespace OperatorGraph

namespace RowMajor

/-- An entry for each dimension, and below it. -/
def Inside (coords dims : List Nat) : Prop :=
  List.Forall₂ (· < ·) coords dims

/-- How far a coordinate is from the origin, along these strides. -/
def along (coords strides : List Nat) : Nat :=
  (List.zipWith (· * ·) coords strides).sum

/-- The elements that one step along each axis passes over. -/
def strides : List Nat → List Nat
  | [] => []
  | _ :: rest => rest.prod :: strides rest

def position (dims coords : List Nat) : Nat :=
  along coords (strides dims)

/-- The coordinate of a position. -/
def coordinate : List Nat → Nat → List Nat
  | [], _ => []
  | dim :: rest, n => n / rest.prod % dim :: coordinate rest n

@[simp] theorem along_nil (strides : List Nat) : along [] strides = 0 := rfl

@[simp] theorem along_cons (coord stride : Nat) (coords strides : List Nat) :
    along (coord :: coords) (stride :: strides) = coord * stride + along coords strides := by
  simp only [along, List.zipWith_cons_cons, List.sum_cons]

theorem position_cons (dim coord : Nat) (dims coords : List Nat) :
    position (dim :: dims) (coord :: coords) = coord * dims.prod + position dims coords :=
  along_cons ..

@[simp] theorem length_strides (dims : List Nat) : (strides dims).length = dims.length := by
  induction dims with
  | nil => rfl
  | cons dim rest ih => simp [strides, ih]

@[simp] theorem length_coordinate (dims : List Nat) (n : Nat) :
    (coordinate dims n).length = dims.length := by
  induction dims with
  | nil => rfl
  | cons dim rest ih => simp [coordinate, ih]

theorem getElem?_coordinate {dims : List Nat} {axis dim : Nat} (n : Nat)
    (found : dims[axis]? = some dim) :
    (coordinate dims n)[axis]? = some (n / (dims.drop (axis + 1)).prod % dim) := by
  induction dims generalizing axis with
  | nil => simp at found
  | cons first rest ih =>
    cases axis with
    | zero =>
      obtain rfl : first = dim := by simpa using found
      rfl
    | succ axis => exact ih (by simpa using found)

theorem along_drop {coords strides : List Nat} {axis coord stride : Nat}
    (atCoord : coords[axis]? = some coord) (atStride : strides[axis]? = some stride) :
    along (coords.drop axis) (strides.drop axis) =
      coord * stride + along (coords.drop (axis + 1)) (strides.drop (axis + 1)) := by
  obtain ⟨inCoords, rfl⟩ := List.getElem?_eq_some_iff.mp atCoord
  obtain ⟨inStrides, rfl⟩ := List.getElem?_eq_some_iff.mp atStride
  rw [List.drop_eq_getElem_cons inCoords, List.drop_eq_getElem_cons inStrides, along_cons]

/-- A shift along one axis. -/
theorem along_modify {coords strides : List Nat} {axis stride : Nat}
    (atStride : strides[axis]? = some stride) (inside : axis < coords.length) (shift : Nat) :
    along (coords.modify axis (· + shift)) strides = shift * stride + along coords strides := by
  induction coords generalizing strides axis with
  | nil => simp at inside
  | cons coord rest ih =>
    cases strides with
    | nil => simp at atStride
    | cons first others =>
      cases axis with
      | zero =>
        obtain rfl : first = stride := by simpa using atStride
        rw [List.modify_zero_cons, along_cons, along_cons, Nat.add_mul]
        omega
      | succ axis =>
        rw [List.modify_succ_cons, along_cons, along_cons, ih (by simpa using atStride)
          (by simpa using inside)]
        omega

/-- Coordinates and strides may be listed in any order of the axes. -/
theorem along_permuted {perm coords strides : List Nat}
    (permutes : perm.Perm (List.range coords.length)) (same : coords.length = strides.length) :
    along (perm.map (coords.getD · 0)) (perm.map (strides.getD · 0)) = along coords strides := by
  have inOrder : List.zipWith (· * ·) coords strides =
      (List.range coords.length).map fun axis => coords.getD axis 0 * strides.getD axis 0 := by
    refine List.ext_getElem (by simp [same]) fun axis small _ => ?_
    have inside : axis < coords.length := by
      rw [List.length_zipWith] at small
      omega
    simp [List.getD_eq_getElem?_getD, List.getElem?_eq_getElem inside,
      List.getElem?_eq_getElem (same ▸ inside)]
  rw [along, along, inOrder, List.zipWith_map_left, List.zipWith_map_right, List.zipWith_self]
  exact (permutes.map _).sum_eq

/-- The coordinate whose entries along these axes are given. -/
def unpermute (perm coords : List Nat) : List Nat :=
  (List.range perm.length).map fun axis => coords.getD (perm.idxOf axis) 0

@[simp] theorem length_unpermute (perm coords : List Nat) :
    (unpermute perm coords).length = perm.length := by
  simp [unpermute]

theorem getElem?_unpermute {perm coords : List Nat} (nodup : perm.Nodup)
    (same : coords.length = perm.length) {i axis : Nat} (named : perm[i]? = some axis)
    (inside : axis < perm.length) : (unpermute perm coords)[axis]? = coords[i]? := by
  obtain ⟨small, rfl⟩ := List.getElem?_eq_some_iff.mp named
  rw [unpermute, List.getElem?_map, List.getElem?_range inside, Option.map_some,
    nodup.idxOf_getElem, List.getD_eq_getElem?_getD, List.getElem?_eq_getElem (same ▸ small),
    Option.getD_some]

theorem map_unpermute {perm coords : List Nat} (nodup : perm.Nodup)
    (same : coords.length = perm.length) (inside : ∀ axis ∈ perm, axis < perm.length) :
    perm.map ((unpermute perm coords).getD · 0) = coords := by
  refine List.ext_getElem (by simp [same]) fun i small alsoSmall => ?_
  rw [List.length_map] at small
  rw [List.getElem_map, List.getD_eq_getElem?_getD, getElem?_unpermute nodup same
    (List.getElem?_eq_getElem small) (inside _ (List.getElem_mem small)),
    List.getElem?_eq_getElem alsoSmall, Option.getD_some]

theorem Inside.length {coords dims : List Nat} (inside : Inside coords dims) :
    coords.length = dims.length :=
  inside.length_eq

theorem Inside.lt {coords dims : List Nat} (inside : Inside coords dims) {axis coord dim : Nat}
    (atCoord : coords[axis]? = some coord) (atDim : dims[axis]? = some dim) : coord < dim :=
  Answer.getElem?_of_forall₂ inside atCoord atDim

theorem inside_of {coords dims : List Nat} (length : coords.length = dims.length)
    (each : ∀ axis coord dim : Nat, coords[axis]? = some coord → dims[axis]? = some dim →
      coord < dim) : Inside coords dims :=
  Answer.forall₂_of_getElem? length each

/-- A coordinate that changes along one axis lies inside a shape that differs along it. -/
theorem Inside.modify {coords dims others : List Nat} {axis : Nat} (inside : Inside coords dims)
    (length : others.length = dims.length) (elsewhere : ∀ i ≠ axis, others[i]? = dims[i]?)
    {change : Nat → Nat} (here : ∀ coord dim : Nat, coords[axis]? = some coord →
      others[axis]? = some dim → change coord < dim) :
    Inside (coords.modify axis change) others := by
  refine inside_of (by rw [List.length_modify, inside.length, length])
    fun i coord dim atCoord atDim => ?_
  rw [List.getElem?_modify, Option.map_eq_map] at atCoord
  obtain ⟨old, atOld, rfl⟩ := Option.map_eq_some_iff.mp atCoord
  by_cases same : axis = i
  · subst same
    rw [if_pos rfl]
    exact here old dim atOld atDim
  · rw [if_neg same]
    rw [elsewhere i fun equal => same equal.symm] at atDim
    exact inside.lt atOld atDim

theorem modify_add_sub (coords : List Nat) (axis shift : Nat) :
    (coords.modify axis (· + shift)).modify axis (· - shift) = coords := by
  refine List.ext_getElem? fun i => ?_
  simp only [List.getElem?_modify, Option.map_eq_map, Option.map_map]
  by_cases same : axis = i <;> simp [same, Function.comp_def]

theorem modify_sub_add {coords : List Nat} {axis shift : Nat}
    (most : ∀ coord : Nat, coords[axis]? = some coord → shift ≤ coord) :
    (coords.modify axis (· - shift)).modify axis (· + shift) = coords := by
  refine List.ext_getElem? fun i => ?_
  simp only [List.getElem?_modify, Option.map_eq_map, Option.map_map]
  by_cases same : axis = i
  · subst same
    cases found : coords[axis]? with
    | none => rfl
    | some coord =>
      have enough := most coord found
      simp [Nat.sub_add_cancel enough]
  · simp [same, Function.comp_def]

theorem position_lt {dims coords : List Nat} (inside : Inside coords dims) :
    position dims coords < dims.prod := by
  induction inside with
  | nil => decide
  | @cons coord dim coords dims below _ ih =>
    rw [position_cons, List.prod_cons]
    calc coord * dims.prod + position dims coords
      _ < coord * dims.prod + dims.prod := Nat.add_lt_add_left ih _
      _ = (coord + 1) * dims.prod := (Nat.succ_mul _ _).symm
      _ ≤ dim * dims.prod := Nat.mul_le_mul_right _ below

theorem positive_of_lt_prod {dims : List Nat} {n : Nat} (below : n < dims.prod) {axis dim : Nat}
    (found : dims[axis]? = some dim) : 0 < dim := by
  apply Nat.pos_of_ne_zero
  rintro rfl
  rw [List.prod_eq_zero (List.mem_of_getElem? found)] at below
  omega

theorem inside_coordinate {dims : List Nat} {n : Nat} (below : n < dims.prod) :
    Inside (coordinate dims n) dims := by
  have nonempty : dims.prod ≠ 0 := by omega
  clear below
  induction dims with
  | nil => exact .nil
  | cons dim rest ih =>
    rw [List.prod_cons] at nonempty
    have positive : 0 < dim := Nat.pos_of_ne_zero (Nat.ne_zero_of_mul_ne_zero_left nonempty)
    exact .cons (Nat.mod_lt _ positive) (ih (Nat.ne_zero_of_mul_ne_zero_right nonempty))

theorem position_coordinate_mod (dims : List Nat) (n : Nat) :
    position dims (coordinate dims n) = n % dims.prod := by
  induction dims with
  | nil => rw [List.prod_nil, Nat.mod_one]; rfl
  | cons dim rest ih =>
    rw [coordinate, position_cons, ih, List.prod_cons, Nat.mul_comm dim, Nat.mod_mul,
      Nat.mul_comm rest.prod, Nat.add_comm]

theorem position_coordinate {dims : List Nat} {n : Nat} (below : n < dims.prod) :
    position dims (coordinate dims n) = n := by
  rw [position_coordinate_mod, Nat.mod_eq_of_lt below]

theorem coordinate_add_mul (dims : List Nat) (n whole : Nat) :
    coordinate dims (whole * dims.prod + n) = coordinate dims n := by
  induction dims generalizing whole with
  | nil => rfl
  | cons dim rest ih =>
    have split : whole * (dim :: rest).prod = (whole * dim) * rest.prod := by
      rw [List.prod_cons, Nat.mul_assoc]
    rw [split, coordinate, coordinate, ih]
    rcases Nat.eq_zero_or_pos rest.prod with zero | positive
    · rw [zero, Nat.div_zero, Nat.div_zero]
    · rw [Nat.mul_comm (whole * dim), Nat.mul_add_div positive, Nat.mul_comm whole,
        Nat.mul_add_mod]

theorem coordinate_position {dims coords : List Nat} (inside : Inside coords dims) :
    coordinate dims (position dims coords) = coords := by
  induction inside with
  | nil => rfl
  | @cons coord dim coords dims below within ih =>
    have less := position_lt within
    have positive : 0 < dims.prod := by omega
    rw [position_cons, coordinate, coordinate_add_mul, ih, Nat.mul_comm, Nat.mul_add_div positive,
      Nat.div_eq_of_lt less, Nat.add_zero, Nat.mod_eq_of_lt below]

theorem position_injective {dims a b : List Nat} (insideA : Inside a dims)
    (insideB : Inside b dims) (same : position dims a = position dims b) : a = b := by
  rw [← coordinate_position insideA, same, coordinate_position insideB]

end RowMajor

end OperatorGraph
