import OperatorGraph.Proofs.Shape.Extents
import OperatorGraph.Shape.Broadcast

set_option autoImplicit false

namespace OperatorGraph

namespace RowMajor

/-- Where the element of a coordinate comes from: the last entries of the coordinate, and the only
place of axes of size one. -/
def origin (dims coords : List Nat) : List Nat :=
  List.zipWith (fun dim coord => if dim = 1 then 0 else coord) dims
    (coords.drop (coords.length - dims.length))

/-- Strides of a shape along the coordinates of a target of some rank. -/
def spreadStrides (dims : List Nat) (rank : Nat) : List Nat :=
  List.replicate (rank - dims.length) 0 ++
    List.zipWith (fun dim stride => if dim = 1 then 0 else stride) dims (strides dims)

theorem along_replicate_append (coords steps : List Nat) (missing : Nat) :
    along coords (List.replicate missing 0 ++ steps) = along (coords.drop missing) steps := by
  induction missing generalizing coords with
  | zero => rfl
  | succ missing ih =>
    cases coords with
    | nil => rfl
    | cons coord rest =>
      rw [List.replicate_succ, List.cons_append, along_cons, ih, Nat.mul_zero, Nat.zero_add,
        List.drop_succ_cons]

/-- A stride of zero does what a coordinate of zero does. -/
theorem along_zipWith (dims coords steps : List Nat) :
    along coords (List.zipWith (fun dim stride => if dim = 1 then 0 else stride) dims steps) =
      along (List.zipWith (fun dim coord => if dim = 1 then 0 else coord) dims coords) steps := by
  induction dims generalizing coords steps with
  | nil => simp [along]
  | cons dim rest ih =>
    cases coords with
    | nil => simp [along]
    | cons coord coords =>
      cases steps with
      | nil => simp [along]
      | cons step steps =>
        rw [List.zipWith_cons_cons, List.zipWith_cons_cons, along_cons, along_cons, ih]
        by_cases single : dim = 1 <;> simp [single]

theorem along_spreadStrides (dims coords : List Nat) :
    along coords (spreadStrides dims coords.length) = position dims (origin dims coords) := by
  rw [spreadStrides, along_replicate_append, along_zipWith]
  rfl

/-- Sizes that are one or, aligned from the last axis, those of a target. -/
structure Spreads (dims target : List Nat) : Prop where
  rank : dims.length ≤ target.length
  sizes : List.Forall₂ (fun dim goal => dim = 1 ∨ dim = goal) dims
    (target.drop (target.length - dims.length))

theorem inside_of_sizes {dims goals coords : List Nat}
    (sizes : List.Forall₂ (fun dim goal => dim = 1 ∨ dim = goal) dims goals)
    (inside : Inside coords goals) :
    Inside (List.zipWith (fun dim coord => if dim = 1 then 0 else coord) dims coords) dims := by
  induction sizes generalizing coords with
  | nil => exact .nil
  | @cons dim goal dims goals size sizes ih =>
    obtain ⟨coord, rest, below, others, rfl⟩ := List.forall₂_cons_right_iff.mp inside
    rw [List.zipWith_cons_cons]
    refine .cons ?_ (ih others)
    by_cases single : dim = 1
    · simp [single]
    · have same := size.resolve_left single
      rw [if_neg single]
      omega

theorem prod_le_of_sizes {dims goals : List Nat}
    (sizes : List.Forall₂ (fun dim goal => dim = 1 ∨ dim = goal) dims goals)
    (positive : ∀ dim ∈ goals, 0 < dim) : (∀ dim ∈ dims, 0 < dim) ∧ dims.prod ≤ goals.prod := by
  induction sizes with
  | nil => exact ⟨by simp, Nat.le_refl _⟩
  | @cons dim goal dims goals size sizes ih =>
    obtain ⟨first, later⟩ := List.forall_mem_cons.mp positive
    obtain ⟨some, le⟩ := ih later
    rw [List.forall_mem_cons, List.prod_cons, List.prod_cons]
    rcases size with rfl | rfl
    · exact ⟨⟨Nat.one_pos, some⟩, Nat.mul_le_mul first le⟩
    · exact ⟨⟨first, some⟩, Nat.mul_le_mul_left _ le⟩

namespace Spreads

variable {dims target : List Nat} (spreads : Spreads dims target)
include spreads

theorem inside_origin {coords : List Nat} (inside : Inside coords target) :
    Inside (origin dims coords) dims := by
  refine inside_of_sizes spreads.sizes ?_
  rw [inside.length]
  exact List.forall₂_drop _ inside

theorem prod_le (positive : ∀ dim ∈ target, 0 < dim) :
    (∀ dim ∈ dims, 0 < dim) ∧ dims.prod ≤ target.prod := by
  obtain ⟨some, le⟩ := prod_le_of_sizes spreads.sizes fun dim member =>
    positive dim (List.mem_of_mem_drop member)
  have front : 0 < (target.take (target.length - dims.length)).prod :=
    List.prod_pos fun dim member => positive dim (List.mem_of_mem_take member)
  refine ⟨some, le.trans ?_⟩
  calc (target.drop (target.length - dims.length)).prod
    _ ≤ (target.take (target.length - dims.length)).prod *
          (target.drop (target.length - dims.length)).prod := Nat.le_mul_of_pos_left _ front
    _ = target.prod := by rw [← List.prod_append, List.take_append_drop]

end Spreads

end RowMajor

namespace Shape

open RowMajor

theorem joinDim_eq_some {a b dim : Int} (joined : joinDim a b = some dim) :
    (a = 1 ∨ a = dim) ∧ (b = 1 ∨ b = dim) ∧ (dim = a ∨ dim = b) := by
  unfold joinDim at joined
  split at joined
  · simp_all
  · split at joined
    · simp_all
    · split at joined <;> simp_all

theorem joinDims_eq_some {lhs rhs dims : List Int} (length : lhs.length = rhs.length)
    (joined : (List.zipWith joinDim lhs rhs).mapM id = some dims) :
    List.Forall₂ (fun a dim => a = 1 ∨ a = dim) lhs dims ∧
      List.Forall₂ (fun b dim => b = 1 ∨ b = dim) rhs dims ∧
        ∀ dim ∈ dims, dim ∈ lhs ∨ dim ∈ rhs := by
  induction lhs generalizing rhs dims with
  | nil =>
    obtain rfl : rhs = [] := List.length_eq_zero_iff.mp length.symm
    simp_all
  | cons a lhs ih =>
    cases rhs with
    | nil => simp at length
    | cons b rhs =>
      rw [List.zipWith_cons_cons, List.mapM_cons] at joined
      simp only [id_eq, Option.bind_eq_bind, Option.bind_eq_some_iff, Option.pure_def,
        Option.some.injEq] at joined
      obtain ⟨dim, here, rest, later, rfl⟩ := joined
      obtain ⟨first, second, either⟩ := joinDim_eq_some here
      obtain ⟨firsts, seconds, all⟩ := ih (by simpa using length) later
      refine ⟨.cons first firsts, .cons second seconds, List.forall_mem_cons.mpr ⟨?_, ?_⟩⟩
      · exact either.imp (by simp_all) (by simp_all)
      · exact fun other member => (all other member).imp (.tail _) (.tail _)

theorem spreads_of_padTo {s : Shape} {dims : List Int}
    (sizes : List.Forall₂ (fun a dim => a = 1 ∨ a = dim) (padTo dims.length s.dims) dims)
    (rank : s.rank ≤ dims.length) : Spreads s.extents (dims.map Int.toNat) := by
  have missing : (List.replicate (dims.length - s.dims.length) (1 : Int)).length =
      dims.length - s.dims.length := List.length_replicate
  have aligned := List.forall₂_drop (dims.length - s.dims.length) sizes
  rw [padTo, List.drop_left' missing] at aligned
  refine ⟨by simpa [extents, Shape.rank] using rank, ?_⟩
  rw [extents, List.length_map, List.length_map, ← List.map_drop, List.forall₂_map_left_iff,
    List.forall₂_map_right_iff]
  exact aligned.imp fun a dim size => size.imp (by rintro rfl; rfl) (by rintro rfl; rfl)

section

variable {lhs rhs target : Shape} (joined : lhs.broadcast? rhs = some target)
include joined

theorem spreads_of_broadcast : Spreads lhs.extents target.extents ∧
    Spreads rhs.extents target.extents ∧ target.rank = max lhs.rank rhs.rank := by
  obtain ⟨dims, all, rfl⟩ := Option.map_eq_some_iff.mp joined
  obtain ⟨first, second, -⟩ := joinDims_eq_some (by simp [rank]) all
  have length : dims.length = max lhs.rank rhs.rank := by
    rw [← first.length_eq, length_padTo, rank, rank, Nat.max_eq_left (Nat.le_max_left ..)]
  rw [← length] at first second
  refine ⟨spreads_of_padTo first ?_, spreads_of_padTo second ?_, length⟩
  · exact length ▸ Nat.le_max_left ..
  · exact length ▸ Nat.le_max_right ..

theorem resolved_of_broadcast (left : lhs.Resolved) (right : rhs.Resolved) : target.Resolved := by
  obtain ⟨dims, all, rfl⟩ := Option.map_eq_some_iff.mp joined
  obtain ⟨-, -, either⟩ := joinDims_eq_some (by simp [rank]) all
  intro dim member
  have padded {s : Shape} (known : s.Resolved) {rank : Nat} (listed : dim ∈ padTo rank s.dims) :
      0 ≤ dim := by
    rcases List.mem_append.mp listed with one | dim
    · rw [List.eq_of_mem_replicate one]
      decide
    · exact known _ dim
  rcases either dim member with first | second
  · exact padded left first
  · exact padded right second

end

theorem map_broadcastStrides {s : Shape} (part : Part s.dims s.dims) (target : Shape) :
    (s.broadcastStrides target).map Int.toNat = spreadStrides s.extents target.rank := by
  have single (dim stride : Int) : (if dim = 1 then 0 else stride).toNat =
      if dim.toNat = 1 then 0 else stride.toNat := by
    by_cases one : dim = 1
    · simp [one]
    · rw [if_neg one, if_neg (by omega)]
  rw [broadcastStrides, spreadStrides, List.map_append, List.map_replicate, List.map_zipWith,
    contiguousStrides, extents, ← part.map_strides, List.zipWith_map, List.length_map]
  simp only [single]
  rfl

theorem broadcastStrides_small {s : Shape} (part : Part s.dims s.dims) (target : Shape) :
    ∀ stride ∈ s.broadcastStrides target, 0 ≤ stride ∧ stride < 2 ^ 32 := by
  intro stride member
  rcases List.mem_append.mp member with missing | own
  · rw [List.eq_of_mem_replicate missing]
    decide
  · obtain ⟨i, found⟩ := List.getElem?_of_mem own
    obtain ⟨dim, step, -, atStep, rfl⟩ := List.getElem?_zipWith_eq_some.mp found
    split
    · decide
    · exact part.stride_small step (List.mem_of_getElem? atStep)

end Shape

end OperatorGraph
