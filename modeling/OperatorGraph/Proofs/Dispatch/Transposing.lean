import OperatorGraph.Proofs.Dispatch.Carrying

set_option autoImplicit false

namespace OperatorGraph

open Dispatch Shader RowMajor

namespace Transposition

section

variable {perm : List Nat} {x : TensorDesc} (inside : ∀ axis ∈ perm, axis < x.shape.rank)
  (nodup : perm.Nodup) (length : perm.length = x.shape.rank)
include inside nodup length

theorem perm_range : perm.Perm (List.range x.shape.rank) := by
  refine (List.subperm_of_subset nodup fun axis member => ?_).perm_of_length_le ?_
  · exact List.mem_range.mpr (inside axis member)
  · rw [List.length_range, length]

/-- Along permuted strides, a coordinate lies where the unpermuted one lies in the source. -/
theorem along_sources (part : Shape.Part x.shape.dims x.shape.dims) {strides : List Int}
    (listed : perm.mapM (item x.shape.contiguousStrides) = .ok strides) {coords : List Nat}
    (same : coords.length = perm.length) :
    along coords (strides.map Int.toNat) = position x.shape.extents (unpermute perm coords) := by
  have count := Answer.length_mapM listed
  have whole : x.shape.extents = x.shape.dims.map Int.toNat := rfl
  have sources :
      strides.map Int.toNat = perm.map ((RowMajor.strides x.shape.extents).getD · 0) := by
    refine List.ext_getElem (by simp [count]) fun i small alsoSmall => ?_
    rw [List.length_map] at small alsoSmall
    have answer := Answer.getElem?_mapM listed i
    rw [List.getElem?_eq_getElem alsoSmall, List.getElem?_eq_getElem small, Option.map_some,
      Option.map_some, Option.some.injEq, item_eq_ok] at answer
    have atStride :
        (x.shape.contiguousStrides.map Int.toNat)[perm[i]]? = some strides[i].toNat := by
      rw [List.getElem?_map, answer, Option.map_some]
    rw [Shape.contiguousStrides, part.map_strides, ← whole] at atStride
    rw [List.getElem_map, List.getElem_map, List.getD_eq_getElem?_getD, atStride, Option.getD_some]
  have axes : ∀ axis ∈ perm, axis < perm.length := fun axis member => length ▸ inside axis member
  rw [position, sources]
  conv_lhs => rw [← map_unpermute nodup same axes]
  apply along_permuted
  · rw [length_unpermute, length]
    exact perm_range inside nodup length
  · simp [length]

variable {dims : List Int} (permuted : perm.mapM (Inference.dimAt x) = .ok dims)
include permuted

theorem axis_of_source {axis : Nat} (small : axis < x.shape.rank) : ∃ (i : Nat) (dim : Int),
    perm[i]? = some axis ∧ dims[i]? = some dim ∧ x.shape.dims[axis]? = some dim := by
  have member : axis ∈ perm :=
    (perm_range inside nodup length).mem_iff.mpr (List.mem_range.mpr small)
  obtain ⟨i, named⟩ := List.getElem?_of_mem member
  have answer := Answer.getElem?_mapM permuted i
  rw [named, Option.map_some] at answer
  obtain ⟨dim, atDim, found⟩ := Option.map_eq_some_iff.mp answer.symm
  exact ⟨i, dim, named, atDim, Inference.dimAt_eq_ok.mp found.symm⟩

theorem inside_unpermute {coords : List Nat} (within : Inside coords (dims.map Int.toNat)) :
    Inside (unpermute perm coords) x.shape.extents := by
  have count := Answer.length_mapM permuted
  have same : coords.length = perm.length := by rw [within.length, List.length_map, count]
  refine inside_of (by simp [length]) fun axis coord dim atCoord atDim => ?_
  have small : axis < x.shape.rank := by
    rw [← Shape.length_extents]
    exact (List.getElem?_eq_some_iff.mp atDim).1
  obtain ⟨i, size, named, atSize, found⟩ := axis_of_source inside nodup length permuted small
  rw [getElem?_unpermute nodup same named (length ▸ small)] at atCoord
  rw [Shape.getElem?_extents found] at atDim
  obtain rfl := Option.some.inj atDim
  exact within.lt atCoord (by rw [List.getElem?_map, atSize, Option.map_some])

theorem source_positive (positive : ∀ dim ∈ dims, 1 ≤ dim) : ∀ dim ∈ x.shape.dims, 1 ≤ dim := by
  intro dim member
  obtain ⟨axis, found⟩ := List.getElem?_of_mem member
  obtain ⟨i, other, -, atDim, alsoFound⟩ := axis_of_source inside nodup length permuted
    (List.getElem?_eq_some_iff.mp found).1
  obtain rfl : dim = other := Option.some.inj (found.symm.trans alsoFound)
  exact positive dim (List.mem_of_getElem? atDim)

variable (source : Shape.Part x.shape.dims x.shape.dims) (target : Shape.Part dims dims)
  {strides : List Int} (listed : perm.mapM (item x.shape.contiguousStrides) = .ok strides)
include source target listed

theorem copy_carries :
    StridedCopy.Carries { StridedCopy.contiguous ⟨dims⟩ with sourceStrides := strides }
      x.shape.extents (dims.map Int.toNat) (unpermute perm) id := by
  have count := Answer.length_mapM permuted
  refine ⟨fun coords within => ⟨inside_unpermute inside nodup length permuted within, ?_⟩,
    fun coords within => ⟨within, ?_⟩, fun _ _ _ _ same => same⟩
  · show 0 + along coords (strides.map Int.toNat) = _
    have same : coords.length = perm.length := by
      rw [within.length]
      exact (List.length_map ..).trans count
    rw [Nat.zero_add, along_sources inside nodup length source listed same]
  · show 0 + along coords ((Shape.strides dims).map Int.toNat) = _
    rw [target.map_strides, Nat.zero_add, position, id]

omit inside nodup in
theorem copy_words (short : 4 + 3 * x.shape.rank < 2 ^ 32) :
    ∀ value ∈ dims.prod ::
        StridedCopy.parameters { StridedCopy.contiguous ⟨dims⟩ with sourceStrides := strides },
      0 ≤ value ∧ value < 0x1_0000_0000 := by
  have rank : dims.length = x.shape.rank := (Answer.length_mapM permuted).trans length
  have zero : (0 : Int) ≤ 0 ∧ (0 : Int) < 2 ^ 32 := by decide
  have sources : ∀ stride ∈ strides, 0 ≤ stride ∧ stride < 2 ^ 32 := by
    intro stride member
    obtain ⟨i, found⟩ := List.getElem?_of_mem member
    have answer := Answer.getElem?_mapM listed i
    rw [found, Option.map_some] at answer
    obtain ⟨axis, -, atStride⟩ := Option.map_eq_some_iff.mp answer
    exact source.stride_small stride (List.mem_of_getElem? (item_eq_ok.mp atStride))
  exact StridedCopy.words_of_parts
    (c := { StridedCopy.contiguous ⟨dims⟩ with sourceStrides := strides }) target.prod_small
    (show 4 + 3 * dims.length ≤ 2 ^ 32 by omega) zero zero target.dim_small sources
    target.stride_small

end

/-- A transposition brings every element to its place. -/
theorem rearranged {launch : Launch} {inferred : List TensorDesc}
    (accepted : launch.Accepted inferred) (movable : launch.Movable) {perm : List Nat}
    (family : launch.param = .transpose perm) :
    ∃ ds, launch.plan = .ok ds ∧ launch.Rearranges inferred ds := by
  obtain ⟨-, infers⟩ := Operator.infer_ok accepted.infers
  rw [family] at infers
  obtain ⟨_, dims, read, inside, nodup, length, permuted, rfl⟩ := infer_ok infers
  obtain ⟨x, atX, rfl⟩ := input_of_desc read 0 rfl
  obtain ⟨out, atOut⟩ := item_answers launch.outputs 0 (by simp [accepted.outputs.length_eq])
  obtain ⟨strides, listed, copied⟩ := copy_answers inside permuted
  have input := mem_of_item atX
  have known : Shape.Resolved ⟨dims⟩ :=
    resolved_of_permuted permuted (movable.resolved x (List.mem_append_left _ input))
  refine Launch.rearranges_of_filled accepted movable (fun _ => by rw [family]; rfl)
    (List.forall_mem_singleton.mpr ⟨x, input, rfl⟩) (List.forall_mem_singleton.mpr known) ?_
  rintro ⟨desc, member, written⟩
  obtain rfl := List.mem_singleton.mp member
  have target : Shape.Part dims dims :=
    Launch.part_of_output accepted movable (item_eq_ok.mp atOut) rfl known written
  have source := Launch.part_of_input movable input
    (source_positive inside nodup length permuted target.positive)
  have count := Answer.length_mapM permuted
  let step : CopyStep := ⟨{ StridedCopy.contiguous ⟨dims⟩ with sourceStrides := strides }, x, out⟩
  have carries : step.Carries launch [x.desc.withShape ⟨dims⟩] 0 (x.desc.withShape ⟨dims⟩)
      (unpermute perm) id :=
    ⟨input, item_eq_ok.mp atOut, rfl, known, written,
      copy_carries inside nodup length permuted source target listed,
      (Answer.length_mapM listed).trans count.symm, Shape.length_strides dims, count.trans length,
      target.product?, copy_words length permuted source target listed (movable.short x input)⟩
  have answered := carries.answers accepted movable
  refine ⟨[step], ?_, Launch.filled_of_carries accepted movable ?_ (List.pairwise_singleton _ _) ?_⟩
  · simp only [Launch.planFamily, family, plan, Answer.bind_eq_ok, atX, copied, atOut,
      List.map_cons, List.map_nil, Answer.pure_eq_ok, Except.ok.injEq, exists_eq_left']
    exact ⟨_, answered, rfl⟩
  · exact List.forall_mem_singleton.mpr ⟨_, _, _, _, carries⟩
  · intro j desc coords stands within
    obtain ⟨rfl, rfl⟩ := eq_of_getElem?_singleton stands
    have same : coords.length = perm.length := by
      rw [within.length, Shape.length_extents]
      exact count
    refine ⟨step, List.mem_singleton_self _, _, _, 0, coords, carries, item_eq_ok.mp atX, within,
      rfl, ?_⟩
    rw [family, read]
    refine .transposed (length_unpermute perm coords) fun i axis named => ?_
    exact getElem?_unpermute nodup same named
      (length ▸ inside axis (List.mem_of_getElem? named))

end Transposition

end OperatorGraph
