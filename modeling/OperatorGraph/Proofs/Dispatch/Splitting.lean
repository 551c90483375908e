import OperatorGraph.Proofs.Dispatch.Carrying

set_option autoImplicit false

namespace OperatorGraph

open Dispatch Shader RowMajor

namespace Split

/-- The copy of one part. -/
def partCopy (x : Shape) (position : Nat) (chunk stride : Int) (part : Nat) : StridedCopy :=
  { StridedCopy.contiguous ⟨x.dims.set position chunk⟩ with
    sourceOffset := part * chunk * stride
    sourceStrides := x.contiguousStrides }

/-- An axis that is cut into equal parts of a source with elements. -/
structure Cuts (x : Shape) (position count : Nat) (whole chunk stride : Int) : Prop where
  present : x.dims[position]? = some whole
  equal : whole = count * chunk
  source : Shape.Part x.dims x.dims
  target : Shape.Part (x.dims.set position chunk) (x.dims.set position chunk)
  atStride : x.contiguousStrides[position]? = some stride

/-- A source whose parts have elements along every axis has some, too. -/
theorem source_positive {x : Shape} {position count : Nat} {whole chunk : Int}
    (present : x.dims[position]? = some whole) (some : count ≠ 0) (equal : whole = count * chunk)
    (positive : ∀ dim ∈ x.dims.set position chunk, 1 ≤ dim) : ∀ dim ∈ x.dims, 1 ≤ dim := by
  intro dim member
  obtain ⟨i, atDim⟩ := List.getElem?_of_mem member
  by_cases here : i = position
  · subst here
    obtain rfl : dim = whole := Option.some.inj (atDim.symm.trans present)
    have one := positive chunk
      (List.mem_of_getElem? (List.getElem?_set_self (List.getElem?_eq_some_iff.mp present).1))
    rw [equal]
    exact Int.mul_pos (by omega) one
  · refine positive dim (List.mem_of_getElem? (i := i) ?_)
    rw [List.getElem?_set_ne fun same => here same.symm, atDim]

namespace Cuts

variable {x : Shape} {position count : Nat} {whole chunk stride : Int}
  (cuts : Cuts x position count whole chunk stride)
include cuts

theorem inside : position < x.dims.length :=
  (List.getElem?_eq_some_iff.mp cuts.present).1

theorem chunk_pos : 1 ≤ chunk :=
  cuts.target.positive chunk (List.mem_of_getElem? (List.getElem?_set_self cuts.inside))

theorem stride_nonneg : 0 ≤ stride :=
  (cuts.source.stride_small stride (List.mem_of_getElem? cuts.atStride)).1

/-- Every part starts inside the axis, at an offset that is a word. -/
theorem offset_small {part : Nat} (within : part < count) :
    (0 ≤ part * chunk ∧ part * chunk ≤ whole) ∧
      0 ≤ part * chunk * stride ∧ part * chunk * stride < 2 ^ 32 := by
  have one := cuts.chunk_pos
  have few := cuts.source.few
  have start : 0 ≤ part * chunk := Int.mul_nonneg (by omega) (by omega)
  have most : (part : Int) * chunk ≤ count * chunk :=
    Int.mul_le_mul_of_nonneg_right (by omega) (by omega)
  rw [← cuts.equal] at most
  obtain ⟨_, found, -, offset⟩ := Shape.offset_le cuts.source.positive
    (by unfold Bounded.greatest; omega) cuts.present most
  obtain rfl := Option.some.inj (cuts.atStride.symm.trans found)
  exact ⟨⟨start, most⟩, Int.mul_nonneg start cuts.stride_nonneg, by omega⟩

theorem copied {part : Nat} (within : part < count) :
    copy x position chunk part = .ok (partCopy x position chunk stride part) := by
  obtain ⟨⟨start, begins⟩, nonneg, few⟩ := cuts.offset_small within
  have whole := (cuts.source.dim_small whole (List.mem_of_getElem? cuts.present)).2
  refine copy_eq_ok.mpr ⟨stride, cuts.atStride, ?_, ?_, rfl⟩
  · exact Bounded.fits_of_nonneg start (by unfold Bounded.greatest; omega)
  · exact Bounded.fits_of_nonneg nonneg (by unfold Bounded.greatest; omega)

theorem chunk_eq : whole.toNat / count = chunk.toNat ∧ whole.toNat = count * chunk.toNat := by
  have one := cuts.chunk_pos
  have first := cuts.source.positive whole (List.mem_of_getElem? cuts.present)
  have some : 0 < count := by
    rw [cuts.equal] at first
    refine Nat.pos_of_ne_zero fun none => ?_
    rw [none, Nat.cast_zero, Int.zero_mul] at first
    omega
  have chunks : whole.toNat = count * chunk.toNat := by
    rw [cuts.equal, Int.toNat_mul (by omega) (by omega), Int.toNat_natCast]
  rw [chunks]
  exact ⟨Nat.mul_div_cancel_left _ some, rfl⟩

/-- A coordinate of a part, counted from the start of the axis, is one of the source. -/
theorem inside_source {part : Nat} (within : part < count) {coords : List Nat}
    (inPart : Inside coords ((x.dims.set position chunk).map Int.toNat)) :
    Inside (coords.modify position (· + part * (whole.toNat / count))) x.extents := by
  obtain ⟨size, chunks⟩ := cuts.chunk_eq
  refine Inside.modify inPart ?_ (fun i other => ?_) fun coord dim atCoord atDim => ?_
  · simp [Shape.extents]
  · rw [List.getElem?_map, List.getElem?_set_ne fun same => other same.symm, Shape.extents,
      List.getElem?_map]
  · rw [Shape.getElem?_extents cuts.present] at atDim
    obtain rfl := Option.some.inj atDim
    have small : coord < chunk.toNat := by
      refine inPart.lt atCoord ?_
      rw [List.getElem?_map, List.getElem?_set_self cuts.inside, Option.map_some]
    have next : (part + 1) * chunk.toNat ≤ count * chunk.toNat := Nat.mul_le_mul_right _ within
    rw [Nat.succ_mul] at next
    show coord + part * (whole.toNat / count) < whole.toNat
    rw [size]
    omega

/-- A part carries its elements from where they lie in the source. -/
theorem carries {part : Nat} (within : part < count) :
    (partCopy x position chunk stride part).Carries x.extents
      ((x.dims.set position chunk).map Int.toNat)
      (fun coords => coords.modify position (· + part * (whole.toNat / count))) id := by
  have one := cuts.chunk_pos
  have step := cuts.stride_nonneg
  refine ⟨fun coords inPart => ⟨cuts.inside_source within inPart, ?_⟩,
    fun coords inPart => ⟨inPart, ?_⟩, fun _ _ _ _ same => same⟩
  · show (part * chunk * stride).toNat + along coords (x.contiguousStrides.map Int.toNat) =
      RowMajor.position x.extents _
    have strides : x.contiguousStrides.map Int.toNat = RowMajor.strides x.extents :=
      cuts.source.map_strides
    have atNat : (RowMajor.strides x.extents)[position]? = some stride.toNat := by
      rw [← strides, List.getElem?_map, cuts.atStride, Option.map_some]
    have length : position < coords.length := by
      rw [inPart.length]
      show position < ((x.dims.set position chunk).map Int.toNat).length
      simpa using cuts.inside
    rw [RowMajor.position, along_modify atNat length, strides, cuts.chunk_eq.1,
      Int.toNat_mul (Int.mul_nonneg (by omega) (by omega)) step,
      Int.toNat_mul (by omega) (by omega), Int.toNat_natCast]
  · show 0 + along coords ((Shape.strides (x.dims.set position chunk)).map Int.toNat) = _
    rw [cuts.target.map_strides, Nat.zero_add, RowMajor.position, id]

theorem words {part : Nat} (within : part < count) (short : 4 + 3 * x.rank < 2 ^ 32) :
    ∀ value ∈ (partCopy x position chunk stride part).dims.prod ::
        (partCopy x position chunk stride part).parameters,
      0 ≤ value ∧ value < 0x1_0000_0000 := by
  have zero : (0 : Int) ≤ 0 ∧ (0 : Int) < 2 ^ 32 := by decide
  refine StridedCopy.words_of_parts cuts.target.prod_small ?_ (cuts.offset_small within).2 zero
    cuts.target.dim_small cuts.source.stride_small cuts.target.stride_small
  show 4 + 3 * (x.dims.set position chunk).length ≤ 2 ^ 32
  rw [List.length_set]
  exact Nat.le_of_lt short

end Cuts

/-- The copies of all parts. -/
def steps (x : Binding) (position : Nat) (chunk stride : Int) (outputs : List Binding) :
    List CopyStep :=
  outputs.zipIdx.map fun entry => ⟨partCopy x.desc.shape position chunk stride entry.2, x, entry.1⟩

section

variable {x : Binding} {position : Nat} {chunk stride : Int} {outputs : List Binding}

theorem mem_steps {s : CopyStep} : s ∈ steps x position chunk stride outputs ↔
    ∃ (j : Nat) (out : Binding), outputs[j]? = some out ∧
      s = ⟨partCopy x.desc.shape position chunk stride j, x, out⟩ := by
  rw [steps, List.mem_map]
  constructor
  · rintro ⟨⟨out, j⟩, member, rfl⟩
    exact ⟨j, out, List.mk_mem_zipIdx_iff_getElem?.mp member, rfl⟩
  · rintro ⟨j, out, found, rfl⟩
    exact ⟨(out, j), List.mk_mem_zipIdx_iff_getElem?.mpr found, rfl⟩

theorem steps_apart (apart : outputs.Pairwise fun out other => out.span.Disjoint other.span)
    (some : ∀ out ∈ outputs, 0 < out.span.elements) :
    (steps x position chunk stride outputs).Pairwise CopyStep.Apart := by
  rw [List.pairwise_iff_getElem]
  intro i j small alsoSmall before same
  simp only [steps, List.length_map, List.length_zipIdx] at small alsoSmall
  simp only [steps, List.getElem_map, List.getElem_zipIdx] at same
  refine absurd same (Span.ne_of_disjoint ?_ (some _ (List.getElem_mem alsoSmall)))
  exact List.pairwise_iff_getElem.mp apart i j small alsoSmall before

end

/-- A split brings every element to its place. -/
theorem rearranged {launch : Launch} {inferred : List TensorDesc}
    (accepted : launch.Accepted inferred) (movable : launch.Movable) {axis : Int} {parts : Nat}
    (family : launch.param = .split axis parts) :
    ∃ ds, launch.plan = .ok ds ∧ launch.Rearranges inferred ds := by
  obtain ⟨-, infers⟩ := Operator.infer_ok accepted.infers
  rw [family] at infers
  obtain ⟨_, position, whole, chunk, read, found, present, many, divided, equal, room, rfl⟩ :=
    inferSplit_ok infers
  obtain ⟨x, atX, rfl⟩ := input_of_desc read 0 rfl
  have input := mem_of_item atX
  have knownX := movable.resolved x (List.mem_append_left _ input)
  have outputs : launch.outputs.length = parts := by
    rw [accepted.outputs.length_eq, List.length_replicate]
  have below {j : Nat} {out : Binding} (atOut : launch.outputs[j]? = some out) : j < parts :=
    outputs ▸ (List.getElem?_eq_some_iff.mp atOut).1
  have stands {j : Nat} (inside : j < parts) : (List.replicate parts
      (x.desc.withShape ⟨x.desc.shape.dims.set position chunk⟩))[j]? =
        some (x.desc.withShape ⟨x.desc.shape.dims.set position chunk⟩) := by
    rw [List.getElem?_replicate, if_pos inside]
  have known := resolved_of_parts knownX present many equal
  refine Launch.rearranges_of_filled accepted movable (fun _ => by rw [family]; rfl)
    (fun desc member => ⟨x, input, by rw [List.eq_of_mem_replicate member]; rfl⟩)
    (fun desc member => by rw [List.eq_of_mem_replicate member]; exact known) ?_
  rintro ⟨desc, member, written⟩
  obtain rfl := List.eq_of_mem_replicate member
  have target : Shape.Part (x.desc.shape.dims.set position chunk)
      (x.desc.shape.dims.set position chunk) :=
    Launch.part_of_output accepted movable (List.getElem?_eq_getElem (by omega : 0 < _))
      (stands (by omega)) known written
  have source := Launch.part_of_input movable input
    (source_positive present many equal target.positive)
  obtain ⟨stride, atStride⟩ : ∃ stride, x.desc.shape.contiguousStrides[position]? = some stride :=
    ⟨_, List.getElem?_eq_getElem
      (by rw [Shape.length_contiguousStrides]; exact Shape.axis?_lt found)⟩
  have cuts : Cuts x.desc.shape position parts whole chunk stride :=
    ⟨present, equal, source, target, atStride⟩
  have carries {j : Nat} {out : Binding} (atOut : launch.outputs[j]? = some out) :=
    show CopyStep.Carries ⟨partCopy x.desc.shape position chunk stride j, x, out⟩ launch _ j _ _ _
      from
    ⟨input, atOut, stands (below atOut), known, written, cuts.carries (below atOut),
      (Shape.length_contiguousStrides _).trans (List.length_set ..).symm, Shape.length_strides _,
      List.length_set .., target.product?, cuts.words (below atOut) (movable.short x input)⟩
  refine ⟨steps x position chunk stride launch.outputs, ?_,
    Launch.filled_of_carries accepted movable ?_ ?_ ?_⟩
  · have planned : (launch.outputs.zipIdx.mapM fun pair => do
        let c ← copy x.desc.shape position chunk pair.2
        c.dispatch x pair.1) =
          .ok ((steps x position chunk stride launch.outputs).map CopyStep.dispatch) := by
      rw [steps, List.map_map]
      refine Answer.mapM_eq_ok_map fun pair member => ?_
      have atOut : launch.outputs[pair.2]? = some pair.1 :=
        List.mk_mem_zipIdx_iff_getElem?.mp member
      exact Answer.bind_eq_ok.mpr ⟨_, cuts.copied (below atOut),
        (carries atOut).answers accepted movable⟩
    have byFamily : launch.planFamily = plan axis parts launch := by
      rw [Launch.planFamily, family]
    rw [byFamily, plan]
    refine Answer.bind_eq_ok.mpr ⟨x, atX, ?_⟩
    simp only [found, count_eq many room]
    exact Answer.bind_eq_ok.mpr ⟨whole, dim_eq_ok.mpr present,
      Answer.bind_eq_ok.mpr ⟨chunk, exactly_eq_ok.mpr divided, planned⟩⟩
  · intro s inSteps
    obtain ⟨j, out, atOut, rfl⟩ := mem_steps.mp inSteps
    exact ⟨_, _, _, _, carries atOut⟩
  · refine steps_apart movable.outputsApart fun out output => ?_
    obtain ⟨j, atOut⟩ := List.getElem?_of_mem output
    exact ((carries atOut).target_elements accepted movable).1
  · intro j desc coords atDesc within
    have inside : j < parts := by
      have small := (List.getElem?_eq_some_iff.mp atDesc).1
      rwa [List.length_replicate] at small
    obtain rfl := Option.some.inj ((stands inside).symm.trans atDesc)
    have atOut := List.getElem?_eq_getElem (outputs.symm ▸ inside)
    refine ⟨_, mem_steps.mpr ⟨j, _, atOut, rfl⟩, _, _, 0, coords, carries atOut,
      item_eq_ok.mp atX, within, rfl, ?_⟩
    rw [family, read]
    exact .slice found (Shape.getElem?_extents present) j coords

end Split

end OperatorGraph
