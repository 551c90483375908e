import OperatorGraph.Proofs.Dispatch.Carrying

set_option autoImplicit false

namespace OperatorGraph

open Dispatch Shader RowMajor

namespace Concat

/-- A part carries its elements to where they lie in the whole, shifted along the axis. -/
theorem copy_carries {part whole : Shape} (le : Shape.Part part.dims whole.dims) {position : Nat}
    (elsewhere : ∀ i ≠ position, whole.dims[i]? = part.dims[i]?) {own total stride : Int}
    (atPart : part.dims[position]? = some own) (atWhole : whole.dims[position]? = some total)
    (shift : Nat) (room : own + shift ≤ total)
    (atStride : whole.contiguousStrides[position]? = some stride) :
    (copy part whole (shift * stride)).Carries part.extents whole.extents id
      (fun coords => coords.modify position (· + shift)) := by
  have same : whole.dims.length = part.dims.length := le.le.length_eq.symm
  have step := (Shape.Part.self le.positive le.few).stride_small stride
    (List.mem_of_getElem? atStride)
  have strides : whole.contiguousStrides.map Int.toNat = RowMajor.strides whole.extents :=
    (Shape.Part.self le.positive le.few).map_strides
  have atNat : (RowMajor.strides whole.extents)[position]? = some stride.toNat := by
    rw [← strides, List.getElem?_map, atStride, Option.map_some]
  refine ⟨fun coords inPart => ⟨inPart, ?_⟩, fun coords inPart => ⟨?_, ?_⟩,
    fun a b _ _ equal => ?_⟩
  · show 0 + along coords ((Shape.strides part.dims).map Int.toNat) = _
    rw [le.map_strides, Nat.zero_add, RowMajor.position, id]
    rfl
  · refine Inside.modify inPart ?_ (fun i other => ?_) fun coord dim atCoord atDim => ?_
    · show whole.extents.length = part.extents.length
      simpa [Shape.extents] using same
    · show whole.extents[i]? = part.extents[i]?
      rw [Shape.extents, List.getElem?_map, elsewhere i other, Shape.extents, List.getElem?_map]
    · rw [Shape.getElem?_extents atWhole] at atDim
      obtain rfl := Option.some.inj atDim
      have below : coord < own.toNat := inPart.lt atCoord (Shape.getElem?_extents atPart)
      omega
  · show (shift * stride : Int).toNat + along coords (whole.contiguousStrides.map Int.toNat) = _
    have length : position < coords.length := by
      rw [inPart.length]
      show position < part.extents.length
      rw [Shape.length_extents]
      exact (List.getElem?_eq_some_iff.mp atPart).1
    rw [RowMajor.position, along_modify atNat length, strides, Int.toNat_mul (by omega) step.1,
      Int.toNat_natCast]
  · have back := congrArg (fun coords => coords.modify position (· - shift)) equal
    simpa only [modify_add_sub] using back

/-- A whole of two parts, which ends along one axis where they end together. -/
structure Joins (position : Nat) (a b whole : Shape) (size other stride : Int) : Prop where
  partA : Shape.Part a.dims whole.dims
  partB : Shape.Part b.dims whole.dims
  atSize : a.dims[position]? = some size
  atOther : b.dims[position]? = some other
  atTotal : whole.dims[position]? = some (size + other)
  elsewhere : ∀ i ≠ position, whole.dims[i]? = a.dims[i]? ∧ whole.dims[i]? = b.dims[i]?
  atStride : whole.contiguousStrides[position]? = some stride
  offset : 0 ≤ size * stride ∧ size * stride < 2 ^ 32

theorem joins_of_dims {position : Nat} {a b : Shape} {dims : List Int}
    (joined : joinDims position a.dims b.dims = .ok dims) (rank : a.rank = b.rank)
    (inside : position < a.rank) (knownA : a.Resolved) (knownB : b.Resolved)
    (positive : ∀ dim ∈ dims, 1 ≤ dim) (few : dims.prod < 2 ^ 32) :
    ∃ size other stride, Joins position a b ⟨dims⟩ size other stride := by
  obtain ⟨partsA, partsB⟩ := parts_le joined rank knownA knownB
  obtain ⟨length, each⟩ := joinDims_ok joined rank
  have lengths : a.dims.length = b.dims.length := rank
  have here : position < a.dims.length := inside
  have atSize := List.getElem?_eq_getElem here
  have atOther := List.getElem?_eq_getElem (lengths ▸ here)
  obtain ⟨total, atTotal, sum, -⟩ := each position _ _ atSize atOther
  rw [sum rfl] at atTotal
  have sizeKnown := knownA _ (List.mem_of_getElem? atSize)
  have otherKnown := knownB _ (List.mem_of_getElem? atOther)
  obtain ⟨stride, atStride, one, most⟩ := Shape.offset_le positive
    (by unfold Bounded.greatest; omega) atTotal (Int.le_add_of_nonneg_right otherKnown)
  refine ⟨_, _, stride, ⟨partsA, positive, few⟩, ⟨partsB, positive, few⟩, atSize, atOther, atTotal,
    fun i different => ?_, atStride, Int.mul_nonneg sizeKnown (by omega),
    Int.lt_of_le_of_lt most few⟩
  rcases Nat.lt_or_ge i dims.length with small | large
  · obtain ⟨dim, atDim, -, both⟩ := each i _ _ (List.getElem?_eq_getElem (by omega))
      (List.getElem?_eq_getElem (by omega))
    obtain ⟨first, second⟩ := both different
    rw [atDim, List.getElem?_eq_getElem (length ▸ small),
      List.getElem?_eq_getElem (lengths ▸ length ▸ small)]
    exact ⟨congrArg _ first, congrArg _ second⟩
  · rw [List.getElem?_eq_none large, List.getElem?_eq_none (by omega),
      List.getElem?_eq_none (by omega)]
    exact ⟨rfl, rfl⟩

namespace Joins

variable {position : Nat} {a b whole : Shape} {size other stride : Int}
  (joins : Joins position a b whole size other stride)
include joins

theorem known : 0 ≤ size ∧ 0 ≤ other :=
  ⟨joins.partA.known size (List.mem_of_getElem? joins.atSize),
    joins.partB.known other (List.mem_of_getElem? joins.atOther)⟩

theorem front_carries : (copy a whole 0).Carries a.extents whole.extents id id := by
  have known := joins.known
  have carries := copy_carries joins.partA (fun i other => (joins.elsewhere i other).1) joins.atSize
    joins.atTotal 0 (by omega) joins.atStride
  have still : (fun coords : List Nat => coords.modify position (· + 0)) = id :=
    funext fun coords => List.modify_id position coords
  rwa [Nat.cast_zero, Int.zero_mul, still] at carries

theorem back_carries : (copy b whole (size * stride)).Carries b.extents whole.extents id
    (fun coords => coords.modify position (· + size.toNat)) := by
  have known := joins.known
  have carries := copy_carries joins.partB (fun i other => (joins.elsewhere i other).2)
    joins.atOther joins.atTotal size.toNat (by omega) joins.atStride
  rwa [Int.toNat_of_nonneg known.1] at carries

theorem apart {x y out : Binding} :
    CopyStep.Apart ⟨copy a whole 0, x, out⟩ ⟨copy b whole (size * stride), y, out⟩ := by
  intro _ coords others insideFront insideBack equal
  obtain ⟨withinFront, atFront⟩ := joins.front_carries.writes coords insideFront
  obtain ⟨withinBack, atBack⟩ := joins.back_carries.writes others insideBack
  have same := position_injective withinFront withinBack (atFront.symm.trans (equal.trans atBack))
  have inside := (List.getElem?_eq_some_iff.mp joins.atSize).1
  obtain ⟨k, atK⟩ : ∃ k, coords[position]? = some k :=
    ⟨_, List.getElem?_eq_getElem (by rw [insideFront.length]; simpa [StridedCopy.extents])⟩
  have small : k < size.toNat := insideFront.lt atK (Shape.getElem?_extents joins.atSize)
  have entries := congrArg (·[position]?) same
  simp only [id, List.getElem?_modify, if_true, atK, Option.map_eq_map] at entries
  obtain ⟨l, -, shifted⟩ := Option.map_eq_some_iff.mp entries.symm
  omega

variable {coords : List Nat} (within : Inside coords whole.extents) {k : Nat}
  (here : coords[position]? = some k)
include within here

theorem inside_front (before : k < size.toNat) : Inside coords a.extents := by
  have inside : Inside (coords.modify position id) a.extents := by
    refine within.modify ?_ (fun i different => ?_) fun coord dim atCoord atDim => ?_
    · rw [Shape.length_extents, Shape.length_extents]
      exact joins.partA.le.length_eq
    · rw [Shape.extents, Shape.extents, List.getElem?_map, List.getElem?_map,
        (joins.elsewhere i different).1]
    · obtain rfl := Option.some.inj (atCoord.symm.trans here)
      obtain rfl := Option.some.inj (atDim.symm.trans (Shape.getElem?_extents joins.atSize))
      exact before
  rwa [List.modify_id] at inside

theorem inside_back (behind : size.toNat ≤ k) :
    Inside (coords.modify position (· - size.toNat)) b.extents := by
  have known := joins.known
  have below := within.lt here (Shape.getElem?_extents joins.atTotal)
  refine within.modify ?_ (fun i different => ?_) fun coord dim atCoord atDim => ?_
  · rw [Shape.length_extents, Shape.length_extents]
    exact joins.partB.le.length_eq
  · rw [Shape.extents, Shape.extents, List.getElem?_map, List.getElem?_map,
      (joins.elsewhere i different).2]
  · obtain rfl := Option.some.inj (atCoord.symm.trans here)
    obtain rfl := Option.some.inj (atDim.symm.trans (Shape.getElem?_extents joins.atOther))
    omega

omit joins within in
theorem back_again (behind : size.toNat ≤ k) :
    (coords.modify position (· - size.toNat)).modify position (· + size.toNat) = coords := by
  refine modify_sub_add fun coord atCoord => ?_
  obtain rfl := Option.some.inj (atCoord.symm.trans here)
  exact behind

end Joins

/-- A concatenation brings every element to its place. -/
theorem rearranged {launch : Launch} {inferred : List TensorDesc}
    (accepted : launch.Accepted inferred) (movable : launch.Movable) {axis : Int}
    (family : launch.param = .concat axis) :
    ∃ ds, launch.plan = .ok ds ∧ launch.Rearranges inferred ds := by
  obtain ⟨-, infers⟩ := Operator.infer_ok accepted.infers
  rw [family] at infers
  obtain ⟨_, _, position, dims, read, -, found, rank, joined, rfl⟩ := infer_ok infers
  obtain ⟨a, atA, rfl⟩ := input_of_desc read 0 rfl
  obtain ⟨b, atB, rfl⟩ := input_of_desc read 1 rfl
  obtain ⟨out, atOut⟩ := item_answers launch.outputs 0 (by simp [accepted.outputs.length_eq])
  have inputA := mem_of_item atA
  have inputB := mem_of_item atB
  have knownA := movable.resolved a (List.mem_append_left _ inputA)
  have knownB := movable.resolved b (List.mem_append_left _ inputB)
  have known : Shape.Resolved ⟨dims⟩ :=
    Bounded.nonneg_of_parts (parts_le joined rank knownA knownB).1
  refine Launch.rearranges_of_filled accepted movable (fun _ => by rw [family]; rfl)
    (List.forall_mem_singleton.mpr ⟨a, inputA, rfl⟩) (List.forall_mem_singleton.mpr known) ?_
  rintro ⟨desc, member, written⟩
  obtain rfl := List.mem_singleton.mp member
  have target : Shape.Part dims dims :=
    Launch.part_of_output accepted movable (item_eq_ok.mp atOut) rfl known written
  obtain ⟨size, other, stride, joins⟩ := joins_of_dims joined rank (Shape.axis?_lt found) knownA
    knownB target.positive target.few
  have zero : (0 : Int) ≤ 0 ∧ (0 : Int) < 2 ^ 32 := by decide
  let front : CopyStep := ⟨copy a.desc.shape ⟨dims⟩ 0, a, out⟩
  let back : CopyStep := ⟨copy b.desc.shape ⟨dims⟩ (size * stride), b, out⟩
  have step {x : Binding} (input : x ∈ launch.inputs) (part : Shape.Part x.desc.shape.dims dims)
      {offset : Int} (small : 0 ≤ offset ∧ offset < 2 ^ 32) {goal : List Nat → List Nat}
      (carries : (copy x.desc.shape ⟨dims⟩ offset).Carries x.desc.shape.extents
        (Shape.extents ⟨dims⟩) id goal) :
      CopyStep.Carries ⟨copy x.desc.shape ⟨dims⟩ offset, x, out⟩ launch
        [a.desc.withShape ⟨dims⟩] 0 (a.desc.withShape ⟨dims⟩) id goal :=
    ⟨input, item_eq_ok.mp atOut, rfl, known, written, carries, Shape.length_strides _,
      (Shape.length_strides _).trans part.le.length_eq.symm, rfl, part.product?,
      StridedCopy.words_of_parts part.prod_small (Nat.le_of_lt (movable.short x input)) zero small
        part.dim_small part.stride_small target.stride_small⟩
  have frontCarries := step inputA joins.partA zero joins.front_carries
  have backCarries := step inputB joins.partB joins.offset joins.back_carries
  have offset : exactly (Bounded.mul size stride) = .ok (size * stride) := by
    obtain ⟨start, small⟩ := joins.offset
    exact exactly_eq_ok.mpr (Bounded.mul_eq_ok.mpr
      ⟨Bounded.fits_of_nonneg start (by unfold Bounded.greatest; omega), rfl⟩)
  refine ⟨[front, back], ?_, Launch.filled_of_carries accepted movable ?_ ?_ ?_⟩
  · rw [Launch.planFamily, family]
    show plan axis launch = _
    refine Answer.bind_eq_ok.mpr ⟨a, atA, Answer.bind_eq_ok.mpr ⟨b, atB,
      Answer.bind_eq_ok.mpr ⟨out, atOut, ?_⟩⟩⟩
    simp only [found]
    exact Answer.bind_eq_ok.mpr ⟨_, joined_answers joined,
      Answer.bind_eq_ok.mpr ⟨_, frontCarries.answers accepted movable,
        Answer.bind_eq_ok.mpr ⟨_, dim_eq_ok.mpr joins.atSize, Answer.bind_eq_ok.mpr ⟨_,
          item_eq_ok.mpr joins.atStride, Answer.bind_eq_ok.mpr ⟨_, offset,
            Answer.bind_eq_ok.mpr ⟨_, backCarries.answers accepted movable, rfl⟩⟩⟩⟩⟩⟩
  · rintro s (_ | ⟨_, _ | ⟨_, ⟨⟩⟩⟩)
    · exact ⟨_, _, _, _, frontCarries⟩
    · exact ⟨_, _, _, _, backCarries⟩
  · exact List.pairwise_pair.mpr joins.apart
  · intro j desc coords stands within
    obtain ⟨rfl, rfl⟩ := eq_of_getElem?_singleton stands
    have inside := (List.getElem?_eq_some_iff.mp joins.atTotal).1
    obtain ⟨k, here⟩ : ∃ k, coords[position]? = some k :=
      ⟨_, List.getElem?_eq_getElem (by rw [within.length, Shape.length_extents]; exact inside)⟩
    rw [family, read]
    rcases Nat.lt_or_ge k size.toNat with before | behind
    · exact ⟨front, by simp, _, _, 0, coords, frontCarries, item_eq_ok.mp atA,
        joins.inside_front within here before, rfl,
        .front found (Shape.getElem?_extents joins.atSize) here before⟩
    · exact ⟨back, by simp, _, _, 1, _, backCarries, item_eq_ok.mp atB,
        joins.inside_back within here behind, Joins.back_again here behind,
        .back found (Shape.getElem?_extents joins.atSize) here behind⟩

end Concat

end OperatorGraph
