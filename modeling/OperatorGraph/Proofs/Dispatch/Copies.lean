import OperatorGraph.Proofs.Dispatch.Excuses
import OperatorGraph.Proofs.Inference.Rules

set_option autoImplicit false

namespace OperatorGraph

open Dispatch

/-- A copy is dispatched over as many threads as it has elements. -/
theorem StridedCopy.dispatch_ok {c : StridedCopy} {source target : Binding} {d : Dispatch}
    (planned : c.dispatch source target = .ok d) : ∃ threads kernel,
      Bounded.product? c.dims = some threads ∧
      (∀ value ∈ threads :: c.parameters, 0 ≤ value ∧ value < 0x1_0000_0000) ∧
      Shader.Kernel.binding [source.desc.dtype, target.desc.dtype] = .ok kernel ∧
      d = ⟨kernel.withBody body, (threads :: c.parameters).map (·.toNat.toUInt32),
        [source.span, target.span]⟩ := by
  simp only [dispatch, Answer.bind_eq_ok, exactly_eq_ok, Answer.pure_eq_ok, words_eq_ok] at planned
  obtain ⟨threads, product, _, ⟨small, rfl⟩, kernel, bound, rfl⟩ := planned
  exact ⟨threads, kernel, Bounded.product?_of_product product, small, bound, rfl⟩

theorem StridedCopy.dispatch_excused {launch : Launch} {c : StridedCopy} {source target : Binding}
    {threads : Int} (product : Bounded.product? c.dims = some threads)
    (bindsSource : Binds launch source.desc.dtype) (bindsTarget : Binds launch target.desc.dtype) :
    launch.Excused (c.dispatch source target) := by
  refine excused_bind_ok (exactly_eq_ok.mpr (Bounded.product_eq_ok product)) ?_
  refine excused_bind (excused_words _) fun _ _ => ?_
  refine excused_bind (excused_binding ?_) fun _ _ => excused_ok _
  simp only [List.forall_mem_cons]
  exact ⟨bindsSource, bindsTarget, by simp⟩

section

variable {launch : Launch} {inferred : List TensorDesc}
  (outputs : launch.outputs.length = inferred.length)
include outputs

section

variable (resolved : ∀ b ∈ launch.inputs, b.desc.shape.Resolved)
  (fits : ∀ desc ∈ inferred, desc.overflows = false)
  (nonempty : ∃ desc ∈ inferred, desc.shape.elementCount ≠ 0)

include fits in
theorem Strided.plan_excused {p : Strided}
    (infers : p.infer (launch.inputs.map Binding.desc) = .ok inferred) :
    launch.Excused (p.plan launch) := by
  obtain ⟨_, read, rfl, known⟩ := infer_ok infers
  obtain ⟨x, atX, rfl⟩ := input_of_desc read 0 rfl
  obtain ⟨out, atOut⟩ := item_answers launch.outputs 0 (by simp [outputs])
  have product := TensorDesc.product?_of_fits (d := x.desc.withShape ⟨p.size⟩) known
    (fits _ List.mem_cons_self)
  refine excused_bind_ok atX (excused_bind_ok atOut ?_)
  refine excused_bind ?_ fun _ _ => excused_ok _
  exact StridedCopy.dispatch_excused (c := p.copy) product (binds_input atX)
    (binds_output (mem_of_item atOut))

namespace Transposition

omit outputs in
/-- The copy of a transposition visits the dimensions that inference has permuted. -/
theorem copy_answers {x : TensorDesc} {perm : List Nat} {dims : List Int}
    (inside : ∀ axis ∈ perm, axis < x.shape.rank)
    (permuted : perm.mapM (Inference.dimAt x) = .ok dims) :
    ∃ strides, perm.mapM (item x.shape.contiguousStrides) = .ok strides ∧
      copy perm x.shape = .ok { StridedCopy.contiguous ⟨dims⟩ with sourceStrides := strides } := by
  have sizes : perm.mapM (item x.shape.dims) = .ok dims := by
    refine Answer.mapM_eq_ok_of (fun axis _ dim found => ?_) permuted
    exact item_eq_ok.mpr (Inference.dimAt_eq_ok.mp found)
  obtain ⟨strides, answered⟩ :
      ∃ strides, perm.mapM (item x.shape.contiguousStrides) = .ok strides := by
    refine Answer.mapM_answers fun axis member => item_answers _ axis ?_
    rw [Shape.length_contiguousStrides]
    exact inside axis member
  exact ⟨strides, answered, by simp [copy, sizes, answered]⟩

omit outputs in
theorem resolved_of_permuted {x : TensorDesc} {perm : List Nat} {dims : List Int}
    (permuted : perm.mapM (Inference.dimAt x) = .ok dims) (known : x.shape.Resolved) :
    Shape.Resolved ⟨dims⟩ := by
  intro dim member
  obtain ⟨i, found⟩ := List.getElem?_of_mem member
  have answer := Answer.getElem?_mapM permuted i
  rw [found, Option.map_some] at answer
  obtain ⟨axis, -, size⟩ := Option.map_eq_some_iff.mp answer
  exact known dim (List.mem_of_getElem? (Inference.dimAt_eq_ok.mp size))

include resolved fits in
theorem plan_excused {perm : List Nat}
    (infers : infer perm (launch.inputs.map Binding.desc) = .ok inferred) :
    launch.Excused (plan perm launch) := by
  obtain ⟨_, dims, read, inside, -, -, permuted, rfl⟩ := infer_ok infers
  obtain ⟨x, atX, rfl⟩ := input_of_desc read 0 rfl
  obtain ⟨out, atOut⟩ := item_answers launch.outputs 0 (by simp [outputs])
  obtain ⟨strides, -, copied⟩ := copy_answers inside permuted
  have known : Shape.Resolved ⟨dims⟩ := resolved_of_permuted permuted (resolved x (mem_of_item atX))
  have product := TensorDesc.product?_of_fits (d := x.desc.withShape ⟨dims⟩) known
    (fits _ List.mem_cons_self)
  refine excused_bind_ok atX (excused_bind_ok copied (excused_bind_ok atOut ?_))
  refine excused_bind ?_ fun _ _ => excused_ok _
  exact StridedCopy.dispatch_excused product (binds_input atX) (binds_output (mem_of_item atOut))

end Transposition

namespace Split

omit outputs in
theorem copy_eq_ok {s : Shape} {axis : Nat} {chunk : Int} {part : Nat} {c : StridedCopy} :
    copy s axis chunk part = .ok c ↔ ∃ stride, s.contiguousStrides[axis]? = some stride ∧
      Bounded.Fits (part * chunk) ∧ Bounded.Fits (part * chunk * stride) ∧
      c = { StridedCopy.contiguous ⟨s.dims.set axis chunk⟩ with
        sourceOffset := part * chunk * stride, sourceStrides := s.contiguousStrides } := by
  simp only [copy, Answer.bind_eq_ok, item_eq_ok, exactly_eq_ok, Bounded.mul_eq_ok,
    Answer.pure_eq_ok]
  constructor
  · rintro ⟨stride, found, _, ⟨start, rfl⟩, _, ⟨offset, rfl⟩, rfl⟩
    exact ⟨stride, found, start, offset, rfl⟩
  · rintro ⟨stride, found, start, offset, rfl⟩
    exact ⟨stride, found, _, ⟨start, rfl⟩, _, ⟨offset, rfl⟩, rfl⟩

section

variable {s : Shape} {position : Nat} {chunk : Int} (inside : position < s.rank)
  (positive : ∀ dim ∈ s.dims.set position chunk, 1 ≤ dim)
  (most : (s.dims.set position chunk).prod ≤ Bounded.greatest)
include inside positive most

omit outputs in
/-- The rows of one part are at most as many elements as the part. -/
theorem stride_of_part : ∃ stride, s.contiguousStrides[position]? = some stride ∧ 1 ≤ chunk ∧
    1 ≤ stride ∧ chunk * stride ≤ (s.dims.set position chunk).prod := by
  have atChunk : (s.dims.set position chunk)[position]? = some chunk :=
    List.getElem?_set_self inside
  have behind : (s.dims.set position chunk).drop (position + 1) = s.dims.drop (position + 1) :=
    List.drop_set_of_lt (by omega)
  have others : ∀ dim ∈ s.dims.drop (position + 1), 1 ≤ dim := fun dim member =>
    positive dim (List.mem_of_mem_drop (behind ▸ member))
  have one : 1 ≤ chunk := positive chunk (List.mem_of_getElem? atChunk)
  have tail : 1 ≤ (s.dims.drop (position + 1)).prod := List.one_le_prod others
  have least : (s.dims.drop (position + 1)).prod ≤ chunk * (s.dims.drop (position + 1)).prod :=
    le_mul_of_one_le_left (by omega) one
  have block := Shape.mul_prod_drop_le positive atChunk
  rw [behind] at block
  refine ⟨_, ?_, one, tail, block⟩
  rw [Shape.contiguousStrides, Shape.getElem?_strides inside,
    Shape.volume_eq_prod others (by omega)]

omit outputs in
/-- The offset of a part fits because that of the part before it has become a launch parameter. -/
theorem copy_answers (part : Nat) (source : Binding)
    (before : ∀ earlier, earlier + 1 = part → ∃ c out d,
      copy s position chunk earlier = .ok c ∧ c.dispatch source out = .ok d) :
    ∃ c, copy s position chunk part = .ok c ∧ c.dims = s.dims.set position chunk := by
  obtain ⟨stride, atStride, one, tail, block⟩ := stride_of_part inside positive most
  have offset : part * chunk * stride ≤ Bounded.greatest := by
    cases part with
    | zero =>
      rw [Nat.cast_zero, Int.zero_mul, Int.zero_mul]
      decide
    | succ earlier =>
      obtain ⟨c, out, d, copied, planned⟩ := before earlier rfl
      obtain ⟨_, again, -, -, rfl⟩ := copy_eq_ok.mp copied
      obtain rfl := Option.some.inj (atStride.symm.trans again)
      obtain ⟨threads, _, product, small, -, -⟩ := StridedCopy.dispatch_ok planned
      have size : threads = (s.dims.set position chunk).prod := Bounded.product?_eq_prod product
      have started := small (earlier * chunk * stride) (by simp [StridedCopy.parameters])
      have ran := small threads (by simp)
      have next : (earlier + 1 : Nat) * chunk * stride =
          earlier * chunk * stride + chunk * stride := by
        rw [Nat.cast_add, Nat.cast_one, Int.add_mul, Int.one_mul, Int.add_mul]
      rw [next]
      unfold Bounded.greatest
      omega
  have start : 0 ≤ part * chunk := Int.mul_nonneg (by omega) (by omega)
  have product : part * chunk ≤ part * chunk * stride := le_mul_of_one_le_right start tail
  exact ⟨_, copy_eq_ok.mpr ⟨stride, atStride, Bounded.fits_of_nonneg start (by omega),
    Bounded.fits_of_nonneg (by omega) offset, rfl⟩, rfl⟩

end

omit outputs in
theorem resolved_of_parts {s : Shape} {position count : Nat} {whole chunk : Int}
    (known : s.Resolved) (present : s.dims[position]? = some whole) (many : count ≠ 0)
    (equal : whole = count * chunk) : Shape.Resolved ⟨s.dims.set position chunk⟩ := by
  intro dim member
  rcases List.mem_or_eq_of_mem_set member with kept | rfl
  · exact known dim kept
  · have total := known whole (List.mem_of_getElem? present)
    rw [equal] at total
    exact nonneg_of_mul_nonneg_right total (by omega)

omit outputs in
theorem count_eq {count : Nat} (many : count ≠ 0) (room : count < Bounded.capacity) :
    Bounded.signed (max count 1 : Nat) = count := by
  rw [Nat.max_eq_left (by omega), Bounded.signed_of_lt_capacity room]

include resolved fits nonempty in
theorem plan_excused {axis : Int} {count : Nat}
    (infers : inferSplit axis count (launch.inputs.map Binding.desc) = .ok inferred) :
    launch.Excused (plan axis count launch) := by
  obtain ⟨_, position, whole, chunk, read, found, present, many, divided, equal, room, rfl⟩ :=
    inferSplit_ok infers
  obtain ⟨x, atX, rfl⟩ := input_of_desc read 0 rfl
  have known : x.desc.shape.Resolved := resolved x (mem_of_item atX)
  have inside : position < x.desc.shape.rank := Shape.axis?_lt found
  obtain ⟨desc, member, nonzero⟩ := nonempty
  obtain rfl := List.eq_of_mem_replicate member
  have parts := resolved_of_parts known present many equal
  have fit := fits _ member
  have positive := TensorDesc.one_le_of_written (d := x.desc.withShape _) parts fit nonzero
  have most := TensorDesc.prod_le_greatest (d := x.desc.withShape _) parts fit
  have product := TensorDesc.product?_of_fits (d := x.desc.withShape _) parts fit
  refine excused_bind_ok atX ?_
  simp only [found]
  refine excused_bind_ok (dim_eq_ok.mpr present) ?_
  rw [count_eq many room]
  refine excused_bind_ok (exactly_eq_ok.mpr divided) ?_
  refine excused_mapM fun index entry atEntry before => ?_
  obtain ⟨out, part⟩ := entry
  simp only [List.getElem?_zipIdx, Nat.zero_add, Option.map_eq_some_iff, Prod.mk.injEq] at atEntry
  obtain ⟨_, atOut, rfl, rfl⟩ := atEntry
  obtain ⟨c, copied, dims⟩ := copy_answers inside positive most index x fun earlier next => by
    have small : earlier < launch.outputs.length := by
      have last := (List.getElem?_eq_some_iff.mp atOut).1
      omega
    have atEarlier : launch.outputs.zipIdx[earlier]? = some (launch.outputs[earlier], earlier) := by
      simp [List.getElem?_zipIdx, List.getElem?_eq_getElem small]
    obtain ⟨d, planned⟩ := before earlier (by omega) _ atEarlier
    obtain ⟨c, copied, planned⟩ := Answer.bind_eq_ok.mp planned
    exact ⟨c, _, d, copied, planned⟩
  refine excused_bind_ok copied ?_
  exact StridedCopy.dispatch_excused (dims ▸ product) (binds_input atX)
    (binds_output (List.mem_of_getElem? atOut))

end Split

namespace Concat

section

variable {position : Nat} {a b : Shape} {dims : List Int}
  (joins : joinDims position a.dims b.dims = .ok dims) (rank : a.rank = b.rank)
include joins

omit outputs in
theorem joined_answers : joined position a b = .ok ⟨dims⟩ := by
  have same : (a.dims.zip b.dims).zipIdx.mapM (fun entry =>
      if entry.2 = position then exactly (Bounded.add entry.1.1 entry.1.2)
      else pure entry.1.1) = .ok dims := by
    refine Answer.mapM_eq_ok_of ?_ joins
    rintro ⟨⟨x, y⟩, i⟩ _ dim found
    by_cases here : i = position
    · simp only [here, if_true, Inference.exactly_eq_ok, exactly_eq_ok] at found ⊢
      exact found
    · simp only [here, if_false, Answer.pure_eq_ok] at found ⊢
      split at found
      · exact Except.ok.inj found
      · simp at found
  exact Answer.bind_eq_ok.mpr ⟨dims, same, rfl⟩

include rank

omit outputs in
/-- Each part is at most as large as the whole, along every axis. -/
theorem parts_le (knownA : a.Resolved) (knownB : b.Resolved) :
    List.Forall₂ (fun part whole => 0 ≤ part ∧ part ≤ whole) a.dims dims ∧
      List.Forall₂ (fun part whole => 0 ≤ part ∧ part ≤ whole) b.dims dims := by
  obtain ⟨length, each⟩ := joinDims_ok joins rank
  have sizes (i : Nat) (x y : Int) (atX : a.dims[i]? = some x) (atY : b.dims[i]? = some y) :
      ∃ dim, dims[i]? = some dim ∧ 0 ≤ x ∧ x ≤ dim ∧ 0 ≤ y ∧ y ≤ dim := by
    obtain ⟨dim, found, here, elsewhere⟩ := each i x y atX atY
    have first := knownA x (List.mem_of_getElem? atX)
    have second := knownB y (List.mem_of_getElem? atY)
    refine ⟨dim, found, first, ?_, second, ?_⟩ <;>
      · by_cases same : i = position
        · have sum := here same
          omega
        · have both := elsewhere same
          omega
  have lengths : a.dims.length = b.dims.length := rank
  constructor
  · refine Answer.forall₂_of_getElem? length.symm fun i x dim atX atDim => ?_
    have inside := (List.getElem?_eq_some_iff.mp atX).1
    obtain ⟨_, found, known, le, -⟩ := sizes i x _ atX (List.getElem?_eq_getElem (lengths ▸ inside))
    obtain rfl := Option.some.inj (found.symm.trans atDim)
    exact ⟨known, le⟩
  · refine Answer.forall₂_of_getElem? (lengths ▸ length.symm) fun i y dim atY atDim => ?_
    have inside := (List.getElem?_eq_some_iff.mp atY).1
    obtain ⟨_, found, -, -, known, le⟩ :=
      sizes i _ y (List.getElem?_eq_getElem (lengths ▸ inside)) atY
    obtain rfl := Option.some.inj (found.symm.trans atDim)
    exact ⟨known, le⟩

end

include resolved fits nonempty in
theorem plan_excused {axis : Int}
    (infers : infer axis (launch.inputs.map Binding.desc) = .ok inferred) :
    launch.Excused (plan axis launch) := by
  obtain ⟨_, _, position, dims, read, -, found, rank, joins, rfl⟩ := infer_ok infers
  obtain ⟨a, atA, rfl⟩ := input_of_desc read 0 rfl
  obtain ⟨b, atB, rfl⟩ := input_of_desc read 1 rfl
  obtain ⟨out, atOut⟩ := item_answers launch.outputs 0 (by simp [outputs])
  have knownA := resolved a (mem_of_item atA)
  obtain ⟨partsA, partsB⟩ := parts_le joins rank knownA (resolved b (mem_of_item atB))
  have known : Shape.Resolved ⟨dims⟩ := Bounded.nonneg_of_parts partsA
  obtain ⟨desc, member, nonzero⟩ := nonempty
  obtain rfl := List.mem_singleton.mp member
  have fit := fits _ member
  have positive := TensorDesc.one_le_of_written (d := a.desc.withShape _) known fit nonzero
  have most := TensorDesc.prod_le_greatest (d := a.desc.withShape _) known fit
  have product := TensorDesc.product?_of_fits (d := a.desc.withShape _) known fit
  have inside : position < a.desc.shape.rank := Shape.axis?_lt found
  have atSize : a.desc.shape.dims[position]? = some a.desc.shape.dims[position] :=
    List.getElem?_eq_getElem inside
  have within : position < dims.length := by
    rw [(joinDims_ok joins rank).1]
    exact inside
  have atWhole : dims[position]? = some dims[position] := List.getElem?_eq_getElem within
  have size := Answer.getElem?_of_forall₂ partsA atSize atWhole
  obtain ⟨stride, atStride, one, offset⟩ := Shape.offset_le positive most atWhole size.2
  have start : 0 ≤ a.desc.shape.dims[position] * stride := Int.mul_nonneg size.1 (by omega)
  refine excused_bind_ok atA (excused_bind_ok atB (excused_bind_ok atOut ?_))
  simp only [found]
  refine excused_bind_ok (joined_answers joins) ?_
  refine excused_bind ?_ fun _ _ => ?_
  · exact StridedCopy.dispatch_excused (c := copy _ _ 0) (Bounded.product?_of_le partsA product)
      (binds_input atA) (binds_output (mem_of_item atOut))
  refine excused_bind_ok (dim_eq_ok.mpr atSize) (excused_bind_ok (item_eq_ok.mpr atStride) ?_)
  refine excused_bind_ok (exactly_eq_ok.mpr (Bounded.mul_eq_ok.mpr
    ⟨Bounded.fits_of_nonneg start (offset.trans most), rfl⟩)) ?_
  refine excused_bind ?_ fun _ _ => excused_ok _
  exact StridedCopy.dispatch_excused (c := copy _ _ _) (Bounded.product?_of_le partsB product)
    (binds_input atB) (binds_output (mem_of_item atOut))

end Concat

namespace Gather

omit outputs in
theorem resolved_of_gathered {table indices : Shape} (inTable : table.Resolved)
    (inIndices : indices.Resolved) (position : Nat) : Shape.Resolved
      ⟨table.dims.take position ++ indices.dims ++ table.dims.drop (position + 1)⟩ := by
  intro dim member
  simp only [List.mem_append] at member
  rcases member with (before | picked) | behind
  · exact inTable dim (List.mem_of_mem_take before)
  · exact inIndices dim picked
  · exact inTable dim (List.mem_of_mem_drop behind)

omit outputs in
/-- Where the result has a product, so have the rows before the axis, the indices and what is
behind the axis, one after the other. -/
theorem products_of_whole {before picks behind : List Int}
    (positive : ∀ dim ∈ before ++ picks ++ behind, 1 ≤ dim)
    (whole : Bounded.product? (before ++ picks ++ behind) = some (before ++ picks ++ behind).prod) :
    Bounded.product? before = some before.prod ∧ Bounded.product? picks = some picks.prod ∧
      Bounded.product? behind = some behind.prod ∧
      (Bounded.mul before.prod picks.prod >>= (Bounded.mul · behind.prod)) =
        .ok (before.prod * picks.prod * behind.prod) := by
  have front : ∀ dim ∈ before ++ picks, 1 ≤ dim := fun dim member =>
    positive dim (List.mem_append_left _ member)
  have nonneg {dims : List Int} (some : ∀ dim ∈ dims, 1 ≤ dim) : ∀ dim ∈ dims, 0 ≤ dim :=
    fun dim member => Int.le_trans (by decide) (some dim member)
  obtain ⟨picked, inner⟩ := Bounded.product?_split whole
  obtain ⟨outer, middle⟩ := Bounded.product?_split picked
  have fitsWhole := Bounded.fits_of_product? whole
  have fitsPicked := Bounded.fits_of_product? picked
  rw [List.prod_append] at fitsPicked
  rw [List.prod_append, List.prod_append] at fitsWhole
  refine ⟨outer, middle (fun dim member => front dim (List.mem_append_left _ member))
    fun dim member => nonneg front dim (List.mem_append_right _ member), inner front
      fun dim member => nonneg positive dim (List.mem_append_right _ member), ?_⟩
  exact Answer.bind_eq_ok.mpr ⟨_, Bounded.mul_eq_ok.mpr ⟨fitsPicked, rfl⟩,
    Bounded.mul_eq_ok.mpr ⟨fitsWhole, rfl⟩⟩

include resolved fits nonempty in
theorem plan_excused {axis : Int}
    (infers : inferGather axis (launch.inputs.map Binding.desc) = .ok inferred) :
    launch.Excused (plan axis launch) := by
  obtain ⟨_, _, position, read, found, rfl⟩ := inferGather_ok infers
  obtain ⟨table, atTable, rfl⟩ := input_of_desc read 0 rfl
  obtain ⟨indices, atIndices, rfl⟩ := input_of_desc read 1 rfl
  obtain ⟨out, atOut⟩ := item_answers launch.outputs 0 (by simp [outputs])
  have known := resolved_of_gathered (resolved table (mem_of_item atTable))
    (resolved indices (mem_of_item atIndices)) position
  obtain ⟨desc, member, nonzero⟩ := nonempty
  obtain rfl := List.mem_singleton.mp member
  have fit := fits _ member
  have positive := TensorDesc.one_le_of_written (d := table.desc.withShape _) known fit nonzero
  have whole := TensorDesc.product?_of_fits (d := table.desc.withShape _) known fit
  obtain ⟨outer, picks, inner, threads⟩ := products_of_whole positive whole
  have count : indices.desc.shape.elementCount = indices.desc.shape.dims.prod :=
    Bounded.satProduct_of_checked picks
  rw [← count] at threads
  obtain ⟨size, atSize⟩ := item_answers table.desc.shape.dims position (Shape.axis?_lt found)
  refine excused_bind_ok atTable (excused_bind_ok atIndices (excused_bind_ok atOut ?_))
  by_cases integers : indices.desc.dtype = .i32
  · simp only [integers, ne_eq, not_true_eq_false, if_false, found]
    refine excused_bind_ok (exactly_eq_ok.mpr (Bounded.product_eq_ok outer)) ?_
    refine excused_bind_ok (exactly_eq_ok.mpr (Bounded.product_eq_ok inner)) ?_
    refine excused_bind_ok (exactly_eq_ok.mpr threads) (excused_bind_ok atSize ?_)
    refine excused_bind (excused_words _) fun _ _ => ?_
    refine excused_bind (excused_binding ?_) fun _ _ => ?_
    · simp only [List.forall_mem_cons]
      exact ⟨binds_input atTable, .inr (.inl rfl), binds_output (mem_of_item atOut), by simp⟩
    exact excused_bind (excused_bindableType (binds_output (mem_of_item atOut))) fun _ _ =>
      excused_ok _
  · simp only [integers, ne_eq, not_false_eq_true, if_true]
    exact excused_missing launch _

end Gather

end

end

end OperatorGraph
