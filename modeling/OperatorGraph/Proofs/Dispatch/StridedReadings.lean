import OperatorGraph.Proofs.Dispatch.Carrying
import OperatorGraph.Proofs.Dispatch.Programs
import OperatorGraph.Proofs.Inference.StridedBounds
import OperatorGraph.Proofs.Shader.Grids

set_option autoImplicit false

namespace OperatorGraph

open Dispatch Shader RowMajor

theorem Shader.size_of_bindableType {dtype : ElementType} {type : String}
    (binds : bindableType dtype = .ok type) : dtype.size = 4 := by
  cases dtype <;> simp_all [bindableType, ElementType.shaderType?, ElementType.size]

/-- What is dispatched for a copy, and what is known of it then. -/
theorem StridedCopy.dispatched_of_ok {c : StridedCopy} {source target : Binding} {d : Dispatch}
    (planned : c.dispatch source target = .ok d) :
    (∃ kernel, d = c.dispatched kernel source.span target.span) ∧
      Bounded.product? c.dims = some c.dims.prod ∧
      (∀ value ∈ c.dims.prod :: c.parameters, 0 ≤ value ∧ value < 0x1_0000_0000) ∧
      source.desc.dtype.size = 4 ∧ target.desc.dtype.size = 4 := by
  obtain ⟨threads, kernel, product, words, bound, rfl⟩ := dispatch_ok planned
  obtain rfl := Bounded.product?_eq_prod product
  obtain ⟨types, binds, -⟩ := Kernel.binding_eq_ok.mp bound
  simp only [List.mapM_cons, Answer.bind_eq_ok] at binds
  obtain ⟨_, first, _, ⟨_, second, -⟩, -⟩ := binds
  exact ⟨⟨kernel, rfl⟩, product, words, size_of_bindableType first, size_of_bindableType second⟩

theorem Binding.known_elements {b : Binding} (width : b.desc.dtype.size = 4)
    (sized : b.bytes = b.desc.byteSize?.getD 0) (known : b.desc.shape.Resolved)
    (fits : b.desc.overflows = false) : (b.span.elements : Int) = b.desc.shape.dims.prod := by
  have count := TensorDesc.elementCount_of_fits known fits
  have nonneg : 0 ≤ b.desc.shape.dims.prod := List.prod_nonneg known
  rw [TensorDesc.byteSize?_of_resolved known fits, Option.getD_some, width, count] at sized
  show ((b.bytes / 4 : Nat) : Int) = _
  rw [sized, Nat.mul_div_cancel _ (by decide), Int.toNat_of_nonneg nonneg]

namespace Strided

/-- The element that the thread of this number reads: the one that its coordinate names, or what the
last 32 bits of a longer index name. -/
def wordIndex (p : Strided) (n : Nat) : Nat :=
  (p.index (coordinate (p.size.map Int.toNat) n)).toNat % 2 ^ 32

/-- Dispatches that bring a reading about. -/
structure Read (p : Strided) (source target : Span) (ds : List Dispatch) : Prop where
  /-- Every thread reads one element of the source and writes the target at its own number. -/
  moves : ∀ d ∈ ds, ∀ n < d.threads, d.Moves n source (p.wordIndex n) target n
  /-- Every element of the target is written by one thread. -/
  once : ∀ w < target.elements, ∃! writer : Nat × Nat, ∃ d r,
    ds[writer.1]? = some d ∧ d.Moves writer.2 source r target w
  /-- No grid over a target that a device can bind runs a thread twice. -/
  runs : ∀ d ∈ ds, target.len < 2 ^ 32 → ∀ n < d.threads,
    (Kernel.invocations (Kernel.workgroups d.threads)).count (UInt32.ofNat n) = 1

section

variable {p : Strided} {s : Shape} (within : p.InBounds s)
include within

theorem index_nonneg (coords : List Nat) : 0 ≤ p.index coords := by
  have offset := within.offset
  rw [index, distance_eq_along within.strides]
  omega

theorem copy_reads (coords : List Nat) : p.copy.reads coords = (p.index coords).toNat := by
  have offset := within.offset
  show p.offset.toNat + along coords (p.stride.map Int.toNat) = _
  rw [index, distance_eq_along within.strides]
  omega

theorem wordIndex_lt {n : Nat} (below : n < (p.size.map Int.toNat).prod) :
    (p.wordIndex n : Int) < s.dims.prod := by
  have inside := within.inside _ (inside_coordinate below)
  have nonneg := index_nonneg within (coordinate (p.size.map Int.toNat) n)
  have least : p.wordIndex n ≤ (p.index (coordinate (p.size.map Int.toNat) n)).toNat :=
    Nat.mod_le _ _
  omega

end

theorem copy_writes {p : Strided} (part : Shape.Part p.size p.size) {n : Nat}
    (below : n < (p.size.map Int.toNat).prod) :
    p.copy.writes (coordinate (p.size.map Int.toNat) n) = n := by
  show 0 + along (coordinate (p.size.map Int.toNat) n) ((Shape.strides p.size).map Int.toNat) = n
  rw [part.map_strides, Nat.zero_add]
  exact position_coordinate below

section

variable {p : Strided} {source out : Binding} {d : Dispatch}
  (within : p.InBounds source.desc.shape) (planned : p.copy.dispatch source out = .ok d)
include within planned

theorem threads_of_planned :
    d.threads = (p.size.map Int.toNat).prod ∧ (p.size.map Int.toNat).prod < 2 ^ 32 ∧
      d.info[0]? = some (UInt32.ofNat (p.size.map Int.toNat).prod) := by
  obtain ⟨⟨kernel, rfl⟩, -, words, -⟩ := StridedCopy.dispatched_of_ok planned
  have word := words p.size.prod (by simp [copy, StridedCopy.contiguous])
  have count := Bounded.cast_prod_toNat within.sizes
  have number : p.size.prod.toNat = (p.size.map Int.toNat).prod := by omega
  have small : (p.size.map Int.toNat).prod < 2 ^ 32 := by omega
  refine ⟨?_, small, congrArg (fun threads => some (UInt32.ofNat threads)) number⟩
  show (UInt32.ofNat p.size.prod.toNat).toNat = _
  rw [number, UInt32.toNat_ofNat_of_lt' small]

/-- Each thread of a planned reading reads inside the input, and writes its own element. -/
theorem moves_of_planned (input : (source.span.elements : Int) = source.desc.shape.dims.prod)
    (output : out.span.elements = (p.size.map Int.toNat).prod) (short : d.info.length ≤ 2 ^ 32)
    {n : Nat} (below : n < (p.size.map Int.toNat).prod) :
    d.Moves n source.span (p.wordIndex n) out.span n := by
  obtain ⟨count, small, limit⟩ := threads_of_planned within planned
  obtain ⟨⟨kernel, rfl⟩, -, words, -⟩ := StridedCopy.dispatched_of_ok planned
  have dims : ∀ dim ∈ p.size, dim < 0x1_0000_0000 := fun dim member =>
    (words dim (by simp [StridedCopy.parameters, copy, StridedCopy.contiguous, member])).2
  have informs : p.copy.Informs (p.copy.dispatched kernel source.span out.span).info := by
    have strides : (Shape.strides p.size).length = p.size.length := Shape.length_strides p.size
    refine StridedCopy.informs_parameters p.size.prod within.paired.symm strides dims ?_
    have length : (p.copy.dispatched kernel source.span out.span).info.length =
        4 + (p.size.length + p.stride.length + (Shape.strides p.size).length) := by
      simp [StridedCopy.dispatched, StridedCopy.parameters, copy, StridedCopy.contiguous,
        Shape.contiguousStrides]
      omega
    have paired := within.paired
    show 4 + 3 * p.size.length ≤ 2 ^ 32
    omega
  have part : Shape.Part p.size p.size := by
    have exact := Bounded.cast_prod_toNat within.sizes
    exact .self (Bounded.one_le_of_prod_ne_zero within.sizes (by omega)) (by omega)
  have reads := wordIndex_lt within below
  have writes : p.copy.writes (coordinate p.copy.extents n) = n := copy_writes part below
  have words : p.copy.reads (coordinate p.copy.extents n) % 2 ^ 32 = p.wordIndex n :=
    congrArg (· % 2 ^ 32) (copy_reads within _)
  refine ⟨count.symm ▸ below, rfl, by omega, output ▸ below, ?_⟩
  intro F m arrays sizeSource sizeTarget
  have readsInside : p.copy.reads (coordinate p.copy.extents n) % 2 ^ 32 < arrays.size 1 := by
    omega
  have writesInside : p.copy.writes (coordinate p.copy.extents n) < arrays.size 2 := by
    omega
  have ends := StridedCopy.body_ends_words (k := kernel.withBody StridedCopy.body) informs m below
    (by omega) readsInside writesInside (by omega)
  rw [writes, words] at ends
  obtain ⟨t, ran, moved, accesses⟩ := Kernel.runThread_below
    (k := kernel.withBody StridedCopy.body) rfl limit small m below ends
  exact ⟨t, ran, accesses, moved⟩

/-- The only dispatch of a reading that writes something. -/
theorem read_of_planned (input : (source.span.elements : Int) = source.desc.shape.dims.prod)
    (output : out.span.elements = (p.size.map Int.toNat).prod) (short : d.info.length ≤ 2 ^ 32) :
    p.Read source.span out.span [d] := by
  obtain ⟨count, small, -⟩ := threads_of_planned within planned
  have moves : ∀ n < d.threads, d.Moves n source.span (p.wordIndex n) out.span n := fun n below =>
    moves_of_planned within planned input output short (count ▸ below)
  refine ⟨List.forall_mem_singleton.mpr moves, fun w inside => ?_,
    List.forall_mem_singleton.mpr fun bindable n below => ?_⟩
  · have written := moves w (by omega)
    refine ⟨(0, w), ⟨d, _, rfl, written⟩, ?_⟩
    rintro ⟨k, n⟩ ⟨other, r, found, again⟩
    obtain ⟨rfl, rfl⟩ := eq_of_getElem?_singleton found
    have own := (moves n again.below).unique again
    rw [own.2]
  · have few : d.threads ≤ Kernel.lastUnwrapped := by
      have bytes : out.span.elements = out.span.len / 4 := rfl
      rw [Kernel.lastUnwrapped_eq]
      omega
    rw [Kernel.count_invocations (by omega) below, if_neg fun both => Nat.not_lt.mpr few both.1]

end

section

variable {p : Strided} {launch : Launch} {inferred : List TensorDesc} {source : Binding}
  (family : launch.param = .asStrided p) (input : launch.inputs = [source])
  (known : source.desc.shape.Resolved) (fits : source.desc.overflows = false)
  (accepted : launch.Accepted inferred)
include family input known fits accepted

theorem inBounds_of_accepted : p.InBounds source.desc.shape ∧
    inferred = [source.desc.withShape ⟨p.size⟩] := by
  obtain ⟨-, infers⟩ := Operator.infer_ok accepted.infers
  rw [family, input] at infers
  exact (infer_eq_ok known (TensorDesc.prod_le_greatest known fits)).mp infers

theorem read_of_accepted {ds : List Dispatch} (planned : launch.plan = .ok ds)
    (short : ∀ d ∈ ds, d.info.length ≤ 2 ^ 32) :
    ∃ out, launch.outputs = [out] ∧ p.Read source.span out.span ds := by
  obtain ⟨within, rfl⟩ := inBounds_of_accepted family input known fits accepted
  obtain ⟨out, rest, ⟨-, -, count⟩, none, outputs⟩ :=
    List.forall₂_cons_right_iff.mp accepted.outputs
  obtain rfl := List.forall₂_nil_right_iff.mp none
  refine ⟨out, outputs, ?_⟩
  have plain : ∀ index, launch.param.acceptedFormats index = [.rowMajor] := fun _ => by
    rw [family]
    rfl
  have kept : ∀ desc ∈ [source.desc.withShape ⟨p.size⟩], ∃ b ∈ launch.inputs,
      desc.format = b.desc.format :=
    List.forall_mem_singleton.mpr ⟨source, by simp [input], rfl⟩
  cases written : launch.outputs.all (·.bytes = 0) with
  | true =>
    rw [Launch.plan, accepted.untiled plain kept] at planned
    simp only [written, if_true, Except.ok.injEq] at planned
    subst planned
    have empty : out.span.elements = 0 := by
      have bytes : out.bytes = 0 := by simpa [outputs] using written
      show out.bytes / 4 = 0
      omega
    exact ⟨by simp, fun w inside => by omega, by simp⟩
  | false =>
    rw [accepted.plan_eq plain kept written, Launch.planFamily, family] at planned
    simp only [plan, input, outputs, Answer.bind_eq_ok, item_eq_ok, List.getElem?_cons_zero,
      Option.some.injEq, Answer.pure_eq_ok] at planned
    obtain ⟨_, rfl, _, rfl, d, dispatched, rfl⟩ := planned
    obtain ⟨-, product, -, widthSource, widthTarget⟩ := StridedCopy.dispatched_of_ok dispatched
    have sized := accepted.sized
    rw [input, outputs] at sized
    refine read_of_planned within dispatched ?_ ?_ (short d (List.mem_singleton_self d))
    · exact Binding.known_elements widthSource (sized _ (by simp)) known fits
    · have some : out.bytes ≠ 0 := by simpa [outputs] using written
      have elements := Binding.written_elements widthTarget (sized _ (by simp)) some
      have exact := Bounded.cast_prod_toNat within.sizes
      have counted : (source.desc.withShape ⟨p.size⟩).shape.elementCount = p.size.prod :=
        Bounded.satProduct_of_checked product
      rw [count, counted] at elements
      omega

end

/-- Inference accepts a reading of a known row-major tensor exactly if every coordinate names an
element of it, as an exact integer. Where such a launch is planned, and its launch parameters are
no more than words count, every thread reads inside the input and every element of the output is
written by one thread. -/
theorem bounds_exact (p : Strided) {x : TensorDesc} (known : x.shape.Resolved)
    (rowMajor : x.format = .rowMajor) (fits : x.shape.dims.prod ≤ Bounded.greatest) :
    (∀ outputs, (Operator.asStrided p).infer [x] = .ok outputs ↔
      p.InBounds x.shape ∧ outputs = [x.withShape ⟨p.size⟩]) ∧
    ∀ {launch : Launch} {inferred : List TensorDesc} {source : Binding} {ds : List Dispatch},
      launch.param = .asStrided p → launch.inputs = [source] → source.desc = x →
      x.overflows = false → launch.Accepted inferred → launch.plan = .ok ds →
      (∀ d ∈ ds, d.info.length ≤ 2 ^ 32) →
        ∃ out, launch.outputs = [out] ∧ p.Read source.span out.span ds := by
  constructor
  · intro outputs
    rw [← infer_eq_ok known fits, Operator.infer_eq_ok, Operator.formats_of_plain fun _ => rfl]
    simp [rowMajor, Operator.inferFamily, Operator.inputCount]
  · rintro launch inferred source ds family input rfl sized accepted planned short
    exact read_of_accepted family input known sized accepted planned short

/-- Three of four columns, from the second one on. -/
def columns : Strided := ⟨[2, 3], [4, 1], 1⟩

/-- Copies them. -/
def copying : Launch :=
  ⟨"copy", .asStrided columns, [⟨.rowMajor .f32 ⟨[2, 4]⟩, 0, 32⟩],
    [⟨.rowMajor .f32 ⟨[2, 3]⟩, 64, 24⟩], none⟩

/-- The last of them is the last element of the matrix, so that none lies past it; from the third
column on, one would. -/
theorem columns_exact :
    columns.InBounds ⟨[2, 4]⟩ ∧ ¬ ({ columns with offset := 2 } : Strided).InBounds ⟨[2, 4]⟩ ∧
    ∃ d, copying.plan = .ok [d] ∧ d.threads = 6 ∧ columns.Read ⟨0, 32⟩ ⟨64, 24⟩ [d] := by
  have bounds (p : Strided) := bounds_exact p (x := .rowMajor .f32 ⟨[2, 4]⟩) (by decide) rfl
    (by decide)
  have accepted : copying.Accepted [.rowMajor .f32 ⟨[2, 3]⟩] :=
    ⟨by decide, by decide, by decide, by decide, by decide⟩
  have planned : copying.plan = .ok [columns.copy.dispatched ⟨["f32", "f32"], [], .text ""⟩ ⟨0, 32⟩
      ⟨64, 24⟩] := rfl
  obtain ⟨out, outputs, read⟩ :=
    (bounds columns).2 rfl rfl rfl (by decide) accepted planned (by decide)
  obtain rfl := (List.cons.inj outputs).1
  refine ⟨(((bounds columns).1 _).mp accepted.infers).1, fun within => ?_, _, planned, rfl, read⟩
  have answer := ((bounds _).1 _).mpr ⟨within, rfl⟩
  exact absurd answer (by decide)

end Strided

end OperatorGraph
