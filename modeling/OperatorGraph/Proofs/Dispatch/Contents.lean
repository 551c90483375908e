import OperatorGraph.Proofs.Dispatch.Excuses
import OperatorGraph.Proofs.Dispatch.StridedCopies
import OperatorGraph.Proofs.Shape.Extents

set_option autoImplicit false

namespace OperatorGraph

open Dispatch Shader RowMajor

/-- The elements of four bytes that a range holds. -/
def Span.elements (s : Span) : Nat :=
  s.len / 4

/-- The elements of the range that is bound at a place, where places count from one. -/
def Span.elementsAt (tensors : List Span) : Nat → Nat
  | 0 => 0
  | binding + 1 => tensors[binding]?.elim 0 Span.elements

theorem Span.elementsAt_of_length_lt {tensors : List Span} {binding : Nat}
    (beyond : tensors.length < binding) : Span.elementsAt tensors binding = 0 := by
  obtain ⟨place, rfl⟩ := Nat.exists_eq_succ_of_ne_zero (Nat.ne_zero_of_lt beyond)
  rw [Span.elementsAt, List.getElem?_eq_none (Nat.le_of_lt_succ beyond)]
  rfl

theorem Span.elementsAt_of_getElem? {bound : List Binding} {place : Nat} {b : Binding}
    (found : bound[place]? = some b) :
    Span.elementsAt (bound.map Binding.span) (place + 1) = b.span.elements := by
  rw [Span.elementsAt, List.getElem?_map, found]
  rfl

theorem Binding.elements_eq {b : Binding} (sized : b.bytes = b.desc.byteSize?.getD 0)
    (resolved : b.desc.shape.Resolved) (few : b.desc.shape.extents.prod < 2 ^ 32)
    (width : b.desc.dtype.size = 4) : b.span.elements = b.desc.shape.extents.prod := by
  rw [TensorDesc.byteSize_eq resolved few, width] at sized
  show b.bytes / 4 = _
  rw [sized, Nat.mul_div_cancel _ (by omega)]

/-- What ranges hold, element by element. Ranges that overlap without being the same are no part of
the picture. -/
abbrev Contents (F : Type) :=
  Span → Nat → Value F

namespace Dispatch

variable {F : Type}

/-- The number of threads that do something. -/
def threads (d : Dispatch) : Nat :=
  match d.info with
  | [] => 0
  | count :: _ => count.toNat

/-- The arrays that the bound ranges make. -/
def arrays (d : Dispatch) (held : Contents F) : Arrays F where
  size := Span.elementsAt d.tensors
  cell
    | 0 => fun _ => .literal 0
    | binding + 1 => fun i => d.tensors[binding]?.elim (.literal 0) (held · i)

/-- The bound ranges hold what became of their arrays. -/
def update (d : Dispatch) (held : Contents F) (after : Arrays F) : Contents F := fun span i =>
  match d.tensors.findIdx? (· = span) with
  | some binding => after.cell (binding + 1) i
  | none => held span i

def runOn (d : Dispatch) (m : Arithmetic F) (held : Contents F) : Except Trap (Contents F) := do
  return d.update held (← d.run m (d.arrays held))

/-- Dispatches run in order. -/
def runEach (ds : List Dispatch) (m : Arithmetic F) (held : Contents F) :
    Except Trap (Contents F) :=
  ds.foldlM (fun now d => d.runOn m now) held

/-- The thread of this number reads one element and then replaces one, and accesses no other. -/
structure Moves (d : Dispatch) (n : Nat) (source : Span) (r : Nat) (target : Span) (w : Nat) :
    Prop where
  below : n < d.threads
  tensors : d.tensors = [source, target]
  readInside : r < source.elements
  writtenInside : w < target.elements
  runs : ∀ {F : Type} (m : Arithmetic F) (arrays : Arrays F), arrays.size 1 = source.elements →
    arrays.size 2 = target.elements →
    ∃ t, d.kernel.runThread m d.info arrays (UInt32.ofNat n) = .ok t ∧
      t.bare.accesses = [.read (.tensor 1) r, .write 2 w] ∧
      t.arrays = arrays.store 2 w (arrays.cell 1 r)

end Dispatch

namespace StridedCopy

/-- A copy that stays inside its ranges, writes no element twice and has launch parameters that are
words. -/
structure Placed (c : StridedCopy) (source target : Span) : Prop where
  sources : c.sourceStrides.length = c.dims.length
  targets : c.targetStrides.length = c.dims.length
  product : Bounded.product? c.dims = some c.dims.prod
  words : ∀ value ∈ c.dims.prod :: c.parameters, 0 ≤ value ∧ value < 0x1_0000_0000
  short : 4 + 3 * c.dims.length ≤ 2 ^ 32
  reads : ∀ coords, Inside coords c.extents → c.reads coords < source.elements
  writes : ∀ coords, Inside coords c.extents → c.writes coords < target.elements
  readsSmall : source.elements ≤ 2 ^ 32
  writesSmall : target.elements ≤ 2 ^ 32
  once : ∀ a b, Inside a c.extents → Inside b c.extents → c.writes a = c.writes b → a = b
  apart : source ≠ target

/-- The dispatch of a copy. -/
def dispatched (c : StridedCopy) (kernel : Kernel) (source target : Span) : Dispatch :=
  ⟨kernel.withBody body, (c.dims.prod :: c.parameters).map (·.toNat.toUInt32), [source, target]⟩

theorem binding_answers {first second : ElementType} (bindsFirst : first = .f32 ∨ first = .i32)
    (bindsSecond : second = .f32 ∨ second = .i32) :
    ∃ kernel, Kernel.binding [first, second] = .ok kernel := by
  rcases bindsFirst with rfl | rfl <;> rcases bindsSecond with rfl | rfl <;> exact ⟨_, rfl⟩

namespace Placed

theorem dispatch_answers {c : StridedCopy} {source target : Binding}
    (placed : c.Placed source.span target.span)
    (bindsSource : source.desc.dtype = .f32 ∨ source.desc.dtype = .i32)
    (bindsTarget : target.desc.dtype = .f32 ∨ target.desc.dtype = .i32) :
    ∃ kernel, c.dispatch source target = .ok (c.dispatched kernel source.span target.span) := by
  obtain ⟨kernel, bound⟩ := binding_answers bindsSource bindsTarget
  refine ⟨kernel, ?_⟩
  have threads : Dispatch.exactly (Bounded.product c.dims) = .ok c.dims.prod :=
    exactly_eq_ok.mpr (Bounded.product_eq_ok placed.product)
  have info := words_eq_ok.mpr ⟨placed.words, rfl⟩
  simp only [dispatch, Answer.bind_eq_ok, threads, info, bound, Answer.pure_eq_ok,
    Except.ok.injEq, exists_eq_left']
  rfl

variable {c : StridedCopy} {kernel : Kernel} {source target : Span}
  (placed : c.Placed source target)
include placed

theorem dims_known : ∀ dim ∈ c.dims, 0 ≤ dim ∧ dim < 0x1_0000_0000 := by
  intro dim member
  exact placed.words dim (by simp [parameters, member])

theorem cast_prod_extents : (c.extents.prod : Int) = c.dims.prod :=
  Bounded.cast_prod_toNat fun dim member => (placed.dims_known dim member).1

theorem extents_small : c.extents.prod < 2 ^ 32 := by
  have count := placed.cast_prod_extents
  have word := placed.words c.dims.prod (by simp)
  omega

theorem info_count :
    (c.dispatched kernel source target).info[0]? = some (UInt32.ofNat c.extents.prod) := by
  have count := placed.cast_prod_extents
  show some (UInt32.ofNat c.dims.prod.toNat) = _
  rw [← count, Int.toNat_natCast]

theorem threads_eq (kernel : Kernel) :
    (c.dispatched kernel source target).threads = c.extents.prod := by
  have small := placed.extents_small
  have count := placed.cast_prod_extents
  show (UInt32.ofNat c.dims.prod.toNat).toNat = _
  rw [← count, Int.toNat_natCast, UInt32.toNat_ofNat_of_lt' small]

theorem moves (kernel : Kernel) {n : Nat} (below : n < c.extents.prod) :
    (c.dispatched kernel source target).Moves n source (c.reads (coordinate c.extents n)) target
      (c.writes (coordinate c.extents n)) := by
  have small := placed.extents_small
  have inside := inside_coordinate below
  refine ⟨(placed.threads_eq kernel).symm ▸ below, rfl, placed.reads _ inside,
    placed.writes _ inside, ?_⟩
  intro F m arrays sizeSource sizeTarget
  have informs := informs_parameters c.dims.prod placed.sources placed.targets
    (fun dim member => (placed.dims_known dim member).2) placed.short
  have program : (kernel.withBody body).body = .program body := rfl
  obtain ⟨t, ran, moved, accesses⟩ := Kernel.runThread_below program placed.info_count small m below
    (body_ends (k := kernel.withBody body) informs m below (by omega)
      (sizeSource ▸ placed.reads _ inside) (sizeSource ▸ placed.readsSmall)
      (sizeTarget ▸ placed.writes _ inside) (sizeTarget ▸ placed.writesSmall))
  exact ⟨t, ran, accesses, moved⟩

variable {F : Type}

/-- What threads of these numbers make of the arrays. -/
structure Copied (c : StridedCopy) (numbers : List UInt32) (arrays after : Arrays F) : Prop where
  size : after.size = arrays.size
  other : ∀ binding ≠ 2, after.cell binding = arrays.cell binding
  moved : ∀ n < c.extents.prod, UInt32.ofNat n ∈ numbers →
    after.cell 2 (c.writes (coordinate c.extents n)) =
      arrays.cell 1 (c.reads (coordinate c.extents n))
  kept : ∀ i, (∀ n < c.extents.prod, UInt32.ofNat n ∈ numbers →
    c.writes (coordinate c.extents n) ≠ i) → after.cell 2 i = arrays.cell 2 i

theorem eq_of_writes {n k : Nat} (below : n < c.extents.prod) (alsoBelow : k < c.extents.prod)
    (same : c.writes (coordinate c.extents n) = c.writes (coordinate c.extents k)) : n = k := by
  have coords := placed.once _ _ (inside_coordinate below) (inside_coordinate alsoBelow) same
  rw [← position_coordinate below, coords, position_coordinate alsoBelow]

theorem eq_of_number {n k : Nat} (below : n < c.extents.prod) (bound : k < 2 ^ 32)
    (same : UInt32.ofNat n = UInt32.ofNat k) : n = k := by
  have values := congrArg UInt32.toNat same
  rwa [UInt32.toNat_ofNat_of_lt' (Nat.lt_trans below placed.extents_small),
    UInt32.toNat_ofNat_of_lt' bound] at values

namespace Copied

variable {rest : List UInt32} {arrays after : Arrays F} {k : Nat}

/-- First a thread that copies, and then the others. -/
theorem of_moved (below : k < c.extents.prod)
    (copied : Copied c rest (arrays.store 2 (c.writes (coordinate c.extents k))
      (arrays.cell 1 (c.reads (coordinate c.extents k)))) after) :
    Copied c (UInt32.ofNat k :: rest) arrays after := by
  have source : (arrays.store 2 (c.writes (coordinate c.extents k))
      (arrays.cell 1 (c.reads (coordinate c.extents k)))).cell 1 = arrays.cell 1 := by
    funext i
    rw [Arrays.cell_store, if_neg (by omega)]
  refine ⟨copied.size, fun binding different => ?_, fun n belowN member => ?_, fun i untouched => ?_⟩
  · rw [copied.other binding different]
    funext i
    rw [Arrays.cell_store, if_neg (by omega)]
  · by_cases again : UInt32.ofNat n ∈ rest
    · rw [copied.moved n belowN again, source]
    · obtain rfl : n = k := placed.eq_of_number belowN (Nat.lt_trans below placed.extents_small)
        ((List.mem_cons.mp member).resolve_right again)
      rw [copied.kept, Arrays.cell_store, if_pos ⟨rfl, rfl⟩]
      intro other belowOther inRest same
      exact again (placed.eq_of_writes belowOther belowN same ▸ inRest)
  · rw [copied.kept i fun n belowN inRest => untouched n belowN (List.mem_cons_of_mem _ inRest),
      Arrays.cell_store, if_neg]
    rintro ⟨-, rfl⟩
    exact untouched k below List.mem_cons_self rfl

theorem of_idle (past : c.extents.prod ≤ k) (bound : k < 2 ^ 32)
    (copied : Copied c rest arrays after) : Copied c (UInt32.ofNat k :: rest) arrays after := by
  refine ⟨copied.size, copied.other, fun n below member => ?_, fun i untouched =>
    copied.kept i fun n below inRest => untouched n below (List.mem_cons_of_mem _ inRest)⟩
  refine copied.moved n below ((List.mem_cons.mp member).resolve_left fun equal => ?_)
  have value := placed.eq_of_number below bound equal
  omega

end Copied

theorem runThreads_copied (kernel : Kernel) (m : Arithmetic F) (numbers : List UInt32)
    {arrays : Arrays F} (sizeSource : arrays.size 1 = source.elements)
    (sizeTarget : arrays.size 2 = target.elements) :
    ∃ after, (c.dispatched kernel source target).runThreads m numbers arrays = .ok after ∧
      Copied c numbers arrays after := by
  induction numbers generalizing arrays with
  | nil => exact ⟨arrays, rfl, rfl, fun _ _ => rfl, by simp, fun _ _ => rfl⟩
  | cons number rest ih =>
    obtain ⟨k, bound, rfl⟩ : ∃ k < 2 ^ 32, UInt32.ofNat k = number :=
      ⟨number.toNat, number.toNat_lt, UInt32.ofNat_toNat⟩
    rcases Nat.lt_or_ge k c.extents.prod with below | past
    · obtain ⟨t, ran, -, stored⟩ := (placed.moves kernel below).runs m arrays sizeSource
        sizeTarget
      rw [← Arrays.size_store arrays 2 (c.writes (coordinate c.extents k))
        (arrays.cell 1 (c.reads (coordinate c.extents k)))] at sizeSource sizeTarget
      obtain ⟨after, later, copied⟩ := ih sizeSource sizeTarget
      refine ⟨after, ?_, .of_moved placed below copied⟩
      simp only [runThreads, List.foldlM_cons, ran, Functor.map, Except.map, bind, Except.bind,
        stored]
      exact later
    · have program : (kernel.withBody body).body = .program body := rfl
      obtain ⟨t, ran, same⟩ : ∃ t : Thread F, (c.dispatched kernel source target).kernel.runThread m
          (c.dispatched kernel source target).info arrays (UInt32.ofNat k) = .ok t ∧
            t.arrays = arrays :=
        Kernel.runThread_past program placed.info_count placed.extents_small m past bound
      obtain ⟨after, later, copied⟩ := ih sizeSource sizeTarget
      refine ⟨after, ?_, .of_idle placed past bound copied⟩
      simp only [runThreads, List.foldlM_cons, ran, Functor.map, Except.map, bind, Except.bind,
        same]
      exact later

/-- What a copy leaves in the ranges: the elements of its coordinates in the target, and everything
else as it was. -/
structure Filled (c : StridedCopy) (source target : Span) (held after : Contents F) : Prop where
  moved : ∀ coords, Inside coords c.extents →
    after target (c.writes coords) = held source (c.reads coords)
  kept : ∀ i, (∀ coords, Inside coords c.extents → c.writes coords ≠ i) →
    after target i = held target i
  other : ∀ span ≠ target, after span = held span

theorem run_copied (kernel : Kernel) (m : Arithmetic F) {arrays : Arrays F}
    (sizeSource : arrays.size 1 = source.elements) (sizeTarget : arrays.size 2 = target.elements) :
    ∃ numbers after, (c.dispatched kernel source target).run m arrays = .ok after ∧
      (∀ n < c.extents.prod, UInt32.ofNat n ∈ numbers) ∧ Copied c numbers arrays after := by
  have small := placed.extents_small
  have count := placed.cast_prod_extents
  have first : (c.dispatched kernel source target).info =
      UInt32.ofNat c.extents.prod :: c.parameters.map (·.toNat.toUInt32) := by
    show UInt32.ofNat c.dims.prod.toNat :: _ = _
    rw [← count, Int.toNat_natCast]
  rcases Nat.eq_zero_or_pos c.extents.prod with none | some
  · refine ⟨[], arrays, ?_, fun n below => by omega, rfl, fun _ _ => rfl, by simp, fun _ _ => rfl⟩
    rw [Dispatch.run, first, none]
    rfl
  · obtain ⟨after, ran, copied⟩ := placed.runThreads_copied kernel m
      (Kernel.invocations (Kernel.workgroups c.extents.prod)) sizeSource sizeTarget
    refine ⟨_, after, ?_, fun n below => Kernel.mem_invocations below, copied⟩
    have nonzero := Expr.ofNat_ne_zero some small
    rw [Dispatch.run, first]
    simp only [nonzero, if_false, UInt32.toNat_ofNat_of_lt' small]
    exact ran

theorem runOn_filled (kernel : Kernel) (m : Arithmetic F) (held : Contents F) :
    ∃ after, (c.dispatched kernel source target).runOn m held = .ok after ∧
      Filled c source target held after := by
  have apart := placed.apart
  have size (binding : Nat) (span : Span)
      (bound : (c.dispatched kernel source target).tensors[binding]? = some span) :
      ((c.dispatched kernel source target).arrays held).size (binding + 1) = span.elements := by
    simp only [Dispatch.arrays, Span.elementsAt, bound, Option.elim_some]
  obtain ⟨numbers, result, ran, all, copied⟩ := placed.run_copied kernel m
    (size 0 source rfl) (size 1 target rfl)
  refine ⟨(c.dispatched kernel source target).update held result, ?_, ?_, ?_, ?_⟩
  · rw [runOn, ran]
    rfl
  · intro coords inside
    have below := position_lt inside
    have moved := copied.moved _ below (all _ below)
    rw [coordinate_position inside] at moved
    simpa [update, dispatched, List.findIdx?_cons, apart, Dispatch.arrays] using moved
  · intro i untouched
    have kept := copied.kept i fun n below _ => untouched _ (inside_coordinate below)
    simpa [update, dispatched, List.findIdx?_cons, apart, Dispatch.arrays] using kept
  · intro span different
    funext i
    by_cases same : source = span
    · have kept := congrFun (copied.other 1 (by decide)) i
      simpa [update, dispatched, List.findIdx?_cons, same, Dispatch.arrays] using kept
    · simp [update, dispatched, List.findIdx?_cons, same, different.symm]

end Placed

end StridedCopy

end OperatorGraph
