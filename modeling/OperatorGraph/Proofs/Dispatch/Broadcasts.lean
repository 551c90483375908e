import OperatorGraph.Proofs.Dispatch.Addressing
import OperatorGraph.Proofs.Dispatch.Measures
import OperatorGraph.Proofs.Shape.Broadcasting

set_option autoImplicit false

namespace OperatorGraph

open Dispatch Shader RowMajor

namespace Elementwise

section

variable (lhs rhs target : List Nat)

/-- The thread of each coordinate of a broadcast's target. -/
def addressing : Addressing where
  grid := target
  trace coords := [.read (.tensor 1) (position lhs (origin lhs coords)),
    .read (.tensor 2) (position rhs (origin rhs coords)), .write 3 (position target coords)]

/-- How the body follows the strides of both operands. -/
def walk : Walk where
  head := 2
  extents := target
  first := ⟨"lhs_index", 0, spreadStrides lhs target.length⟩
  second := ⟨"rhs_index", 0, spreadStrides rhs target.length⟩

theorem named_walk : (walk lhs rhs target).Named := by
  show ["lhs_index", "rhs_index", "rank", "rem", "i", "axis", "coord"].Nodup
  decide

/-- Arrays of the sizes of both operands and of the target. -/
structure Sized (size : Nat → Nat) : Prop where
  left : size 1 = lhs.prod
  right : size 2 = rhs.prod
  joined : size 3 = target.prod
  others : ∀ binding, 3 < binding → size binding = 0

end

section

variable {lhs rhs target : List Nat} (left : Spreads lhs target) (right : Spreads rhs target)
include left right

/-- Every element of the target is joined from elements of both operands. -/
theorem covers {size : Nat → Nat} (sized : Sized lhs rhs target size) :
    (addressing lhs rhs target).Covers size 2 := by
  refine Addressing.covers_of_own (fun coords inside access member => ?_) ?_ sized.joined sized.others
  · simp only [addressing, List.mem_cons, List.not_mem_nil, or_false] at member
    rcases member with rfl | rfl | rfl
    · rw [Access.within_read, sized.left]
      exact position_lt (left.inside_origin inside)
    · rw [Access.within_read, sized.right]
      exact position_lt (right.inside_origin inside)
    · rw [Access.within_write, sized.joined]
      exact position_lt inside
  · intro coords _ binding k
    simp [addressing]

variable {F : Type} {arrays : Arrays F} {k : Kernel} {info : List UInt32} (m : Arithmetic F)
  {op : BinaryOp} (strict : op ≠ .or) (sized : Sized lhs rhs target arrays.size)
  (values : ∀ i < arrays.size 1, ∀ j < arrays.size 2, ∃ value,
    op.apply m (arrays.cell 1 i) (arrays.cell 2 j) = some value)
  (rank : info[1]? = some (UInt32.ofNat target.length))
  (informs : (walk lhs rhs target).Informs info) (small : target.prod < 2 ^ 32)
include strict sized values rank informs small

/-- The thread of a coordinate joins the elements at its origins. -/
theorem body_ends {coords : List Nat} (inside : Inside coords target) :
    Stmt.Ends (k.context m info) (broadcastBody op) .next
      (Thread.fresh arrays (position target coords)) fun u =>
        u.accesses = (addressing lhs rhs target).trace coords := by
  have below := position_lt inside
  have thread := Nat.lt_trans below small
  have positive : ∀ dim ∈ target, 0 < dim := by
    intro dim member
    obtain ⟨i, found⟩ := List.getElem?_of_mem member
    exact positive_of_lt_prod below found
  refine .bindWord _ (.info rank) ?_
  refine .declareWord (position target coords) (.var (by simp)) ?_
  refine .declareWord 0 (.word 0) ?_
  refine .declareWord 0 (.word 0) ?_
  refine Walk.rounds_end (named_walk lhs rhs target) informs below thread (by simp [walk])
    (by simp) (by simp [walk]) (by simp [walk]) rfl fun u kept silent first second => ?_
  have same : u.arrays = arrays := kept.arrays_eq
  have index : u.vars "index" = some (.word (UInt32.ofNat (position target coords))) := by
    rw [kept.vars "index" (by simp [walk, Walk.round, Stmt.assignedAll, Stmt.assigned])]
    simp
  have decoded : coordinate (walk lhs rhs target).extents (position target coords) = coords :=
    coordinate_position inside
  rw [decoded] at first second
  simp only [walk, Nat.zero_add, ← inside.length, along_spreadStrides] at first second
  have readLeft := position_lt (left.inside_origin inside)
  have readRight := position_lt (right.inside_origin inside)
  have smallLeft := readLeft.trans (Nat.lt_of_le_of_lt (left.prod_le positive).2 small)
  have smallRight := readRight.trans (Nat.lt_of_le_of_lt (right.prod_le positive).2 small)
  rw [← sized.left, ← same] at readLeft
  rw [← sized.right, ← same] at readRight
  obtain ⟨value, joined⟩ := values _ (same ▸ readLeft) _ (same ▸ readRight)
  refine .store (.var index) thread (by rw [same, sized.joined]; exact below)
    (.binary (.tensor (.var first) smallLeft readLeft) (.tensor (.var second) smallRight readRight)
      strict (by rw [same]; exact joined)) (.nil ?_)
  simp [silent, addressing]

end

/-- Shapes with a broadcast that has elements, but fewer than there are words. -/
structure Joins (lhs rhs target : Shape) : Prop where
  joined : lhs.broadcast? rhs = some target
  left : lhs.Resolved
  right : rhs.Resolved
  nonempty : 0 < target.extents.prod
  few : target.extents.prod < 2 ^ 32
  /-- Positions of launch parameters are words. -/
  short : 2 + 3 * target.rank ≤ 2 ^ 32

namespace Joins

variable {lhs rhs target : Shape} (joins : Joins lhs rhs target)
include joins

theorem resolved : target.Resolved :=
  Shape.resolved_of_broadcast joins.joined joins.left joins.right

theorem part : Shape.Part target.dims target.dims := by
  have count := Bounded.cast_prod_toNat joins.resolved
  have nonempty := joins.nonempty
  have few := joins.few
  unfold Shape.extents at nonempty few
  exact .self (Bounded.one_le_of_prod_ne_zero joins.resolved (by omega)) (by omega)

/-- An operand has elements, too, and not more of them. -/
theorem operand {s : Shape} (spreads : Spreads s.extents target.extents) (known : s.Resolved) :
    s.extents.prod < 2 ^ 32 ∧ Shape.Part s.dims s.dims := by
  have goals : ∀ dim ∈ target.extents, 0 < dim := by
    intro dim member
    obtain ⟨i, found⟩ := List.getElem?_of_mem member
    exact positive_of_lt_prod joins.nonempty found
  obtain ⟨positive, le⟩ := spreads.prod_le goals
  have few := Nat.lt_of_le_of_lt le joins.few
  have count := Bounded.cast_prod_toNat known
  refine ⟨few, .self (fun dim member => ?_) ?_⟩
  · have one := positive dim.toNat (List.mem_map_of_mem member)
    omega
  · unfold Shape.extents at few
    omega

theorem left_operand : lhs.extents.prod < 2 ^ 32 ∧ Shape.Part lhs.dims lhs.dims :=
  joins.operand (Shape.spreads_of_broadcast joins.joined).1 joins.left

theorem right_operand : rhs.extents.prod < 2 ^ 32 ∧ Shape.Part rhs.dims rhs.dims :=
  joins.operand (Shape.spreads_of_broadcast joins.joined).2.1 joins.right

theorem elementCount_eq : target.elementCount = (target.extents.prod : Int) :=
  TensorDesc.elementCount_eq (d := .rowMajor .f32 target) joins.resolved joins.few

theorem words_answer : words (broadcastInfo lhs rhs target) =
    .ok ((broadcastInfo lhs rhs target).map (·.toNat.toUInt32)) := by
  refine words_eq_ok.mpr ⟨fun value member => ?_, rfl⟩
  have count := joins.elementCount_eq
  have few := joins.few
  have short := joins.short
  simp only [broadcastInfo, List.mem_append, List.mem_cons, List.not_mem_nil, or_false] at member
  rcases member with (((rfl | rfl) | dim) | left) | right
  · omega
  · omega
  · exact joins.part.dim_small value dim
  · exact Shape.broadcastStrides_small joins.left_operand.2 target value left
  · exact Shape.broadcastStrides_small joins.right_operand.2 target value right

theorem informs : (walk lhs.extents rhs.extents target.extents).Informs
    ((broadcastInfo lhs rhs target).map (·.toNat.toUInt32)) := by
  obtain ⟨first, second, -⟩ := Shape.spreads_of_broadcast joins.joined
  have length {s : Shape} (spreads : Spreads s.extents target.extents) :
      (spreadStrides s.extents target.extents.length).length = target.extents.length := by
    have rank := spreads.rank
    simp only [Shape.length_extents] at rank
    simp [spreadStrides]
    omega
  have split : (broadcastInfo lhs rhs target).map (fun value => value.toNat.toUInt32) =
      [target.elementCount.toNat.toUInt32, UInt32.ofNat target.rank] ++
        (walk lhs.extents rhs.extents target.extents).extents.map UInt32.ofNat ++
        (walk lhs.extents rhs.extents target.extents).first.strides.map UInt32.ofNat ++
        (walk lhs.extents rhs.extents target.extents).second.strides.map UInt32.ofNat := by
    simp only [walk, Shape.length_extents]
    rw [← Shape.map_broadcastStrides joins.left_operand.2,
      ← Shape.map_broadcastStrides joins.right_operand.2, Shape.extents, List.map_map, List.map_map,
      List.map_map]
    simp only [broadcastInfo, List.map_append]
    rfl
  rw [split]
  refine Walk.informs_append rfl (length first) (length second) (fun dim member => ?_) ?_
  · obtain ⟨value, listed, rfl⟩ := List.mem_map.mp member
    have word := joins.part.dim_small value listed
    omega
  · simpa [walk] using joins.short

end Joins

/-- The dispatch that a broadcast is planned as. -/
def dispatched (op : BinaryOp) (kernel : Kernel) (x y out : Binding) (target : Shape) : Dispatch :=
  ⟨kernel.withBody (broadcastBody op),
    (broadcastInfo x.desc.shape y.desc.shape target).map (·.toNat.toUInt32),
    [x, y, out].map Binding.span⟩

/-- Arithmetic has a result on two floats and on two integers. -/
theorem apply_of_typed {F : Type} {d : Dispatch} {integers : Nat → Nat → Int32} {arrays : Arrays F}
    (typed : d.Typed integers arrays) {dtype : ElementType} (bindable : dtype = .f32 ∨ dtype = .i32)
    (first : d.kernel.tensors[0]? = some dtype.render)
    (second : d.kernel.tensors[1]? = some dtype.render) (m : Arithmetic F) {op : BinaryOp}
    (arithmetic : op ∈ [BinaryOp.add, .sub, .mul, .div]) :
    ∀ i < arrays.size 1, ∀ j < arrays.size 2, ∃ value,
      op.apply m (arrays.cell 1 i) (arrays.cell 2 j) = some value := by
  intro i inFirst j inSecond
  simp only [List.mem_cons, List.not_mem_nil, or_false] at arithmetic
  rcases bindable with rfl | rfl
  · obtain ⟨a, atA⟩ := typed.reals 0 first i inFirst
    obtain ⟨b, atB⟩ := typed.reals 1 second j inSecond
    rw [atA, atB]
    rcases arithmetic with rfl | rfl | rfl | rfl <;> exact ⟨_, rfl⟩
  · rw [typed.ints 0 first i inFirst, typed.ints 1 second j inSecond]
    rcases arithmetic with rfl | rfl | rfl | rfl <;> exact ⟨_, rfl⟩

/-- The threads of the dispatch join the elements at the origins of their coordinates. -/
theorem Joins.follows {x y out : Binding} {target : Shape}
    (joins : Joins x.desc.shape y.desc.shape target) {op : BinaryOp}
    (arithmetic : op ∈ [BinaryOp.add, .sub, .mul, .div])
    (bindable : x.desc.dtype = .f32 ∨ x.desc.dtype = .i32) (same : y.desc.dtype = x.desc.dtype)
    {kernel : Kernel}
    (types : kernel.tensors = [x, y, out].map fun b => b.desc.dtype.render)
    (sized : Sized x.desc.shape.extents y.desc.shape.extents target.extents
      (Span.elementsAt ([x, y, out].map Binding.span))) (integers : Nat → Nat → Int32) :
    (dispatched op kernel x y out target).Follows integers 2
      (addressing x.desc.shape.extents y.desc.shape.extents target.extents) := by
  obtain ⟨left, right, -⟩ := Shape.spreads_of_broadcast joins.joined
  have strict : op ≠ .or := by
    rintro rfl
    simp at arithmetic
  refine follows_of_covers (broadcastBody op) rfl ?_ joins.few (covers left right sized) ?_
  · show some (target.elementCount.toNat.toUInt32) = _
    rw [joins.elementCount_eq]
    rfl
  · intro F m arrays typed coords inside
    have rank : (dispatched op kernel x y out target).info[1]? =
        some (UInt32.ofNat target.extents.length) := by
      rw [Shape.length_extents]
      rfl
    refine ⟨.next, body_ends left right m strict (typed.size ▸ sized) ?_ rank joins.informs
      joins.few inside⟩
    exact apply_of_typed typed bindable (by simp [dispatched, Kernel.withBody, types])
      (by simp [dispatched, Kernel.withBody, types, same]) m arithmetic

/-- Element-wise arithmetic on tensors that setup has let through. -/
structure Given (kind : Elementwise) (launch : Launch) : Prop where
  param : launch.param = .elementwise kind
  binary : kind.isBinary = true
  bindable : ∀ b ∈ launch.inputs, b.desc.dtype = .f32 ∨ b.desc.dtype = .i32
  resolved : ∀ b ∈ launch.inputs ++ launch.outputs, b.desc.shape.Resolved
  nonempty : ∀ b ∈ launch.outputs, 0 < b.desc.shape.extents.prod
  few : ∀ b ∈ launch.outputs, b.desc.shape.extents.prod < 2 ^ 32
  /-- Launch parameters are no more than there are words, either. -/
  short : ∀ b ∈ launch.inputs, 2 + 3 * b.desc.shape.rank ≤ 2 ^ 32

/-- The dispatch joins the elements of two operands. -/
structure Broadcasts (launch : Launch) (x y target : Shape) (d : Dispatch) : Prop where
  operands : launch.inputs.map (·.desc.shape) = [x, y]
  joined : x.broadcast? y = some target
  info : words (broadcastInfo x y target) = .ok d.info
  tensors : d.tensors = (launch.inputs ++ launch.outputs).map Binding.span
  sized : Sized x.extents y.extents target.extents (Span.elementsAt d.tensors)
  follows : ∀ integers, d.Follows integers 2 (addressing x.extents y.extents target.extents)

namespace Given

variable {kind : Elementwise} {launch : Launch} {inferred : List TensorDesc}
  (given : kind.Given launch) (accepted : launch.Accepted inferred)
include given accepted

/-- The tensors that inference has accepted. -/
theorem joins : ∃ x y out target, launch.inputs = [x, y] ∧ launch.outputs = [out] ∧
    y.desc.dtype = x.desc.dtype ∧ inferred = [.rowMajor x.desc.dtype target] ∧
      Joins x.desc.shape y.desc.shape target ∧
        out.desc.shape.extents.prod = target.extents.prod := by
  obtain ⟨-, infers⟩ := Operator.infer_ok accepted.infers
  rw [given.param] at infers
  obtain ⟨_, _, target, read, dtype, joined, rfl⟩ := infer_binary_ok given.binary infers
  simp only [List.map_eq_cons_iff, List.map_eq_nil_iff] at read
  obtain ⟨x, _, inputs, rfl, y, _, rfl, rfl, rfl⟩ := read
  obtain ⟨out, outputs⟩ := List.length_eq_one_iff.mp accepted.outputs.length_eq
  have left := given.resolved x (by simp [inputs])
  have right := given.resolved y (by simp [inputs])
  have isOut : out ∈ launch.outputs := by simp [outputs]
  have few := given.few out isOut
  have known := Shape.resolved_of_broadcast joined left right
  have same : out.desc.shape.extents.prod = target.extents.prod :=
    accepted.output_extents (j := 0) (by rw [outputs]; rfl) rfl
      (given.resolved out (List.mem_append_right _ isOut)) few known
  have rank : target.rank = max x.desc.shape.rank y.desc.shape.rank :=
    (Shape.spreads_of_broadcast joined).2.2
  have shortLeft := given.short x (by simp [inputs])
  have shortRight := given.short y (by simp [inputs])
  have nonempty := given.nonempty out isOut
  exact ⟨x, y, out, target, inputs, outputs, dtype, rfl, ⟨joined, left, right, same ▸ nonempty,
    same ▸ few, by omega⟩, same⟩

theorem measured : launch.Measured := by
  obtain ⟨x, y, out, target, inputs, outputs, dtype, rfl, joins, same⟩ := given.joins accepted
  have float := accepted.outputs
  simp only [outputs, List.forall₂_cons] at float
  refine ⟨?_, given.resolved, ?_⟩
  · rw [List.forall_mem_append]
    refine ⟨given.bindable, ?_⟩
    rw [outputs, List.forall_mem_singleton, float.1.1]
    exact given.bindable x (by simp [inputs])
  · rw [List.forall_mem_append, inputs, outputs]
    simp only [List.forall_mem_cons, List.not_mem_nil, false_imp_iff, implies_true, and_true]
    exact ⟨⟨joins.left_operand.1, joins.right_operand.1⟩, same ▸ joins.few⟩

theorem written : launch.outputs.all (·.bytes = 0) = false := by
  obtain ⟨x, y, out, target, inputs, outputs, -, -, -, -⟩ := given.joins accepted
  have isOut : out ∈ launch.outputs := by simp [outputs]
  have elements := (given.measured accepted).elements_eq accepted
    (List.mem_append_right launch.inputs isOut)
  have nonempty := given.nonempty out isOut
  refine List.all_eq_false.mpr ⟨out, isOut, ?_⟩
  rw [decide_eq_true_eq]
  intro none
  have zero : out.span.elements = 0 := by
    show out.bytes / 4 = 0
    rw [none]
  omega

/-- The family's plan has one dispatch. -/
theorem planFamily_answers {x y out : Binding} {target : Shape} (inputs : launch.inputs = [x, y])
    (outputs : launch.outputs = [out]) (joins : Joins x.desc.shape y.desc.shape target) :
    ∃ op ∈ [BinaryOp.add, .sub, .mul, .div], ∃ kernel,
      kernel.tensors = [x, y, out].map (·.desc.dtype.render) ∧
        launch.planFamily = .ok [dispatched op kernel x y out target] := by
  have bindable := (given.measured accepted).bindable
  rw [inputs, outputs] at bindable
  obtain ⟨kernel, bound, types⟩ := Kernel.binding_ok (List.forall_mem_map.mpr bindable)
  have broadcast (op : BinaryOp) : planBroadcast op x y out =
      .ok [dispatched op kernel x y out target] := by
    simp only [planBroadcast, joins.joined]
    exact Answer.bind_eq_ok.mpr ⟨_, joins.words_answer, Answer.bind_eq_ok.mpr ⟨_, bound, rfl⟩⟩
  have binary := given.binary
  simp only [Launch.planFamily, given.param, plan, inputs, outputs]
  cases kind with
  | add => exact ⟨.add, by simp, kernel, by simpa using types, broadcast .add⟩
  | sub => exact ⟨.sub, by simp, kernel, by simpa using types, broadcast .sub⟩
  | mul => exact ⟨.mul, by simp, kernel, by simpa using types, broadcast .mul⟩
  | realDiv => exact ⟨.div, by simp, kernel, by simpa using types, broadcast .div⟩
  | scale _ | cast _ => simp [isBinary] at binary

theorem sized {x y out : Binding} {target : Shape} (inputs : launch.inputs = [x, y])
    (outputs : launch.outputs = [out])
    (same : out.desc.shape.extents.prod = target.extents.prod) :
    Sized x.desc.shape.extents y.desc.shape.extents target.extents
      (Span.elementsAt ([x, y, out].map Binding.span)) := by
  have elements {b : Binding} := (given.measured accepted).elements_eq accepted (b := b)
  rw [inputs, outputs] at elements
  refine ⟨?_, ?_, ?_, fun binding beyond => Span.elementsAt_of_length_lt (by simpa using beyond)⟩
  · exact elements (by simp)
  · exact elements (by simp)
  · exact (elements (b := out) (by simp)).trans same

end Given

/-- Element-wise arithmetic that inference has accepted is planned as one dispatch, whose threads
join the elements at the origins of every coordinate. -/
theorem broadcast_traces {kind : Elementwise} {launch : Launch} {inferred : List TensorDesc}
    (accepted : launch.Accepted inferred) (given : kind.Given launch) :
    ∃ x y target d, launch.plan = .ok [d] ∧ Broadcasts launch x y target d := by
  obtain ⟨x, y, out, target, inputs, outputs, dtype, descs, joins, same⟩ := given.joins accepted
  obtain ⟨op, arithmetic, kernel, types, planned⟩ :=
    given.planFamily_answers accepted inputs outputs joins
  have plain (index : Nat) : launch.param.acceptedFormats index = [.rowMajor] := by
    rw [given.param]
    rfl
  have kept : ∀ desc ∈ inferred, ∃ b ∈ launch.inputs, desc.format = b.desc.format := by
    rw [descs, List.forall_mem_singleton]
    exact ⟨x, by simp [inputs], (accepted.rowMajor_inputs plain x (by simp [inputs])).symm⟩
  have sized := given.sized accepted inputs outputs same
  refine ⟨x.desc.shape, y.desc.shape, target, dispatched op kernel x y out target, ?_, ?_⟩
  · rw [accepted.plan_eq plain kept (given.written accepted), planned]
  · exact ⟨by simp [inputs], joins.joined, joins.words_answer, by rw [inputs, outputs]; rfl, sized,
      joins.follows arithmetic (given.bindable x (by simp [inputs])) dtype types sized⟩

/-- A column of three integers and a row of two. -/
def columnPlusRow : Launch :=
  let numbers (dims : List Int) (ptr : Address) (bytes : Nat) : Binding :=
    ⟨.rowMajor .i32 ⟨dims⟩, ptr, bytes⟩
  ⟨"add", .elementwise .add, [numbers [3, 1] 0 12, numbers [2] 64 8], [numbers [3, 2] 128 24], none⟩

/-- Six threads add the column and the row. -/
theorem column_plus_row_traces : ∃ d, columnPlusRow.plan = .ok [d] ∧ d.threads = 6 ∧
    Broadcasts columnPlusRow ⟨[3, 1]⟩ ⟨[2]⟩ ⟨[3, 2]⟩ d := by
  have accepted : columnPlusRow.Accepted (columnPlusRow.outputs.map Binding.desc) :=
    ⟨by decide, by decide, by decide, by decide, by decide⟩
  have given : add.Given columnPlusRow :=
    ⟨rfl, rfl, by decide, by decide, by decide, by decide, by decide⟩
  obtain ⟨x, y, target, d, planned, broadcasts⟩ := broadcast_traces accepted given
  have operands : [⟨[3, 1]⟩, ⟨[2]⟩] = [x, y] := broadcasts.operands
  simp only [List.cons.injEq, and_true] at operands
  obtain ⟨rfl, rfl⟩ := operands
  obtain rfl : ⟨[3, 2]⟩ = target := Option.some.inj broadcasts.joined
  exact ⟨d, planned, (broadcasts.follows fun _ _ => 0).threads, broadcasts⟩

end Elementwise

end OperatorGraph
