import OperatorGraph.Proofs.Dispatch.Addressing
import OperatorGraph.Proofs.Dispatch.Measures

set_option autoImplicit false

namespace OperatorGraph.Gather

open Dispatch Shader RowMajor

/-- The slices of a table, the rows of a slice and their elements, and the number of indices. -/
structure Sizes where
  outer : Nat
  dim : Nat
  inner : Nat
  picks : Nat

namespace Sizes

variable (l : Sizes)

/-- The row that an index picks. -/
def row? (picked : Int32) : Option Nat :=
  if 0 ≤ picked.toInt ∧ picked.toInt < l.dim then some picked.toInt.toNat else none

/-- Element `col` of a row of slice `slice`, in the table. -/
def source (slice row col : Nat) : Nat :=
  position [l.outer, l.dim, l.inner] [slice, row, col]

/-- Element `col` of the row that index `pick` picks from slice `slice`, in the output. -/
def target (slice pick col : Nat) : Nat :=
  position [l.outer, l.picks, l.inner] [slice, pick, col]

def accesses (indices : Nat → Int32) (slice pick col : Nat) : List Access :=
  [.read (.tensor 2) pick] ++
    (l.row? (indices pick)).elim [] (fun row => [.read (.tensor 1) (l.source slice row col)]) ++
    [.write 3 (l.target slice pick col)]

def addressing (indices : Nat → Int32) : Addressing where
  grid := [l.outer, l.picks, l.inner]
  trace
    | [slice, pick, col] => l.accesses indices slice pick col
    | _ => []

/-- What is gathered: an element of the table, or zero. -/
def gathered {F : Type} (m : Arithmetic F) (arrays : Arrays F) (picked : Int32) (slice col : Nat) :
    Value F :=
  (l.row? picked).elim (.real (m.ofWord 0)) fun row => arrays.cell 1 (l.source slice row col)

/-- Arrays of the sizes of the table, of the indices and of the output. -/
structure Sized (size : Nat → Nat) : Prop where
  table : size 1 = l.outer * l.dim * l.inner
  indices : size 2 = l.picks
  output : size 3 = l.outer * l.picks * l.inner
  others : ∀ binding, 3 < binding → size binding = 0

/-- Sizes that are words, as are those of the table and of the output. -/
structure Small : Prop where
  table : l.outer * l.dim * l.inner < 2 ^ 32
  output : l.outer * l.picks * l.inner < 2 ^ 32
  dim : l.dim < 2 ^ 32
  inner : l.inner < 2 ^ 32
  picks : l.picks < 2 ^ 32

/-- Launch parameters from which the body can look up the sizes. -/
structure Informs (info : List UInt32) : Prop where
  dim : info[1]? = some (UInt32.ofNat l.dim)
  inner : info[2]? = some (UInt32.ofNat l.inner)
  picks : info[3]? = some (UInt32.ofNat l.picks)

theorem source_eq (slice row col : Nat) :
    l.source slice row col = (slice * l.dim + row) * l.inner + col := by
  simp only [source, position_cons, List.prod_cons, List.prod_nil, position_nil, Nat.mul_one,
    Nat.add_zero, Nat.add_mul, Nat.mul_assoc, Nat.add_assoc]

theorem target_eq (slice pick col : Nat) :
    l.target slice pick col = (slice * l.picks + pick) * l.inner + col := by
  simp only [target, position_cons, List.prod_cons, List.prod_nil, position_nil, Nat.mul_one,
    Nat.add_zero, Nat.add_mul, Nat.mul_assoc, Nat.add_assoc]

theorem row?_eq_some {picked : Int32} {row : Nat} :
    l.row? picked = some row ↔ picked.toInt = row ∧ row < l.dim := by
  unfold row?
  split <;> simp only [Option.some.injEq, reduceCtorEq, false_iff] <;> omega

section

variable {l : Sizes} {slice row pick col : Nat}

theorem inside_grid {coords : List Nat} (indices : Nat → Int32)
    (inside : Inside coords (l.addressing indices).grid) : ∃ slice pick col,
      coords = [slice, pick, col] ∧ slice < l.outer ∧ pick < l.picks ∧ col < l.inner := by
  obtain ⟨slice, inOuter, _, rest, rfl⟩ := inside_cons.mp inside
  obtain ⟨pick, inPicks, col, inInner, rfl⟩ := inside_pair.mp rest
  exact ⟨slice, pick, col, rfl, inOuter, inPicks, inInner⟩

section

variable (inOuter : slice < l.outer) (inInner : col < l.inner)
include inOuter inInner

theorem source_lt (inDim : row < l.dim) : l.source slice row col < l.outer * l.dim * l.inner := by
  have inside : Inside [slice, row, col] [l.outer, l.dim, l.inner] :=
    .cons inOuter (.cons inDim (.cons inInner .nil))
  simpa [source, Nat.mul_assoc] using position_lt inside

theorem target_lt (inPicks : pick < l.picks) :
    l.target slice pick col < l.outer * l.picks * l.inner := by
  have inside : Inside [slice, pick, col] [l.outer, l.picks, l.inner] :=
    .cons inOuter (.cons inPicks (.cons inInner .nil))
  simpa [target, Nat.mul_assoc] using position_lt inside

end

theorem rows_lt (small : l.Small) (inOuter : slice < l.outer) (inPicks : pick < l.picks)
    (inInner : col < l.inner) : slice * l.picks + pick < 2 ^ 32 := by
  have below := (target_lt inOuter inInner inPicks).trans small.output
  rw [target_eq] at below
  have most := Nat.le_mul_of_pos_right (slice * l.picks + pick) (Nat.zero_lt_of_lt inInner)
  omega

theorem covers {size : Nat → Nat} (sized : l.Sized size) (indices : Nat → Int32) :
    (l.addressing indices).Covers size 2 := by
  refine Addressing.covers_of_own (fun coords inside access member => ?_)
    (fun coords inside binding k => ?_) ?_ sized.others
  · obtain ⟨slice, pick, col, rfl, inOuter, inPicks, inInner⟩ := inside_grid indices inside
    simp only [addressing, accesses, List.mem_append, List.mem_singleton] at member
    rcases member with (rfl | picked) | rfl
    · rw [Access.within_read, sized.indices]
      exact inPicks
    · cases found : l.row? (indices pick) with
      | none => simp [found] at picked
      | some row =>
        obtain rfl : access = .read (.tensor 1) (l.source slice row col) := by
          simpa [found] using picked
        rw [Access.within_read, sized.table]
        exact source_lt inOuter inInner (l.row?_eq_some.mp found).2
    · rw [Access.within_write, sized.output]
      exact target_lt inOuter inInner inPicks
  · obtain ⟨slice, pick, col, rfl, -⟩ := inside_grid indices inside
    show _ ∈ l.accesses indices slice pick col ↔ _
    cases found : l.row? (indices pick) <;> simp [accesses, found, target, addressing]
  · rw [sized.output]
    simp [addressing, Nat.mul_assoc]

omit l slice row pick col in
theorem toNat_of_nonneg {picked : Int32} (nonneg : 0 ≤ picked.toInt) :
    picked.toUInt32.toNat = picked.toInt.toNat :=
  Int32.toNat_toUInt32_of_le (Int32.le_iff_toInt_le.mpr nonneg)

theorem word_of_row {picked : Int32} (found : l.row? picked = some row) :
    picked.toUInt32 = UInt32.ofNat row := by
  obtain ⟨same, -⟩ := l.row?_eq_some.mp found
  rw [← UInt32.ofNat_toNat (x := picked.toUInt32), toNat_of_nonneg (by omega), same,
    Int.toNat_natCast]

/-- The condition of the body holds where no row is picked. -/
theorem outside_eq (small : l.dim < 2 ^ 32) (picked : Int32) :
    (decide (picked < Int32.ofNat 0) || decide (UInt32.ofNat l.dim ≤ picked.toUInt32)) =
      (l.row? picked).isNone := by
  have negative : picked < Int32.ofNat 0 ↔ picked.toInt < 0 := Int32.lt_iff_toInt_lt
  unfold row?
  by_cases below : picked.toInt < 0
  · rw [decide_eq_true (negative.mpr below), if_neg (by omega)]
    rfl
  · rw [decide_eq_false (mt negative.mp below), Bool.false_or]
    simp only [UInt32.le_iff_toNat_le, UInt32.toNat_ofNat_of_lt' small,
      toNat_of_nonneg (Int.not_lt.mp below)]
    split
    · rw [decide_eq_false (by omega)]
      rfl
    · rw [decide_eq_true (by omega)]
      rfl

/-- A thread that knows its place and which row its index picks. -/
structure Placed {F : Type} (l : Sizes) (slice pick col : Nat) (picked : Int32) (arrays : Arrays F)
    (u : Thread F) : Prop where
  index : u.vars "index" = some (.word (UInt32.ofNat (l.target slice pick col)))
  dim : u.vars "n" = some (.word (UInt32.ofNat l.dim))
  inner : u.vars "inner" = some (.word (UInt32.ofNat l.inner))
  picks : u.vars "picks" = some (.word (UInt32.ofNat l.picks))
  col : u.vars "col" = some (.word (UInt32.ofNat col))
  rest : u.vars "rest" = some (.word (UInt32.ofNat (slice * l.picks + pick)))
  row : u.vars "row" = some (.int picked)
  arrays : u.arrays = arrays
  accesses : u.accesses = [.read (.tensor 2) pick]

section

variable (small : l.Small) {F : Type} {arrays : Arrays F} (sized : l.Sized arrays.size)
  (inOuter : slice < l.outer) (inPicks : pick < l.picks) (inInner : col < l.inner) {k : Kernel}
  {info : List UInt32} (m : Arithmetic F) {picked : Int32}
include small sized inOuter inPicks inInner

/-- A thread finds its place, and reads its index. -/
theorem placed_ends (informs : l.Informs info) (holds : arrays.cell 2 pick = .int picked)
    {flow : Flow} {post : Thread F → Prop}
    (rest : ∀ u, Placed l slice pick col picked arrays u →
      Stmt.Ends (k.context m info) ((body "f32").drop 6) flow u post) :
    Stmt.Ends (k.context m info) (body "f32") flow
      (Thread.fresh arrays (l.target slice pick col)) post := by
  have below := (target_lt inOuter inInner inPicks).trans small.output
  have inIndices : pick < arrays.size 2 := sized.indices ▸ inPicks
  have rows := rows_lt small inOuter inPicks inInner
  refine .bindWord l.dim (.info informs.dim) ?_
  refine .bindWord l.inner (.info informs.inner) ?_
  refine .bindWord l.picks (.info informs.picks) ?_
  refine .bindWord col (.eq (.mod (.var (n := l.target slice pick col) (by simp))
    (.var (n := l.inner) (by simp)) below small.inner (by omega)) ?_) ?_
  · rw [target_eq, col_of_position inInner]
  refine .bindWord (slice * l.picks + pick) (.eq (.div
    (.var (n := l.target slice pick col) (by simp)) (.var (n := l.inner) (by simp)) below
      small.inner (by omega)) ?_) ?_
  · rw [target_eq, row_of_position inInner]
  refine .bind (.tensor (n := pick) (.eq (.mod (.var (n := slice * l.picks + pick) (by simp))
    (.var (n := l.picks) (by simp)) rows small.picks (by omega)) ?_) (by omega) inIndices) ?_
  · rw [col_of_position inPicks]
  exact rest _ ⟨by simp, by simp, by simp, by simp, by simp, by simp, by simp [holds], rfl, rfl⟩

variable {u : Thread F} (placed : Placed l slice pick col picked arrays u)
include placed

omit sized inOuter inPicks inInner in
theorem Placed.outside_evaluates {outside : Bool} (same : (l.row? picked).isNone = outside) :
    (Expr.binary .or (.binary .less (.var "row") (.int 0))
      (.binary .atLeast (.call "u32" [.var "row"]) (.var "n"))).Evaluates (k.context m info) u
        (.flag outside) [] := by
  rw [← same, ← outside_eq small.dim]
  exact .or (.binary (.var placed.row) (.int 0) (by decide) rfl)
    (.binary (.call (.var placed.row) rfl) (.var placed.dim) (by decide) rfl)

/-- Zero is stored where no row is picked. -/
theorem zero_ends (outside : l.row? picked = none) :
    Stmt.Ends (k.context m info) ((body "f32").drop 6) .stop u fun v =>
      v.accesses = [.read (.tensor 2) pick, .write 3 (l.target slice pick col)] ∧
        v.arrays.cell 3 (l.target slice pick col) = .real (m.ofWord 0) := by
  have below := target_lt inOuter inInner inPicks
  have output : l.target slice pick col < u.arrays.size 3 := by
    rw [placed.arrays, sized.output]
    exact below
  refine .whenTrue (placed.outside_evaluates small m (congrArg Option.isNone outside)) (by decide) ?_
  refine .store (.var placed.index) (below.trans small.output) output
    (.call (.int 0) rfl) (.stop ⟨?_, ?_⟩)
  · simp [placed.accesses]
  · simp only [Thread.arrays_write, Arrays.cell_store, and_self, if_true]
    rfl

/-- An element of a row that is picked is copied. -/
theorem copy_ends {row : Nat} (found : l.row? picked = some row) :
    Stmt.Ends (k.context m info) ((body "f32").drop 6) .next u fun v =>
      v.accesses = [.read (.tensor 2) pick, .read (.tensor 1) (l.source slice row col),
          .write 3 (l.target slice pick col)] ∧
        v.arrays.cell 3 (l.target slice pick col) = arrays.cell 1 (l.source slice row col) := by
  have below := target_lt inOuter inInner inPicks
  have output : l.target slice pick col < u.arrays.size 3 := by
    rw [placed.arrays, sized.output]
    exact below
  have inTable := source_lt inOuter inInner (l.row?_eq_some.mp found).2
  refine .whenFalse (placed.outside_evaluates small m (congrArg Option.isNone found)) ?_
  refine .store (.var placed.index) (below.trans small.output) output
    (.tensor (n := l.source slice row col) ?_ (inTable.trans small.table) ?_) (.nil ⟨?_, ?_⟩)
  · have slices : (.var "rest" / .var "picks" : Expr).IsWord (k.context m info) u slice :=
      .eq (.div (.var placed.rest) (.var placed.picks) (rows_lt small inOuter inPicks inInner)
        small.picks (by omega)) (row_of_position inPicks slice)
    have row : (Expr.call "u32" [.var "row"]).IsWord (k.context m info) u row :=
      .call (.var placed.row) (by rw [← word_of_row found]; rfl)
    exact .eq (.add (.mul (.group (.add (.mul (.group slices) (.var placed.dim)) row))
      (.var placed.inner)) (.var placed.col)) (l.source_eq ..).symm
  · rw [placed.arrays, sized.table]
    exact inTable
  · simp [placed.accesses]
  · simp only [Thread.arrays_write, Arrays.cell_store, and_self, if_true, placed.arrays]

end

/-- The thread of an element gathers it. -/
theorem body_ends (small : l.Small) {F : Type} {arrays : Arrays F} (sized : l.Sized arrays.size)
    {indices : Nat → Int32} (picks : ∀ j < arrays.size 2, arrays.cell 2 j = .int (indices j))
    (inOuter : slice < l.outer) (inPicks : pick < l.picks) (inInner : col < l.inner) {k : Kernel}
    {info : List UInt32} (informs : l.Informs info) (m : Arithmetic F) :
    ∃ flow, Stmt.Ends (k.context m info) (body "f32") flow
      (Thread.fresh arrays (l.target slice pick col)) fun u =>
        u.accesses = l.accesses indices slice pick col ∧
          u.arrays.cell 3 (l.target slice pick col) =
            l.gathered m arrays (indices pick) slice col := by
  have holds := picks pick (sized.indices ▸ inPicks)
  cases found : l.row? (indices pick) with
  | none =>
    refine ⟨.stop, placed_ends small sized inOuter inPicks inInner m informs holds
      fun u placed => ?_⟩
    simpa [accesses, gathered, found] using
      zero_ends small sized inOuter inPicks inInner m placed found
  | some row =>
    refine ⟨.next, placed_ends small sized inOuter inPicks inInner m informs holds
      fun u placed => ?_⟩
    simpa [accesses, gathered, found] using
      copy_ends small sized inOuter inPicks inInner m placed found

end

/-- The dispatch that a gather is planned as. -/
def dispatched (l : Sizes) (kernel : Kernel) (tensors : List Span) : Dispatch :=
  ⟨kernel.withBody (body "f32"),
    [l.outer * l.picks * l.inner, l.dim, l.inner, l.picks].map UInt32.ofNat, tensors⟩

section

variable {l : Sizes} {kernel : Kernel} {tensors : List Span}
  (types : kernel.tensors = ["f32", "i32", "f32"]) (sized : l.Sized (Span.elementsAt tensors))
  (small : l.Small) (integers : Nat → Nat → Int32)
include types sized small

/-- The thread of an element runs the body. -/
theorem dispatched_ends {F : Type} (m : Arithmetic F) {arrays : Arrays F}
    (typed : (l.dispatched kernel tensors).Typed integers arrays) {slice pick col : Nat}
    (inOuter : slice < l.outer) (inPicks : pick < l.picks) (inInner : col < l.inner) :
    ∃ flow, Stmt.Ends ((l.dispatched kernel tensors).kernel.context m
      (l.dispatched kernel tensors).info) (body "f32") flow
      (Thread.fresh arrays (l.target slice pick col)) fun u =>
        u.accesses = l.accesses (integers 2) slice pick col ∧
          u.arrays.cell 3 (l.target slice pick col) =
            l.gathered m arrays (integers 2 pick) slice col :=
  body_ends small (typed.size ▸ sized) (typed.ints 1 (congrArg (·[1]?) types)) inOuter inPicks
    inInner ⟨rfl, rfl, rfl⟩ m

theorem dispatched_follows :
    (l.dispatched kernel tensors).Follows integers 2 (l.addressing (integers 2)) := by
  have grid : (l.addressing (integers 2)).grid.prod = l.outer * l.picks * l.inner := by
    simp [addressing, Nat.mul_assoc]
  refine follows_of_covers (body "f32") rfl (by rw [grid]; rfl) (grid ▸ small.output)
    (covers sized _) ?_
  intro F m arrays typed coords inside
  obtain ⟨slice, pick, col, rfl, inOuter, inPicks, inInner⟩ := inside_grid _ inside
  obtain ⟨flow, ends⟩ :=
    dispatched_ends types sized small integers m typed inOuter inPicks inInner
  exact ⟨flow, ends.mono fun u holds => holds.1⟩

/-- The thread of an element leaves what is gathered there. -/
theorem dispatched_gathers {F : Type} (m : Arithmetic F) {arrays : Arrays F}
    (typed : (l.dispatched kernel tensors).Typed integers arrays) {slice pick col : Nat}
    (inOuter : slice < l.outer) (inPicks : pick < l.picks) (inInner : col < l.inner) :
    ∃ t, (l.dispatched kernel tensors).kernel.runThread m (l.dispatched kernel tensors).info arrays
        (UInt32.ofNat (l.target slice pick col)) = .ok t ∧
      t.arrays.cell 3 (l.target slice pick col) =
        l.gathered m arrays (integers 2 pick) slice col := by
  obtain ⟨flow, ends⟩ :=
    dispatched_ends types sized small integers m typed inOuter inPicks inInner
  obtain ⟨t, ran, -, holds⟩ := Kernel.runThread_below rfl rfl small.output m
    (target_lt inOuter inInner inPicks) ends
  exact ⟨t, ran, holds⟩

end

end Sizes

/-- A plan over floats has one dispatch over the table, the indices and the output. -/
theorem plan_ok {axis : Int} {launch : Launch} {table indices out : Binding} {position : Nat}
    {ds : List Dispatch} (inputs : launch.inputs = [table, indices])
    (outputs : launch.outputs = [out]) (tableFloat : table.desc.dtype = .f32)
    (outFloat : out.desc.dtype = .f32) (found : table.desc.shape.axis? axis = some position)
    (planned : plan axis launch = .ok ds) :
    indices.desc.dtype = .i32 ∧ ∃ (dim : Int) (kernel : Kernel),
      table.desc.shape.dims[position]? = some dim ∧
      kernel.tensors = ["f32", "i32", "f32"] ∧
      let outer := (table.desc.shape.dims.take position).prod
      let inner := (table.desc.shape.dims.drop (position + 1)).prod
      let picks := indices.desc.shape.elementCount
      (∀ value ∈ [outer * picks * inner, dim, inner, picks], 0 ≤ value ∧ value < 2 ^ 32) ∧
        ds = [onBindings (kernel.withBody (body "f32")) ([outer * picks * inner, dim, inner,
          picks].map (·.toNat.toUInt32)) [table, indices, out]] := by
  simp only [plan, inputs, outputs] at planned
  obtain ⟨_, ⟨⟩, planned⟩ := Answer.bind_eq_ok.mp planned
  obtain ⟨_, ⟨⟩, planned⟩ := Answer.bind_eq_ok.mp planned
  obtain ⟨_, ⟨⟩, planned⟩ := Answer.bind_eq_ok.mp planned
  split at planned
  · simp [missing] at planned
  · rename_i dtype
    simp only [found] at planned
    rw [tableFloat, outFloat] at planned
    obtain ⟨outer, atOuter, planned⟩ := Answer.bind_eq_ok.mp planned
    obtain ⟨inner, atInner, planned⟩ := Answer.bind_eq_ok.mp planned
    obtain ⟨threads, product, planned⟩ := Answer.bind_eq_ok.mp planned
    obtain ⟨dim, atDim, planned⟩ := Answer.bind_eq_ok.mp planned
    obtain ⟨_, parameters, planned⟩ := Answer.bind_eq_ok.mp planned
    obtain ⟨kernel, bound, planned⟩ := Answer.bind_eq_ok.mp planned
    obtain ⟨small, rfl⟩ := words_eq_ok.mp parameters
    obtain rfl := Bounded.product?_eq_prod (Bounded.product?_of_product (exactly_eq_ok.mp atOuter))
    obtain rfl := Bounded.product?_eq_prod (Bounded.product?_of_product (exactly_eq_ok.mp atInner))
    simp only [exactly_eq_ok, Answer.bind_eq_ok, Bounded.mul_eq_ok] at product
    obtain ⟨_, ⟨-, rfl⟩, -, rfl⟩ := product
    exact ⟨Decidable.not_not.mp dtype, dim, kernel, dim_eq_ok.mp atDim,
      Kernel.tensors_of_binding (by decide) bound, small, (Except.ok.inj planned).symm⟩

/-- The sizes of a table and of its indices. -/
def sizes (table indices : Shape) (position : Nat) : Sizes where
  outer := (table.extents.take position).prod
  dim := table.extents[position]?.getD 0
  inner := (table.extents.drop (position + 1)).prod
  picks := indices.extents.prod

section

variable {table : Shape} (indices : Shape) {position : Nat}

theorem cast_dim (known : table.Resolved) {dim : Int} (atDim : table.dims[position]? = some dim) :
    ((sizes table indices position).dim : Int) = dim := by
  simp only [sizes, Shape.extents, List.getElem?_map, atDim, Option.map_some, Option.getD_some]
  exact Int.toNat_of_nonneg (known dim (List.mem_of_getElem? atDim))

theorem prod_table (inside : position < table.rank) : table.extents.prod =
    (sizes table indices position).outer * (sizes table indices position).dim *
      (sizes table indices position).inner := by
  have length : position < table.extents.length := by rwa [Shape.length_extents]
  have here : (sizes table indices position).dim = table.extents[position] := by
    rw [sizes, List.getElem?_eq_getElem length, Option.getD_some]
  rw [here, Nat.mul_assoc, sizes, ← List.prod_cons, ← List.drop_eq_getElem_cons, ← List.prod_append,
    List.take_append_drop]

theorem prod_gathered : (⟨table.dims.take position ++ indices.dims ++
    table.dims.drop (position + 1)⟩ : Shape).extents.prod =
      (sizes table indices position).outer * (sizes table indices position).picks *
        (sizes table indices position).inner := by
  simp only [sizes, Shape.extents, List.map_append, List.prod_append, List.map_take, List.map_drop]

end

/-- The dispatch gathers rows along an axis of a table. -/
structure Gathers (axis : Int) (launch : Launch) (l : Sizes) (d : Dispatch) : Prop where
  operands : ∃ table indices position, launch.inputs = [table, indices] ∧
    table.desc.shape.axis? axis = some position ∧
    l = sizes table.desc.shape indices.desc.shape position
  tensors : d.tensors = (launch.inputs ++ launch.outputs).map Binding.span
  follows : ∀ integers, d.Follows integers launch.inputs.length (l.addressing (integers 2))
  /-- An element comes from the row that its index picks, or is zero. -/
  gathered : ∀ integers {F : Type} (m : Arithmetic F) (arrays : Arrays F),
    d.Typed integers arrays → ∀ slice < l.outer, ∀ pick < l.picks, ∀ col < l.inner,
      ∃ t, d.kernel.runThread m d.info arrays (UInt32.ofNat (l.target slice pick col)) = .ok t ∧
        t.arrays.cell 3 (l.target slice pick col) =
          l.gathered m arrays (integers 2 pick) slice col

/-- The bound ranges hold the table, the indices and the output. -/
theorem sized {axis : Int} {launch : Launch} {table indices : Binding} {position : Nat}
    (accepted : launch.Accepted [table.desc.withShape ⟨table.desc.shape.dims.take position ++
      indices.desc.shape.dims ++ table.desc.shape.dims.drop (position + 1)⟩])
    (measured : launch.Measured) (inputs : launch.inputs = [table, indices])
    (found : table.desc.shape.axis? axis = some position) :
    (sizes table.desc.shape indices.desc.shape position).Sized
      (Span.elementsAt ((launch.inputs ++ launch.outputs).map Binding.span)) := by
  have count : launch.inputs.length = 2 := by rw [inputs]; rfl
  have known := resolved_of_gathered (measured.resolved table (by simp [inputs]))
    (measured.resolved indices (by simp [inputs])) position
  have output := measured.elementsAt_output accepted 0 rfl known
  have beyond := accepted.elementsAt_beyond
  rw [count] at output beyond
  refine ⟨?_, ?_, output.trans (prod_gathered _), beyond⟩
  · exact (measured.elementsAt_input accepted 0 (by rw [inputs]; rfl)).trans
      (prod_table _ (Shape.axis?_lt found))
  · exact measured.elementsAt_input accepted 1 (by rw [inputs]; rfl)

/-- What is planned for a gather from a table of floats gathers. -/
theorem gathers_of_plan {axis : Int} {launch : Launch} {inferred : List TensorDesc}
    {ds : List Dispatch} (accepted : launch.Accepted inferred) (param : launch.param = .gather axis)
    (float : ∀ table, launch.inputs[0]? = some table → table.desc.dtype = .f32)
    (resolved : ∀ b ∈ launch.inputs ++ launch.outputs, b.desc.shape.Resolved)
    (few : ∀ b ∈ launch.inputs ++ launch.outputs, b.desc.shape.extents.prod < 2 ^ 32)
    (planned : plan axis launch = .ok ds) : ∃ l d, ds = [d] ∧ Gathers axis launch l d := by
  obtain ⟨-, infers⟩ := Operator.infer_ok accepted.infers
  rw [param] at infers
  obtain ⟨_, _, position, read, found, rfl⟩ := inferGather_ok infers
  simp only [List.map_eq_cons_iff, List.map_eq_nil_iff] at read
  obtain ⟨table, _, inputs, rfl, indices, _, rfl, rfl, rfl⟩ := read
  obtain ⟨out, outputs⟩ := List.length_eq_one_iff.mp accepted.outputs.length_eq
  have tableFloat := float table (by rw [inputs]; rfl)
  have outFloat : out.desc.dtype = .f32 := by
    have same := accepted.outputs
    rw [outputs, List.forall₂_cons] at same
    exact same.1.1.trans tableFloat
  obtain ⟨integer, dim, kernel, atDim, types, small, rfl⟩ :=
    plan_ok inputs outputs tableFloat outFloat found planned
  have measured : launch.Measured := by
    refine ⟨?_, resolved, few⟩
    simp [inputs, outputs, tableFloat, integer, outFloat]
  have isTable : table ∈ launch.inputs ++ launch.outputs := by simp [inputs]
  have isIndices : indices ∈ launch.inputs ++ launch.outputs := by simp [inputs]
  have known := resolved table isTable
  let l := sizes table.desc.shape indices.desc.shape position
  have outer : (l.outer : Int) = _ := Shape.cast_prod_take known position
  have inner : (l.inner : Int) = _ := Shape.cast_prod_drop known (position + 1)
  have rows : (l.dim : Int) = _ := cast_dim _ known atDim
  have picks : indices.desc.shape.elementCount = (l.picks : Int) :=
    TensorDesc.elementCount_eq (resolved indices isIndices) (few indices isIndices)
  rw [← outer, ← inner, ← rows, picks] at small ⊢
  simp only [List.forall_mem_cons, List.not_mem_nil, false_imp_iff, implies_true, and_true] at small
  have fewTable := few table isTable
  rw [prod_table indices.desc.shape (Shape.axis?_lt found)] at fewTable
  have words : l.Small :=
    ⟨fewTable, by exact_mod_cast small.1.2, by omega, by omega, by omega⟩
  have sized := sized accepted measured inputs found
  refine ⟨l, l.dispatched kernel ((launch.inputs ++ launch.outputs).map Binding.span), ?_,
    ⟨table, indices, position, inputs, found, rfl⟩, rfl, ?_, ?_⟩
  · rw [inputs, outputs]
    rfl
  · have count : launch.inputs.length = 2 := by rw [inputs]; rfl
    rw [count]
    exact Sizes.dispatched_follows types sized words
  · exact fun integers F m arrays typed slice inOuter pick inPicks col inInner =>
      Sizes.dispatched_gathers types sized words integers m typed inOuter inPicks inInner

end OperatorGraph.Gather
