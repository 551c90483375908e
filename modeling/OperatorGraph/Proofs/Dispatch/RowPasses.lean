import OperatorGraph.Dispatch.Rows
import OperatorGraph.Proofs.Dispatch.Addressing
import OperatorGraph.Proofs.Shape.Extents

set_option autoImplicit false

namespace OperatorGraph

open Dispatch Shader RowMajor

/-- The numbers of rows and of columns. -/
structure Rows where
  rows : Nat
  cols : Nat

namespace Rows

/-- A shape as rows of the dimensions from an axis on. -/
def fromAxis (s : Shape) (axis : Nat) : Rows where
  rows := (s.extents.take axis).prod
  cols := (s.extents.drop axis).prod

theorem prod_fromAxis (s : Shape) (axis : Nat) :
    (fromAxis s axis).rows * (fromAxis s axis).cols = s.extents.prod :=
  List.prod_take_mul_prod_drop ..

theorem fromAxis_last {s : Shape} {front : List Int} {cols : Int} (whole : s.dims = front ++ [cols]) :
    fromAxis s (s.rank - 1) = ⟨(front.map Int.toNat).prod, cols.toNat⟩ := by
  have axis : s.rank - 1 = (front.map Int.toNat).length := by
    rw [Shape.rank, whole, List.length_append, List.length_singleton, List.length_map,
      Nat.add_sub_cancel]
  rw [fromAxis, Shape.extents, whole, axis, List.map_append, List.take_left, List.drop_left,
    List.map_singleton, List.prod_singleton]

/-- The rows that planning counts are those of the last axis, if there are any elements. -/
theorem rowCount_eq {s : Shape} {cols : Int} (last : s.dims.getLast? = some cols)
    (known : s.Resolved) (few : s.extents.prod < 2 ^ 32) (nonzero : s.elementCount ≠ 0) :
    cols = ((fromAxis s (s.rank - 1)).cols : Int) ∧
      rowCount s cols = ((fromAxis s (s.rank - 1)).rows : Int) := by
  have whole := (List.dropLast_append_getLast? cols last).symm
  have columns : ((fromAxis s (s.rank - 1)).cols : Int) = cols := by
    rw [fromAxis_last whole]
    exact Int.toNat_of_nonneg (known cols (List.mem_of_getLast? last))
  have count : s.elementCount = (fromAxis s (s.rank - 1)).rows * cols := by
    rw [← columns, ← Nat.cast_mul, prod_fromAxis]
    exact TensorDesc.elementCount_eq (d := .rowMajor .f32 s) known few
  have positive : cols ≠ 0 := fun none => nonzero (by rw [count, none, Int.mul_zero])
  have one : max cols 1 = cols := by omega
  exact ⟨columns.symm, by rw [rowCount, one, count, Int.mul_tdiv_cancel _ positive]⟩

/-- Where an element of a row is stored. -/
def place (l : Rows) (row col : Nat) : Nat :=
  position [l.rows, l.cols] [row, col]

/-- The accesses of one pass over the columns. -/
def pass (l : Rows) (visit : Nat → List Access) : List Access :=
  (List.range l.cols).flatMap visit

/-- The variables that say which row it is. -/
def fixed : List String :=
  ["index", "cols", "base"]

/-- A thread that knows its row and these numbers. All elements of its tensors are numbers. -/
structure Known {F : Type} (l : Rows) (row : Nat) (size : Nat → Nat) (names : List String)
    (u : Thread F) : Prop where
  index : u.vars "index" = some (.word (UInt32.ofNat row))
  cols : u.vars "cols" = some (.word (UInt32.ofNat l.cols))
  base : u.vars "base" = some (.word (UInt32.ofNat (row * l.cols)))
  reals : ∀ name ∈ names, ∃ x, u.vars name = some (.real x)
  sized : u.arrays.size = size
  cells : ∀ binding, ∀ i < size binding, ∃ x, u.arrays.cell binding i = .real x

variable {l : Rows} {row col : Nat}

@[simp] theorem mem_pass {visit : Nat → List Access} {access : Access} :
    access ∈ l.pass visit ↔ ∃ col < l.cols, access ∈ visit col := by
  simp only [pass, List.mem_flatMap, List.mem_range]

theorem place_eq : l.place row col = row * l.cols + col :=
  position_pair ..

theorem place_lt (inRows : row < l.rows) (inCols : col < l.cols) :
    l.place row col < l.rows * l.cols := by
  have inside : Inside [row, col] [l.rows, l.cols] := .cons inRows (.cons inCols .nil)
  have below := position_lt inside
  rwa [List.prod_pair] at below

theorem exists_place {k : Nat} (below : k < l.rows * l.cols) :
    ∃ row < l.rows, ∃ col < l.cols, k = l.place row col := by
  have columns : 0 < l.cols := Nat.pos_of_mul_pos_left (Nat.zero_lt_of_lt below)
  refine ⟨k / l.cols, Nat.div_lt_of_lt_mul (by rwa [Nat.mul_comm]), k % l.cols,
    Nat.mod_lt _ columns, ?_⟩
  rw [place_eq, Nat.mul_comm, Nat.div_add_mod]

theorem row_unique {other otherCol : Nat} (inCols : col < l.cols) (inOther : otherCol < l.cols)
    (same : l.place row col = l.place other otherCol) : row = other := by
  have here := row_of_position inCols row
  rw [← place_eq, same, place_eq, row_of_position inOther] at here
  exact here.symm

theorem unique_coordinate {P : List Nat → Prop} (inRows : row < l.rows) (own : P [row])
    (alone : ∀ other < l.rows, P [other] → other = row) :
    ∃! coords, Inside coords [l.rows] ∧ P coords := by
  refine ⟨[row], ⟨inside_singleton.mpr ⟨row, inRows, rfl⟩, own⟩, ?_⟩
  rintro coords ⟨within, there⟩
  obtain ⟨other, inOther, rfl⟩ := inside_singleton.mp within
  rw [alone other inOther there]

variable {F : Type} {size : Nat → Nat} {names : List String} {u : Thread F}

namespace Known

variable (known : l.Known row size names u)
include known

theorem mono {fewer : List String} (subset : ∀ name ∈ fewer, name ∈ names) :
    l.Known row size fewer u :=
  { known with reals := fun name member => known.reals name (subset name member) }

theorem after (trace : List Access) : l.Known row size names (u.after trace) :=
  { known with }

theorem set (name : String) (apart : name ∉ fixed) (x : F) :
    l.Known row size (name :: names) (u.set name (.real x)) := by
  simp only [fixed, List.mem_cons, List.not_mem_nil, or_false, not_or] at apart
  obtain ⟨index, cols, base⟩ := apart
  refine { known with index := ?_, cols := ?_, base := ?_, reals := fun other member => ?_ }
  · simp [Ne.symm index, known.index]
  · simp [Ne.symm cols, known.cols]
  · simp [Ne.symm base, known.base]
  · by_cases same : other = name
    · exact ⟨x, by simp [same]⟩
    · simpa [same] using known.reals other ((List.mem_cons.mp member).resolve_left same)

theorem count (unnamed : "c" ∉ names) (value : Value F) :
    l.Known row size names (u.set "c" value) := by
  refine { known with index := ?_, cols := ?_, base := ?_, reals := fun name member => ?_ }
  · simp [known.index]
  · simp [known.cols]
  · simp [known.base]
  · have other : name ≠ "c" := fun same => unnamed (same ▸ member)
    simpa [other] using known.reals name member

theorem write (binding i : Nat) (x : F) :
    l.Known row size names (u.write binding i (.real x)) := by
  refine { known with cells := fun b j inside => ?_ }
  rw [Thread.arrays_write, Arrays.cell_store]
  split
  · exact ⟨x, rfl⟩
  · exact known.cells b j inside

variable {c : Context F}

theorem real {name : String} (member : name ∈ names) : (Expr.var name).IsReal c u [] :=
  .var (known.reals name member)

theorem cols_isReal : (Expr.call "f32" [.var "cols"]).IsReal c u [] :=
  .ofWord (.var known.cols)

variable (counter : u.vars "c" = some (.word (UInt32.ofNat col)))
include counter

theorem place_isWord : (.var "base" + .var "c" : Expr).IsWord c u (l.place row col) :=
  .eq (.add (.var known.base) (.var counter)) place_eq.symm

theorem shared (few : l.cols < 2 ^ 32) (inCols : col < l.cols) {binding : Nat}
    (whole : size binding = l.cols) :
    (Expr.tensor binding (.var "c")).IsReal c u [.read (.tensor binding) col] := by
  have inside : col < size binding := whole ▸ inCols
  exact .tensor (.var counter) (inCols.trans few) (known.sized ▸ inside)
    (known.cells binding _ inside)

variable (few : l.rows * l.cols < 2 ^ 32) (inRows : row < l.rows) (inCols : col < l.cols)
  {binding : Nat} (whole : size binding = l.rows * l.cols)
include few inRows inCols whole

theorem item : (rowItem binding).IsReal c u [.read (.tensor binding) (l.place row col)] := by
  have below := place_lt inRows inCols
  have inside : l.place row col < size binding := whole ▸ below
  exact .tensor (known.place_isWord counter) (below.trans few) (known.sized ▸ inside)
    (known.cells binding _ inside)

theorem storeItem {e : Expr} {trace : List Access} (found : e.IsReal c u trace)
    {body : List Stmt} {flow : Flow} {post : Thread F → Prop}
    (rest : ∀ x, Stmt.Ends c body flow
      ((u.after trace).write binding (l.place row col) (.real x)) post) :
    Stmt.Ends c (storeRowItem binding e :: body) flow u post := by
  have below := place_lt inRows inCols
  have inside : l.place row col < size binding := whole ▸ below
  exact .storeReal (known.place_isWord counter) (below.trans few) (known.sized ▸ inside) found rest

end Known

/-- A pass whose visits keep the names that are known makes the accesses of its visits. -/
theorem overColumns_ends {c : Context F} {layout : Layout} {inner body : List Stmt} {flow : Flow}
    {post : Thread F → Prop} (visit : Nat → List Access) (known : l.Known row size names u)
    (few : l.cols < 2 ^ 32) (unnamed : "c" ∉ names)
    (visits : ∀ col < l.cols, ∀ v, l.Known row size names v →
      v.vars "c" = some (.word (UInt32.ofNat col)) → Stmt.Ends c inner .next v fun w =>
        w.accesses = v.accesses ++ visit col ∧ l.Known row size names w)
    (rest : ∀ v, l.Known row size names v → v.accesses = u.accesses ++ l.pass visit →
      Stmt.Ends c body flow v post) :
    Stmt.Ends c (overColumns layout 0 inner :: body) flow u post := by
  refine .tally l.cols visit (l.Known row size names) (.var known.cols) few known ?_ rest
  intro col inCols v holds
  exact visits col inCols _ (holds.count unnamed _) (by simp)

end Rows

/-- A grid of rows, whose threads write the rows of the first output and an element of some others.
-/
theorem Addressing.covers_of_rows {a : Addressing} {size : Nat → Nat} {inputs : Nat} (l : Rows)
    (marks : List Nat) (grid : a.grid = [l.rows])
    (inside : ∀ row < l.rows, ∀ access ∈ a.trace [row], access.Within size)
    (written : ∀ row < l.rows, ∀ binding k, .write binding k ∈ a.trace [row] ↔
      (binding = inputs + 1 ∧ ∃ col < l.cols, k = l.place row col) ∨ binding ∈ marks ∧ k = row)
    (whole : size (inputs + 1) = l.rows * l.cols)
    (marked : ∀ mark ∈ marks, inputs + 1 < mark ∧ size mark = l.rows)
    (others : ∀ binding, inputs + 1 < binding → binding ∉ marks → size binding = 0) :
    a.Covers size inputs := by
  refine ⟨fun coords within => ?_, fun coords within binding k member => ?_,
    fun binding k output below => ?_⟩
  · rw [grid] at within
    obtain ⟨row, inRows, rfl⟩ := inside_singleton.mp within
    exact inside row inRows
  · rw [grid] at within
    obtain ⟨row, inRows, rfl⟩ := inside_singleton.mp within
    rcases (written row inRows binding k).mp member with ⟨rfl, -⟩ | ⟨mark, -⟩
    · exact Nat.lt_succ_self inputs
    · have behind := (marked binding mark).1
      omega
  · rw [grid]
    by_cases mark : binding ∈ marks
    · obtain ⟨behind, elements⟩ := marked binding mark
      rw [elements] at below
      refine l.unique_coordinate below ((written k below _ k).mpr (.inr ⟨mark, rfl⟩))
        fun other inOther there => ?_
      rcases (written other inOther _ k).mp there with ⟨rfl, -⟩ | ⟨-, same⟩
      · omega
      · exact same.symm
    · obtain rfl : binding = inputs + 1 := by
        by_contra other
        have none := others binding (by omega) mark
        omega
      rw [whole] at below
      obtain ⟨row, inRows, col, inCols, rfl⟩ := Rows.exists_place below
      refine l.unique_coordinate inRows ((written row inRows _ _).mpr (.inl ⟨rfl, col, inCols, rfl⟩))
        fun other inOther there => ?_
      rcases (written other inOther _ _).mp there with ⟨-, otherCol, inOtherCol, same⟩ | ⟨marked, -⟩
      · exact (Rows.row_unique inCols inOtherCol same).symm
      · exact absurd marked mark

/-- It is enough to run the thread of each row. -/
theorem Dispatch.follows_of_rows {d : Dispatch} {integers : Nat → Nat → Int32} {inputs : Nat}
    {a : Addressing} (l : Rows) (body : List Stmt) (program : d.kernel.body = .program body)
    (grid : a.grid = [l.rows]) (count : d.info[0]? = some (UInt32.ofNat l.rows))
    (small : l.rows < 2 ^ 32) (covers : a.Covers (Span.elementsAt d.tensors) inputs)
    (ends : ∀ {F : Type} (m : Arithmetic F) (arrays : Arrays F), d.Typed integers arrays →
      ∀ row < l.rows, Stmt.Ends (d.kernel.context m d.info) body .next (Thread.fresh arrays row)
        fun u => u.accesses = a.trace [row]) :
    d.Follows integers inputs a := by
  have threads : a.grid.prod = l.rows := by rw [grid, List.prod_singleton]
  refine follows_of_covers body program (threads ▸ count) (threads ▸ small) covers ?_
  intro F m arrays typed coords inside
  rw [grid] at inside ⊢
  obtain ⟨row, inRows, rfl⟩ := inside_singleton.mp inside
  rw [position_singleton]
  exact ⟨.next, ends m arrays typed row inRows⟩

end OperatorGraph
