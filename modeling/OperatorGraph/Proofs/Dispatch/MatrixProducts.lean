import OperatorGraph.Proofs.Dispatch.Addressing
import OperatorGraph.Proofs.Dispatch.Measures

set_option autoImplicit false

namespace OperatorGraph.MatMul

open Dispatch Shader RowMajor

/-- Row count, column count and inner size of a product. -/
structure Sizes where
  m : Nat
  n : Nat
  k : Nat

section

variable (p : MatMul) (l : Sizes)

/-- Where element `(row, i)` of the first operand is stored. -/
def leftPlace (row i : Nat) : Nat :=
  if p.transposeA then position [l.k, l.m] [i, row] else position [l.m, l.k] [row, i]

/-- Where element `(i, col)` of the second operand is stored. -/
def rightPlace (i col : Nat) : Nat :=
  if p.transposeB then position [l.n, l.k] [col, i] else position [l.k, l.n] [i, col]

def operands : Nat :=
  if p.hasBias then 3 else 2

/-- The thread of element `(row, col)` of the product. -/
def accesses (row col : Nat) : List Access :=
  (List.range l.k).flatMap (fun i =>
      [.read (.tensor 1) (p.leftPlace l row i), .read (.tensor 2) (p.rightPlace l i col)]) ++
    (if p.hasBias then [.read (.tensor 3) col] else []) ++
    [.write (p.operands + 1) (position [l.m, l.n] [row, col])]

def addressing : Addressing where
  grid := [l.m, l.n]
  trace
    | [row, col] => p.accesses l row col
    | _ => []

/-- Arrays of the sizes of the operands, of the bias if there is one, and of the product. -/
structure Sized (size : Nat → Nat) : Prop where
  left : size 1 = l.m * l.k
  right : size 2 = l.n * l.k
  bias : p.hasBias → size 3 = l.n
  product : size (p.operands + 1) = l.m * l.n
  others : ∀ binding, p.operands + 1 < binding → size binding = 0

end

section

variable {p : MatMul} {l : Sizes} {row col i : Nat}

theorem leftPlace_lt (inRows : row < l.m) (inner : i < l.k) : p.leftPlace l row i < l.m * l.k := by
  unfold leftPlace
  split
  · have below : position [l.k, l.m] [i, row] < [l.k, l.m].prod :=
      position_lt (inside_pair.mpr ⟨i, inner, row, inRows, rfl⟩)
    rwa [List.prod_pair, Nat.mul_comm] at below
  · have below : position [l.m, l.k] [row, i] < [l.m, l.k].prod :=
      position_lt (inside_pair.mpr ⟨row, inRows, i, inner, rfl⟩)
    rwa [List.prod_pair] at below

theorem rightPlace_lt (inCols : col < l.n) (inner : i < l.k) :
    p.rightPlace l i col < l.n * l.k := by
  unfold rightPlace
  split
  · have below : position [l.n, l.k] [col, i] < [l.n, l.k].prod :=
      position_lt (inside_pair.mpr ⟨col, inCols, i, inner, rfl⟩)
    rwa [List.prod_pair] at below
  · have below : position [l.k, l.n] [i, col] < [l.k, l.n].prod :=
      position_lt (inside_pair.mpr ⟨i, inner, col, inCols, rfl⟩)
    rwa [List.prod_pair, Nat.mul_comm] at below

theorem mem_accesses {access : Access} : access ∈ p.accesses l row col ↔
    (∃ i < l.k, access = .read (.tensor 1) (p.leftPlace l row i) ∨
      access = .read (.tensor 2) (p.rightPlace l i col)) ∨
    (p.hasBias ∧ access = .read (.tensor 3) col) ∨
      access = .write (p.operands + 1) (position [l.m, l.n] [row, col]) := by
  simp only [accesses, List.mem_append, List.mem_flatMap, List.mem_range, List.mem_cons,
    List.not_mem_nil, or_false, or_assoc]
  cases p.hasBias <;> simp

theorem covers {size : Nat → Nat} (sized : p.Sized l size) :
    (p.addressing l).Covers size p.operands := by
  refine Addressing.covers_of_own (fun coords inside access member => ?_)
    (fun coords inside binding k => ?_) (by rw [sized.product]; exact (List.prod_pair).symm)
    sized.others
  · obtain ⟨row, inRows, col, inCols, rfl⟩ := inside_pair.mp inside
    have whole : position [l.m, l.n] [row, col] < [l.m, l.n].prod := position_lt inside
    rw [List.prod_pair] at whole
    rcases mem_accesses.mp member with ⟨i, inner, rfl | rfl⟩ | ⟨hasBias, rfl⟩ | rfl
    · rw [Access.within_read, sized.left]
      exact leftPlace_lt inRows inner
    · rw [Access.within_read, sized.right]
      exact rightPlace_lt inCols inner
    · rw [Access.within_read, sized.bias hasBias]
      exact inCols
    · rw [Access.within_write, sized.product]
      exact whole
  · obtain ⟨row, -, col, -, rfl⟩ := inside_pair.mp inside
    show _ ∈ p.accesses l row col ↔ _
    simp [mem_accesses, addressing]

end

/-- Sizes that are words, as are those of all matrices. -/
structure Small (l : Sizes) : Prop where
  product : l.m * l.n < 2 ^ 32
  left : l.m * l.k < 2 ^ 32
  right : l.n * l.k < 2 ^ 32
  columns : l.n < 2 ^ 32
  inner : l.k < 2 ^ 32

/-- Launch parameters from which the body can look up the sizes. -/
structure Informs (l : Sizes) (info : List UInt32) : Prop where
  m : info[1]? = some (UInt32.ofNat l.m)
  n : info[2]? = some (UInt32.ofNat l.n)
  k : info[3]? = some (UInt32.ofNat l.k)

/-- A thread that knows the sizes and its place, and that has summed up something. -/
structure Summing {F : Type} (l : Sizes) (row col : Nat) (arrays : Arrays F) (u : Thread F) :
    Prop where
  index : u.vars "index" = some (.word (UInt32.ofNat (position [l.m, l.n] [row, col])))
  m : u.vars "m" = some (.word (UInt32.ofNat l.m))
  n : u.vars "n" = some (.word (UInt32.ofNat l.n))
  k : u.vars "k" = some (.word (UInt32.ofNat l.k))
  row : u.vars "row" = some (.word (UInt32.ofNat row))
  col : u.vars "col" = some (.word (UInt32.ofNat col))
  acc : ∃ x, u.vars "acc" = some (.real x)
  arrays : u.arrays = arrays

section

variable {p : MatMul} {l : Sizes} {row col : Nat} {F : Type} {arrays : Arrays F} {c : Context F}
  {u : Thread F}

theorem leftIndex_isWord (summing : Summing l row col arrays u) {i : Nat}
    (inner : u.vars "i" = some (.word (UInt32.ofNat i))) :
    (lhsIndex p.transposeA).IsWord c u (p.leftPlace l row i) := by
  unfold lhsIndex leftPlace
  split
  · exact .eq (.add (.mul (.var inner) (.var summing.m)) (.var summing.row))
      (position_pair ..).symm
  · exact .eq (.add (.mul (.var summing.row) (.var summing.k)) (.var inner))
      (position_pair ..).symm

theorem rightIndex_isWord (summing : Summing l row col arrays u) {i : Nat}
    (inner : u.vars "i" = some (.word (UInt32.ofNat i))) :
    (rhsIndex p.transposeB).IsWord c u (p.rightPlace l i col) := by
  unfold rhsIndex rightPlace
  split
  · exact .eq (.add (.mul (.var summing.col) (.var summing.k)) (.var inner))
      (position_pair ..).symm
  · exact .eq (.add (.mul (.var inner) (.var summing.n)) (.var summing.col))
      (position_pair ..).symm

theorem Summing.count (summing : Summing l row col arrays u) (i : Nat) :
    Summing l row col arrays (u.set "i" (.word (UInt32.ofNat i))) := by
  obtain ⟨index, m, n, k, row, col, acc, same⟩ := summing
  exact ⟨by simp [index], by simp [m], by simp [n], by simp [k], by simp [row], by simp [col],
    by simpa using acc, same⟩

theorem Summing.add (summing : Summing l row col arrays u) (trace : List Access) (x : F) :
    Summing l row col arrays ((u.after trace).set "acc" (.real x)) := by
  obtain ⟨index, m, n, k, row, col, -, same⟩ := summing
  exact ⟨by simp [index], by simp [m], by simp [n], by simp [k], by simp [row], by simp [col],
    ⟨x, by simp⟩, same⟩

variable (sized : p.Sized l arrays.size) (small : Small l)
  (reals : ∀ binding, ∀ i < arrays.size binding, ∃ x, arrays.cell binding i = .real x)
  (inRows : row < l.m) (inCols : col < l.n)
include sized small reals inRows inCols

/-- A round adds a product of two elements. -/
theorem round_ends {i : Nat} (inner : i < l.k) (summing : Summing l row col arrays u) :
    Stmt.Ends c [.addTo "acc"
        (.tensor 1 (lhsIndex p.transposeA) * .tensor 2 (rhsIndex p.transposeB))] .next
      (u.set "i" (.word (UInt32.ofNat i))) fun v =>
        v.accesses = u.accesses ++ [.read (.tensor 1) (p.leftPlace l row i),
          .read (.tensor 2) (p.rightPlace l i col)] ∧ Summing l row col arrays v := by
  have counted := summing.count i
  have left := leftPlace_lt (p := p) inRows inner
  have right := rightPlace_lt (p := p) inCols inner
  have smallLeft := left.trans small.left
  have smallRight := right.trans small.right
  rw [← sized.left, ← summing.arrays] at left
  rw [← sized.right, ← summing.arrays] at right
  have known := reals
  rw [← summing.arrays] at known
  refine .addReal (.mul (.tensor (leftIndex_isWord counted (by simp)) smallLeft left
    (known 1 _ left)) (.tensor (rightIndex_isWord counted (by simp)) smallRight right
      (known 2 _ right))) (by simpa using summing.acc) fun x =>
      .nil ⟨by simp, counted.add _ x⟩

omit inRows in
/-- The bias of the column is added, if there is one. -/
theorem bias_ends (summing : Summing l row col arrays u) {rest : List Stmt} {flow : Flow}
    {post : Thread F → Prop} (ends : ∀ v, Summing l row col arrays v →
      v.accesses = u.accesses ++ (if p.hasBias then [.read (.tensor 3) col] else []) →
      Stmt.Ends c rest flow v post) :
    Stmt.Ends c ((if p.hasBias then .addTo "acc" (.tensor 3 (.var "col")) else .blank) :: rest) flow
      u post := by
  cases hasBias : p.hasBias with
  | false => exact .blank (ends u summing (by simp [hasBias]))
  | true =>
    have inside : col < u.arrays.size 3 := by
      rw [summing.arrays, sized.bias hasBias]
      exact inCols
    have known := reals
    rw [← summing.arrays] at known
    refine .addReal (.tensor (.var summing.col) (inCols.trans small.columns) inside
      (known 3 col inside)) summing.acc fun x => ends _ (summing.add _ x) (by simp [hasBias])

/-- The thread of an element computes it. -/
theorem body_ends {k : Kernel} {info : List UInt32} (informs : Informs l info) (m : Arithmetic F) :
    Stmt.Ends (k.context m info) p.body .next
      (Thread.fresh arrays (position [l.m, l.n] [row, col])) fun v =>
        v.accesses = p.accesses l row col := by
  have thread : position [l.m, l.n] [row, col] < l.m * l.n := by
    have inside : Inside [row, col] [l.m, l.n] := .cons inRows (.cons inCols .nil)
    have below := position_lt inside
    rwa [List.prod_pair] at below
  have smallThread := thread.trans small.product
  refine .bindWord l.m (.info informs.m) ?_
  refine .bindWord l.n (.info informs.n) ?_
  refine .bindWord l.k (.info informs.k) ?_
  refine .bindWord row (.eq (.div (.var (n := position [l.m, l.n] [row, col]) (by simp))
    (.var (n := l.n) (by simp)) smallThread small.columns (by omega)) ?_) ?_
  · rw [position_pair, row_of_position inCols]
  refine .bindWord col (.eq (.mod (.var (n := position [l.m, l.n] [row, col]) (by simp))
    (.var (n := l.n) (by simp)) smallThread small.columns (by omega)) ?_) ?_
  · rw [position_pair, col_of_position inCols]
  refine .declareReal (.real _) fun zero => ?_
  refine .tally l.k _ (Summing l row col arrays) (.var (by simp)) small.inner ?_
    (fun i inner u summing => round_ends sized small reals inRows inCols inner summing) ?_
  · exact ⟨by simp, by simp, by simp, by simp, by simp, by simp, ⟨zero, by simp⟩, rfl⟩
  · intro u summed reads
    refine bias_ends sized small reals inCols summed fun v biased more => ?_
    have output : position [l.m, l.n] [row, col] < v.arrays.size (p.operands + 1) := by
      rw [biased.arrays, sized.product]
      exact thread
    have place : (if p.hasBias then 4 else 3) = p.operands + 1 := by
      unfold operands
      split <;> rfl
    rw [place]
    refine .storeReal (.var biased.index) smallThread output (.var biased.acc) fun x => .nil ?_
    simp only [Thread.accesses_write, Thread.accesses_after, more, reads, accesses, List.append_nil]
    rfl

end

/-- The dispatch that a product is planned as. -/
def dispatched (p : MatMul) (l : Sizes) (kernel : Kernel) (tensors : List Span) : Dispatch :=
  ⟨kernel.withBody p.body, [l.m * l.n, l.m, l.n, l.k].map UInt32.ofNat, tensors⟩

/-- The threads of the dispatch compute the elements of the product. -/
theorem dispatched_follows {p : MatMul} {l : Sizes} {kernel : Kernel} {tensors : List Span}
    (floats : kernel.tensors = List.replicate tensors.length "f32")
    (sized : p.Sized l (Span.elementsAt tensors)) (small : Small l)
    (integers : Nat → Nat → Int32) :
    (dispatched p l kernel tensors).Follows integers p.operands (p.addressing l) := by
  have grid : (p.addressing l).grid.prod = l.m * l.n := List.prod_pair
  refine follows_of_covers p.body rfl (by rw [grid]; rfl) (grid ▸ small.product)
    (covers sized) ?_
  intro F m arrays typed coords inside
  obtain ⟨row, inRows, col, inCols, rfl⟩ := inside_pair.mp inside
  exact ⟨.next, body_ends (typed.size ▸ sized) small (typed.all_reals floats) inRows inCols
    ⟨rfl, rfl, rfl⟩ m⟩

/-- A plan that does not fail has one dispatch over all tensors of the launch. -/
theorem plan_ok {p : MatMul} {launch : Launch} {a b out : Binding} {rest : List Binding}
    {extents : Extents} {ds : List Dispatch} (inputs : launch.inputs = a :: b :: rest)
    (count : launch.inputs.length = p.operands) (outputs : launch.outputs = [out])
    (found : p.planExtents? a.desc.shape b.desc.shape = some extents)
    (planned : p.plan launch = .ok ds) :
    (∀ value ∈ [extents.m * extents.n, extents.m, extents.n, extents.k],
        0 ≤ value ∧ value < 2 ^ 32) ∧
      ∃ kernel, floatKernel (launch.inputs ++ launch.outputs).length = .ok kernel ∧
        ds = [onBindings (kernel.withBody p.body) ([extents.m * extents.n, extents.m, extents.n,
          extents.k].map (·.toNat.toUInt32)) (launch.inputs ++ launch.outputs)] := by
  obtain ⟨_, -, planned⟩ := Answer.bind_eq_ok.mp planned
  obtain ⟨x, atA, planned⟩ := Answer.bind_eq_ok.mp planned
  obtain ⟨y, atB, planned⟩ := Answer.bind_eq_ok.mp planned
  rw [item_eq_ok, inputs] at atA atB
  obtain rfl : a = x := Option.some.inj atA
  obtain rfl : b = y := Option.some.inj atB
  simp only [found] at planned
  obtain ⟨_, product, planned⟩ := Answer.bind_eq_ok.mp planned
  obtain ⟨-, rfl⟩ := Bounded.mul_eq_ok.mp (exactly_eq_ok.mp product)
  obtain ⟨_, parameters, planned⟩ := Answer.bind_eq_ok.mp planned
  obtain ⟨small, rfl⟩ := words_eq_ok.mp parameters
  have bound : (floatKernel (launch.inputs ++ launch.outputs).length >>= fun kernel =>
      .ok [onBindings (kernel.withBody p.body) ([extents.m * extents.n, extents.m, extents.n,
        extents.k].map (·.toNat.toUInt32)) (launch.inputs ++ launch.outputs)]) = .ok ds := by
    unfold operands at count
    rw [inputs, outputs] at planned ⊢
    cases hasBias : p.hasBias with
    | false =>
      obtain rfl : rest = [] := by simpa [inputs, hasBias] using count
      rw [hasBias] at planned
      exact planned
    | true =>
      obtain ⟨bias, rfl⟩ : ∃ bias, rest = [bias] := by
        simpa [inputs, hasBias, List.length_eq_one_iff] using count
      rw [hasBias] at planned
      exact planned
  obtain ⟨kernel, floats, answer⟩ := Answer.bind_eq_ok.mp bound
  exact ⟨small, kernel, floats, (Except.ok.inj answer).symm⟩

/-- The dispatch computes the product of the operands of a launch. -/
structure Multiplies (p : MatMul) (launch : Launch) (l : Sizes) (d : Dispatch) : Prop where
  left : ∃ a, launch.inputs[0]? = some a ∧
    a.desc.shape.dims = if p.transposeA then [(l.k : Int), l.m] else [(l.m : Int), l.k]
  right : ∃ b, launch.inputs[1]? = some b ∧
    b.desc.shape.dims = if p.transposeB then [(l.n : Int), l.k] else [(l.k : Int), l.n]
  tensors : d.tensors = (launch.inputs ++ launch.outputs).map Binding.span
  follows : ∀ integers, d.Follows integers launch.inputs.length (p.addressing l)

theorem prod_left {p : MatMul} {l : Sizes} {a : Shape}
    (dims : a.dims = if p.transposeA then [(l.k : Int), l.m] else [(l.m : Int), l.k]) :
    a.extents.prod = l.m * l.k := by
  split at dims
  · rw [Shape.prod_extents_pair dims, Nat.mul_comm]
  · exact Shape.prod_extents_pair dims

theorem prod_right {p : MatMul} {l : Sizes} {b : Shape}
    (dims : b.dims = if p.transposeB then [(l.n : Int), l.k] else [(l.k : Int), l.n]) :
    b.extents.prod = l.n * l.k := by
  split at dims
  · exact Shape.prod_extents_pair dims
  · rw [Shape.prod_extents_pair dims, Nat.mul_comm]

/-- The bound ranges hold the operands, the bias and the product. -/
theorem sized {p : MatMul} {l : Sizes} {launch : Launch} {dtype : ElementType}
    (accepted : launch.Accepted [.rowMajor dtype ⟨[(l.m : Int), (l.n : Int)]⟩])
    (measured : launch.Measured) {a b : Binding} {rest : List Binding}
    (inputs : launch.inputs = a :: b :: rest) (count : launch.inputs.length = p.operands)
    (admits : p.Admits ⟨l.m, l.n, l.k⟩ a.desc.shape b.desc.shape (rest.map Binding.desc)) :
    p.Sized l (Span.elementsAt ((launch.inputs ++ launch.outputs).map Binding.span)) := by
  have output := measured.elementsAt_output accepted 0 rfl
  have beyond := accepted.elementsAt_beyond
  rw [count] at output beyond
  refine ⟨?_, ?_, fun hasBias => ?_, ?_, beyond⟩
  · exact (measured.elementsAt_input accepted 0 (by rw [inputs]; rfl)).trans (prod_left admits.left)
  · exact (measured.elementsAt_input accepted 1 (by rw [inputs]; rfl)).trans
      (prod_right admits.right)
  · obtain ⟨bias, rfl⟩ : ∃ bias, rest = [bias] := by
      simpa [inputs, operands, hasBias, List.length_eq_one_iff] using count
    obtain ⟨desc, _, read, dims⟩ := admits.bias hasBias
    obtain rfl : bias.desc = desc := (List.cons.inj read).1
    rw [measured.elementsAt_input accepted 2 (b := bias) (by rw [inputs]; rfl), Shape.extents, dims]
    exact List.prod_singleton
  · refine (output ?_).trans (Shape.prod_extents_pair rfl)
    show ∀ dim ∈ [(l.m : Int), (l.n : Int)], 0 ≤ dim
    simp

/-- What is planned for a product computes it. -/
theorem multiplies_of_plan {p : MatMul} {launch : Launch} {inferred : List TensorDesc}
    {ds : List Dispatch} (accepted : launch.Accepted inferred) (measured : launch.Measured)
    (param : launch.param = .matMul p) (planned : p.plan launch = .ok ds) :
    ∃ l d, ds = [d] ∧ p.Multiplies launch l d := by
  obtain ⟨count, infers⟩ := Operator.infer_ok accepted.infers
  rw [param] at infers count
  obtain ⟨_, _, _, extents, read, computed, admits, rfl⟩ := infer_ok infers
  simp only [List.map_eq_cons_iff] at read
  obtain ⟨a, _, inputs, rfl, b, rest, rfl, rfl, rfl⟩ := read
  obtain ⟨out, outputs⟩ := List.length_eq_one_iff.mp accepted.outputs.length_eq
  rw [List.length_map] at count
  obtain ⟨words, kernel, floats, rfl⟩ :=
    plan_ok inputs count outputs (planExtents?_eq computed admits) planned
  simp only [List.forall_mem_cons, List.not_mem_nil, false_imp_iff, implies_true, and_true] at words
  obtain ⟨product, rows, columns, inner⟩ := words
  obtain ⟨l, rfl⟩ : ∃ l : Sizes, extents = ⟨l.m, l.n, l.k⟩ := by
    refine ⟨⟨extents.m.toNat, extents.n.toNat, extents.k.toNat⟩, ?_⟩
    simp only [Int.toNat_of_nonneg rows.1, Int.toNat_of_nonneg columns.1,
      Int.toNat_of_nonneg inner.1]
  have fewLeft := measured.few a (by simp [inputs])
  have fewRight := measured.few b (by simp [inputs])
  rw [prod_left admits.left] at fewLeft
  rw [prod_right admits.right] at fewRight
  have small : Small l := by
    dsimp only at product columns inner
    refine ⟨by exact_mod_cast product.2, ?_, ?_, ?_, ?_⟩ <;> omega
  refine ⟨l, _, rfl, ⟨a, by rw [inputs]; rfl, admits.left⟩, ⟨b, by rw [inputs]; rfl, admits.right⟩,
    rfl, fun integers => ?_⟩
  rw [count]
  exact dispatched_follows (by simpa using floatKernel_ok floats)
    (sized accepted measured inputs count admits) small integers

end OperatorGraph.MatMul
