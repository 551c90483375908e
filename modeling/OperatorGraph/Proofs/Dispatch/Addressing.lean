import OperatorGraph.Proofs.Dispatch.Contents

set_option autoImplicit false

namespace OperatorGraph

open Shader RowMajor

namespace RowMajor

@[simp] theorem position_nil (coords : List Nat) : position [] coords = 0 := by
  cases coords <;> rfl

@[simp] theorem position_singleton (dim coord : Nat) : position [dim] [coord] = coord := by
  rw [position_cons, List.prod_nil, position_nil, Nat.mul_one, Nat.add_zero]

@[simp] theorem position_pair (rows cols row col : Nat) :
    position [rows, cols] [row, col] = row * cols + col := by
  rw [position_cons, List.prod_singleton, position_singleton]

section

variable {cols col : Nat} (inside : col < cols) (row : Nat)
include inside

theorem row_of_position : (row * cols + col) / cols = row := by
  rw [Nat.mul_comm, Nat.mul_add_div (by omega), Nat.div_eq_of_lt inside, Nat.add_zero]

theorem col_of_position : (row * cols + col) % cols = col := by
  rw [Nat.mul_comm, Nat.mul_add_mod, Nat.mod_eq_of_lt inside]

end

theorem inside_nil {coords : List Nat} : Inside coords [] ↔ coords = [] :=
  List.forall₂_nil_right_iff

theorem inside_cons {coords dims : List Nat} {dim : Nat} :
    Inside coords (dim :: dims) ↔
      ∃ coord < dim, ∃ rest, Inside rest dims ∧ coords = coord :: rest := by
  simp only [Inside, List.forall₂_cons_right_iff]
  constructor
  · rintro ⟨coord, rest, below, inside, rfl⟩
    exact ⟨coord, below, rest, inside, rfl⟩
  · rintro ⟨coord, below, rest, inside, rfl⟩
    exact ⟨coord, rest, below, inside, rfl⟩

theorem inside_singleton {coords : List Nat} {dim : Nat} :
    Inside coords [dim] ↔ ∃ coord < dim, coords = [coord] := by
  simp only [inside_cons, inside_nil, exists_eq_left]

theorem inside_pair {coords : List Nat} {rows cols : Nat} :
    Inside coords [rows, cols] ↔ ∃ row < rows, ∃ col < cols, coords = [row, col] := by
  rw [inside_cons]
  constructor
  · rintro ⟨row, inRows, rest, inside, rfl⟩
    obtain ⟨col, inCols, rfl⟩ := inside_singleton.mp inside
    exact ⟨row, inRows, col, inCols, rfl⟩
  · rintro ⟨row, inRows, col, inCols, rfl⟩
    exact ⟨row, inRows, [col], inside_singleton.mpr ⟨col, inCols, rfl⟩, rfl⟩

end RowMajor

/-- An access to an element that its tensor has. -/
def Shader.Access.Within (size : Nat → Nat) : Access → Prop
  | .read .info _ => False
  | .read (.tensor binding) i | .write binding i => i < size binding

@[simp] theorem Shader.Access.within_read {size : Nat → Nat} {binding i : Nat} :
    (Access.read (.tensor binding) i).Within size ↔ i < size binding := Iff.rfl

@[simp] theorem Shader.Access.within_write {size : Nat → Nat} {binding i : Nat} :
    (Access.write binding i).Within size ↔ i < size binding := Iff.rfl

/-- The extents of the grid of threads, and what the thread of a coordinate reads and writes, in
order. Readings of the launch parameters are left out. -/
structure Addressing where
  grid : List Nat
  trace : List Nat → List Access

/-- Tensors of these sizes are accessed inside their bounds. Those behind the inputs are written,
each element of them at one coordinate of the grid. -/
structure Addressing.Covers (a : Addressing) (size : Nat → Nat) (inputs : Nat) : Prop where
  inside : ∀ coords, Inside coords a.grid → ∀ access ∈ a.trace coords, access.Within size
  outputs : ∀ coords, Inside coords a.grid → ∀ binding k, .write binding k ∈ a.trace coords →
    inputs < binding
  once : ∀ binding k, inputs < binding → k < size binding →
    ∃! coords, Inside coords a.grid ∧ .write binding k ∈ a.trace coords

/-- A grid as large as the only output, whose coordinates write one element each. -/
theorem Addressing.covers_of_own {a : Addressing} {size : Nat → Nat} {inputs : Nat}
    (inside : ∀ coords, Inside coords a.grid → ∀ access ∈ a.trace coords, access.Within size)
    (written : ∀ coords, Inside coords a.grid → ∀ binding k,
      .write binding k ∈ a.trace coords ↔ binding = inputs + 1 ∧ k = position a.grid coords)
    (whole : size (inputs + 1) = a.grid.prod)
    (others : ∀ binding, inputs + 1 < binding → size binding = 0) : a.Covers size inputs := by
  refine ⟨inside, fun coords within binding k member => ?_, fun binding k output below => ?_⟩
  · have own := ((written coords within binding k).mp member).1
    omega
  · obtain rfl : binding = inputs + 1 := by
      by_contra other
      have none := others binding (by omega)
      omega
    rw [whole] at below
    have within := inside_coordinate below
    refine ⟨coordinate a.grid k, ⟨within, ?_⟩, ?_⟩
    · exact (written _ within _ k).mpr ⟨rfl, (position_coordinate below).symm⟩
    · rintro coords ⟨alsoWithin, member⟩
      rw [((written coords alsoWithin _ k).mp member).2, coordinate_position alsoWithin]

/-- A kernel over floats and integers declares their types. -/
theorem Shader.Kernel.binding_ok {dtypes : List ElementType}
    (bindable : ∀ dtype ∈ dtypes, dtype = .f32 ∨ dtype = .i32) :
    ∃ kernel, Kernel.binding dtypes = .ok kernel ∧
      kernel.tensors = dtypes.map ElementType.render := by
  have behind (kernel : Kernel) : ∃ last, dtypes.foldlM Kernel.bind kernel = .ok last ∧
      last.tensors = kernel.tensors ++ dtypes.map ElementType.render := by
    induction dtypes generalizing kernel with
    | nil => exact ⟨kernel, rfl, (List.append_nil _).symm⟩
    | cons dtype rest ih =>
      obtain ⟨first, others⟩ := List.forall_mem_cons.mp bindable
      have bound : kernel.bind dtype =
          .ok { kernel with tensors := kernel.tensors ++ [dtype.render] } := by
        rcases first with rfl | rfl <;> rfl
      obtain ⟨last, folded, tensors⟩ :=
        ih others { kernel with tensors := kernel.tensors ++ [dtype.render] }
      refine ⟨last, ?_, by simpa using tensors⟩
      rw [List.foldlM_cons, bound]
      exact folded
  exact behind .empty

theorem Shader.Kernel.tensors_of_binding {dtypes : List ElementType} {kernel : Kernel}
    (bindable : ∀ dtype ∈ dtypes, dtype = .f32 ∨ dtype = .i32)
    (bound : Kernel.binding dtypes = .ok kernel) :
    kernel.tensors = dtypes.map ElementType.render := by
  obtain ⟨found, answer, types⟩ := Kernel.binding_ok bindable
  obtain rfl := Except.ok.inj (bound.symm.trans answer)
  exact types

theorem Dispatch.floatKernel_ok {tensors : Nat} {kernel : Kernel}
    (bound : floatKernel tensors = .ok kernel) :
    kernel.tensors = List.replicate tensors "f32" := by
  rw [Shader.Kernel.tensors_of_binding (fun dtype member => .inl (List.eq_of_mem_replicate member))
    bound, List.map_replicate]
  rfl

namespace Dispatch

/-- Arrays as large as the bound ranges, with elements of the types that the kernel declares and
with these integers in those of integers. -/
structure Typed {F : Type} (d : Dispatch) (integers : Nat → Nat → Int32) (arrays : Arrays F) :
    Prop where
  size : arrays.size = Span.elementsAt d.tensors
  reals : ∀ binding, d.kernel.tensors[binding]? = some "f32" →
    ∀ i < arrays.size (binding + 1), ∃ x, arrays.cell (binding + 1) i = .real x
  ints : ∀ binding, d.kernel.tensors[binding]? = some "i32" →
    ∀ i < arrays.size (binding + 1), arrays.cell (binding + 1) i = .int (integers (binding + 1) i)

/-- Tensors of a kernel over floats hold nothing but floats. -/
theorem Typed.all_reals {F : Type} {d : Dispatch} {integers : Nat → Nat → Int32} {arrays : Arrays F}
    (typed : d.Typed integers arrays)
    (floats : d.kernel.tensors = List.replicate d.tensors.length "f32") :
    ∀ binding, ∀ i < arrays.size binding, ∃ x, arrays.cell binding i = .real x := by
  intro binding i inside
  by_cases bound : binding = 0 ∨ d.tensors.length < binding
  · have none : arrays.size binding = 0 := by
      rw [typed.size]
      rcases bound with rfl | beyond
      · rfl
      · exact Span.elementsAt_of_length_lt beyond
    omega
  · obtain ⟨place, rfl⟩ := Nat.exists_eq_succ_of_ne_zero fun zero => bound (.inl zero)
    refine typed.reals place ?_ i inside
    rw [floats, List.getElem?_replicate_of_lt (by omega)]

/-- The threads make the accesses of their coordinates, whatever else the tensors hold and with any
arithmetic. All of them lie inside the tensors, none but outputs are written, and each element of
those by exactly one thread. -/
structure Follows (d : Dispatch) (integers : Nat → Nat → Int32) (inputs : Nat) (a : Addressing) :
    Prop where
  threads : d.threads = a.grid.prod
  runs : ∀ {F : Type} (m : Arithmetic F) (arrays : Arrays F), d.Typed integers arrays →
    ∀ n < d.threads, ∃ t, d.kernel.runThread m d.info arrays (UInt32.ofNat n) = .ok t ∧
      t.bare.accesses = a.trace (coordinate a.grid n)
  inside : ∀ n < d.threads, ∀ access ∈ a.trace (coordinate a.grid n),
    access.Within (Span.elementsAt d.tensors)
  outputs : ∀ n < d.threads, ∀ binding k, .write binding k ∈ a.trace (coordinate a.grid n) →
    inputs < binding
  once : ∀ binding k, inputs < binding → k < Span.elementsAt d.tensors binding →
    ∃! n, n < d.threads ∧ .write binding k ∈ a.trace (coordinate a.grid n)

/-- It is enough to run the thread of each coordinate of the grid. -/
theorem follows_of_covers {d : Dispatch} {integers : Nat → Nat → Int32} {inputs : Nat}
    {a : Addressing} (body : List Stmt) (program : d.kernel.body = .program body)
    (count : d.info[0]? = some (UInt32.ofNat a.grid.prod)) (small : a.grid.prod < 2 ^ 32)
    (covers : a.Covers (Span.elementsAt d.tensors) inputs)
    (ends : ∀ {F : Type} (m : Arithmetic F) (arrays : Arrays F), d.Typed integers arrays →
      ∀ coords, Inside coords a.grid → ∃ flow, Stmt.Ends (d.kernel.context m d.info) body flow
        (Thread.fresh arrays (position a.grid coords)) fun u => u.accesses = a.trace coords) :
    d.Follows integers inputs a := by
  have threads : d.threads = a.grid.prod := by
    obtain ⟨rest, info⟩ : ∃ rest, d.info = UInt32.ofNat a.grid.prod :: rest := by
      cases listed : d.info with
      | nil => simp [listed] at count
      | cons first rest =>
        rw [listed] at count
        exact ⟨rest, by rw [Option.some.inj count]⟩
    rw [Dispatch.threads, info]
    exact UInt32.toNat_ofNat_of_lt' small
  refine ⟨threads, ?_, ?_, ?_, ?_⟩
  all_goals rw [threads]
  · intro F m arrays typed n below
    obtain ⟨flow, ends⟩ := ends m arrays typed _ (inside_coordinate below)
    rw [position_coordinate below] at ends
    exact Kernel.runThread_below program count small m below ends
  · exact fun n below => covers.inside _ (inside_coordinate below)
  · exact fun n below => covers.outputs _ (inside_coordinate below)
  · intro binding k output inside
    obtain ⟨coords, ⟨within, written⟩, only⟩ := covers.once binding k output inside
    refine ⟨position a.grid coords, ⟨position_lt within, ?_⟩, ?_⟩
    · rwa [coordinate_position within]
    · rintro n ⟨below, alsoWritten⟩
      rw [← only _ ⟨inside_coordinate below, alsoWritten⟩, position_coordinate below]

end Dispatch

end OperatorGraph
