import OperatorGraph.Inference
import OperatorGraph.Proofs.Products

set_option autoImplicit false

namespace OperatorGraph

namespace Inference

variable {α : Type}

@[simp] theorem objection_ne_ok {o : Objection} {a : α} :
    (objection o : Except ShapeError α) = .ok a ↔ False := by
  simp [objection]

@[simp] theorem missingInput_ne_ok {a : α} :
    (missingInput : Except ShapeError α) = .ok a ↔ False := by
  simp [missingInput]

@[simp] theorem exactly_eq_ok {value : Except Fault α} {a : α} :
    exactly value = .ok a ↔ value = .ok a := by
  simp [exactly]

@[simp] theorem expectRank_eq_ok {index : Nat} {x : TensorDesc} {rank : Nat} {done : Unit} :
    expectRank index x rank = .ok done ↔ x.shape.rank = rank := by
  unfold expectRank
  by_cases same : x.shape.rank = rank <;> simp [same]

@[simp] theorem expectDtype_eq_ok {index : Nat} {x : TensorDesc} {expected : ElementType}
    {done : Unit} : expectDtype index x expected = .ok done ↔ x.dtype = expected := by
  unfold expectDtype
  by_cases same : x.dtype = expected <;> simp [same]

@[simp] theorem expectFloat_eq_ok {index : Nat} {x : TensorDesc} {done : Unit} :
    expectFloat index x = .ok done ↔ x.dtype.isFloat := by
  unfold expectFloat
  by_cases float : x.dtype.isFloat <;> simp [float]

@[simp] theorem dimAt_eq_ok {x : TensorDesc} {axis : Nat} {dim : Int} :
    dimAt x axis = .ok dim ↔ x.shape.dims[axis]? = some dim := by
  unfold dimAt
  cases found : x.shape.dims[axis]? <;> simp

@[simp] theorem expectDim_eq_ok {index : Nat} {x : TensorDesc} {axis : Nat} {expected : Int}
    {done : Unit} :
    expectDim index x axis expected = .ok done ↔ x.shape.dims[axis]? = some expected := by
  unfold expectDim
  cases found : x.shape.dims[axis]? with
  | none => simp [dimAt, found]
  | some dim =>
    have answer : dimAt x axis = .ok dim := dimAt_eq_ok.mpr found
    by_cases same : dim = expected <;> simp [found, same]

@[simp] theorem axisOf_eq_ok {s : Shape} {axis : Int} {position : Nat} :
    axisOf s axis = .ok position ↔ s.axis? axis = some position := by
  unfold axisOf
  cases s.axis? axis <;> simp

@[simp] theorem broadcast_eq_ok {lhs rhs shape : Shape} :
    broadcast lhs rhs = .ok shape ↔ lhs.broadcast? rhs = some shape := by
  unfold broadcast
  cases lhs.broadcast? rhs <;> simp

end Inference

theorem Shape.dims_of_rank_one {s : Shape} (rank : s.rank = 1) {size : Int}
    (first : s.dims[0]? = some size) : s.dims = [size] := by
  obtain ⟨a, dims⟩ := List.length_eq_one_iff.mp rank
  rw [dims] at first ⊢
  obtain rfl : a = size := by simpa using first
  rfl

theorem Shape.dims_of_rank_two {s : Shape} (rank : s.rank = 2) {first second : Int}
    (atFirst : s.dims[0]? = some first) (atSecond : s.dims[1]? = some second) :
    s.dims = [first, second] := by
  obtain ⟨a, b, dims⟩ := List.length_eq_two.mp rank
  rw [dims] at atFirst atSecond ⊢
  obtain rfl : a = first := by simpa using atFirst
  obtain rfl : b = second := by simpa using atSecond
  rfl

end OperatorGraph
