import OperatorGraph.Bounded
import OperatorGraph.Text.Record

set_option autoImplicit false

namespace OperatorGraph

/-- Ordered dimension sizes. A negative one is not known yet. -/
structure Shape where
  dims : List Int
  deriving DecidableEq, Inhabited, Repr

namespace Shape

def scalar : Shape := ⟨[]⟩

def rank (s : Shape) : Nat :=
  s.dims.length

def push (s : Shape) (dim : Int) : Shape :=
  ⟨s.dims ++ [dim]⟩

/-- The product of all dimensions, saturating at the ends of the 64-bit range. -/
def elementCount (s : Shape) : Int :=
  Bounded.satProduct s.dims

/-- The product of all dimensions, if no prefix of it leaves the 64-bit range. -/
def elementCount? (s : Shape) : Option Int :=
  Bounded.product? s.dims

/-- Every dimension is known. -/
def Resolved (s : Shape) : Prop :=
  ∀ dim ∈ s.dims, 0 ≤ dim

instance (s : Shape) : Decidable s.Resolved :=
  inferInstanceAs (Decidable (∀ dim ∈ s.dims, 0 ≤ dim))

/-- The position that an axis names. Negative axes count from the end. -/
def axis? (s : Shape) (axis : Int) : Option Nat :=
  let position := if axis < 0 then axis + s.rank else axis
  if 0 ≤ position ∧ position < s.rank then some position.toNat else none

/-- The saturating product of a list of dimensions, from the right. -/
def volume (dims : List Int) : Int :=
  dims.foldr (fun dim product => Bounded.satMul product dim) 1

/-- Row-major strides in elements: each is the volume of the dimensions to its right. -/
def strides : List Int → List Int
  | [] => []
  | _ :: rest => volume rest :: strides rest

def contiguousStrides (s : Shape) : List Int :=
  strides s.dims

def render (s : Shape) : String :=
  Text.listing (s.dims.map toString)

@[simp] theorem length_strides (dims : List Int) : (strides dims).length = dims.length := by
  induction dims with
  | nil => rfl
  | cons dim rest ih => simp [strides, ih]

@[simp] theorem length_contiguousStrides (s : Shape) : s.contiguousStrides.length = s.rank :=
  length_strides s.dims

theorem axis?_lt {s : Shape} {axis : Int} {position : Nat}
    (found : s.axis? axis = some position) : position < s.rank := by
  unfold axis? at found
  grind

end Shape

end OperatorGraph
