import OperatorGraph.Shape

set_option autoImplicit false

namespace OperatorGraph

/-- A function on shapes that reinterprets one input of a node without moving its elements. -/
structure View where
  name : String
  apply : Shape → Shape

namespace View

/-- A view given by any function of the shape. -/
def ofFunction (apply : Shape → Shape) : View :=
  ⟨"view", apply⟩

/-- Joins all dimensions but the last. -/
def flattenLeading : View where
  name := "flatten_leading"
  apply s := match s.dims.getLast? with
    | none => s
    | some last => ⟨[Bounded.satProduct s.dims.dropLast, last]⟩

/-- Splits the last dimension into a number of heads. -/
def splitLast (heads : Int) : View where
  name := "split_last"
  apply s := match s.dims.getLast? with
    | some last => if 0 < heads then ⟨s.dims.dropLast ++ [heads, last.tdiv heads]⟩ else s
    | none => s

def mergeLast : List Int → List Int
  | [] => []
  | [dim] => [dim]
  | [a, b] => [Bounded.satMul a b]
  | a :: b :: c :: rest => a :: mergeLast (b :: c :: rest)

/-- Joins the last two dimensions. -/
def mergeLastTwo : View where
  name := "merge_last_two"
  apply s := ⟨mergeLast s.dims⟩

/-- What a dimension of minus one stands for in a reshape target: the element count over the
product of the other dimensions. -/
def inferredDim (s target : Shape) : Int :=
  let known := Bounded.satProduct (target.dims.filter (· ≠ -1))
  if known = 0 then 0 else s.elementCount.tdiv known

def reshape (target : Shape) : View where
  name := "reshape"
  apply s := ⟨target.dims.map fun dim => if dim = -1 then inferredDim s target else dim⟩

/-- Inserts a dimension of one, at the end if the axis lies beyond it. -/
def unsqueeze (axis : Nat) : View where
  name := "unsqueeze"
  apply s := ⟨s.dims.insertIdx (min axis s.rank) 1⟩

/-- Drops a dimension if it is one. -/
def squeeze (axis : Nat) : View where
  name := "squeeze"
  apply s := if s.dims[axis]? = some 1 then ⟨s.dims.eraseIdx axis⟩ else s

/-- The saturating element count is the same before and after. -/
def KeepsCount (v : View) (s : Shape) : Prop :=
  (v.apply s).elementCount = s.elementCount

instance (v : View) (s : Shape) : Decidable (v.KeepsCount s) :=
  inferInstanceAs (Decidable (_ = _))

def describe (v : View) : String :=
  Text.tagged "ViewFn" v.name

end View

end OperatorGraph
