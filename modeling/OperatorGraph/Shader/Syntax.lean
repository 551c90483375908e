set_option autoImplicit false

namespace OperatorGraph.Shader

/-- An array that a kernel is bound to: its launch parameters, or one of its tensors, counted from
one. -/
inductive Buffer where
  | info
  | tensor (binding : Nat)
  deriving DecidableEq, Repr

inductive BinaryOp where
  | add | sub | mul | div | mod | less | atLeast | or
  deriving DecidableEq, Repr

inductive Expr where
  /-- An unsigned literal. -/
  | word (value : Nat)
  /-- An integer literal whose type its context decides. -/
  | int (value : Nat)
  /-- A floating point literal. -/
  | real (text : String)
  | var (name : String)
  | load (buffer : Buffer) (index : Expr)
  | negate (operand : Expr)
  | binary (op : BinaryOp) (lhs rhs : Expr)
  /-- An expression in parentheses. -/
  | group (inner : Expr)
  | call (function : String) (args : List Expr)
  deriving Repr

namespace Expr

instance (n : Nat) : OfNat Expr n := ⟨word n⟩

instance : Add Expr := ⟨binary .add⟩

instance : Sub Expr := ⟨binary .sub⟩

instance : Mul Expr := ⟨binary .mul⟩

instance : Div Expr := ⟨binary .div⟩

instance : Mod Expr := ⟨binary .mod⟩

instance : Neg Expr := ⟨negate⟩

/-- A launch parameter at a fixed position. -/
def info (position : Nat) : Expr :=
  load .info (int position)

/-- A launch parameter at a computed position. -/
def infoAt (position : Expr) : Expr :=
  load .info position

def tensor (binding : Nat) (index : Expr) : Expr :=
  load (.tensor binding) index

/-- A word read as the float of the same bits. -/
def asFloat (word : Expr) : Expr :=
  call "bitcast<f32>" [word]

/-- The number of the thread. -/
def thread : Expr :=
  var "index"

end Expr

/-- How the body of a loop is laid out. -/
inductive Layout where
  | inline
  | block
  deriving DecidableEq, Repr

inductive Stmt where
  /-- A name for a value. -/
  | bind (name : String) (value : Expr)
  /-- A variable with its first value. -/
  | declare (name : String) (value : Expr)
  | assign (name : String) (value : Expr)
  | addTo (name : String) (value : Expr)
  | mulBy (name : String) (value : Expr)
  | store (buffer : Buffer) (index value : Expr)
  /-- Runs the body for every value of the counter from `first` up to, but not including,
  `bound`. -/
  | count (layout : Layout) (counter : String) (first bound : Expr) (body : List Stmt)
  | when (condition : Expr) (body : List Stmt)
  /-- Leaves the innermost loop. -/
  | leave
  /-- Ends the thread. -/
  | stop
  /-- An empty line. -/
  | blank
  deriving Repr

/-- A program, or text that stands for one. -/
inductive Code where
  | program (body : List Stmt)
  | text (source : String)
  deriving Repr

end OperatorGraph.Shader
