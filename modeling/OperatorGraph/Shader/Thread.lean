import OperatorGraph.Shader.Value

set_option autoImplicit false

namespace OperatorGraph.Shader

inductive Trap where
  | outside (buffer : Buffer) (index : Nat)
  /-- Launch parameters cannot be written. -/
  | readOnly
  | unknownName (name : String)
  | illTyped
  /-- Text that stands for a program is not run. -/
  | textOnly
  deriving DecidableEq, Repr

inductive Access where
  | read (buffer : Buffer) (index : Nat)
  | write (binding index : Nat)
  deriving DecidableEq, Repr

/-- The tensors that a kernel is bound to, counted from one, as arrays that share nothing. -/
structure Arrays (F : Type) where
  size : Nat → Nat
  cell : Nat → Nat → Value F

namespace Arrays

variable {F : Type}

def none : Arrays F :=
  ⟨fun _ => 0, fun _ _ => .literal 0⟩

def store (arrays : Arrays F) (binding index : Nat) (value : Value F) : Arrays F :=
  { arrays with cell := fun b i =>
      if b = binding ∧ i = index then value else arrays.cell b i }

@[simp] theorem size_store (arrays : Arrays F) (binding index : Nat) (value : Value F) :
    (arrays.store binding index value).size = arrays.size := rfl

theorem cell_store (arrays : Arrays F) (binding index : Nat) (value : Value F) (b i : Nat) :
    (arrays.store binding index value).cell b i =
      if b = binding ∧ i = index then value else arrays.cell b i := rfl

end Arrays

/-- Variables, the arrays that the thread works on, and the accesses it has made so far. -/
structure Thread (F : Type) where
  vars : String → Option (Value F)
  arrays : Arrays F
  /-- In the order in which they were made. -/
  accesses : List Access

namespace Thread

variable {F : Type}

def set (t : Thread F) (name : String) (value : Value F) : Thread F :=
  { t with vars := fun other => if other = name then some value else t.vars other }

/-- The thread after some more accesses. -/
def after (t : Thread F) (accesses : List Access) : Thread F :=
  { t with accesses := t.accesses ++ accesses }

def lookup (t : Thread F) (name : String) : Except Trap (Value F) :=
  match t.vars name with
  | some value => .ok value
  | none => .error (.unknownName name)

/-- An element of an array, or of the launch parameters. -/
def load (t : Thread F) (info : List UInt32) (buffer : Buffer) (index : Nat) :
    Except Trap (Value F) :=
  match buffer with
  | .info => match info[index]? with
    | some word => .ok (.word word)
    | none => .error (.outside .info index)
  | .tensor binding =>
    if index < t.arrays.size binding then .ok (t.arrays.cell binding index)
    else .error (.outside buffer index)

def store (t : Thread F) (buffer : Buffer) (index : Nat) (value : Value F) :
    Except Trap (Thread F) :=
  match buffer with
  | .info => .error .readOnly
  | .tensor binding =>
    if index < t.arrays.size binding then
      .ok { t with
        arrays := t.arrays.store binding index value
        accesses := t.accesses ++ [.write binding index] }
    else .error (.outside buffer index)

end Thread

end OperatorGraph.Shader
