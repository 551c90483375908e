import OperatorGraph.Shader.Syntax

set_option autoImplicit false

namespace OperatorGraph.Shader

/-- What a device does with floating point numbers. -/
structure Arithmetic (F : Type) where
  ofBits : UInt32 → F
  ofWord : UInt32 → F
  ofInt : Int32 → F
  ofText : String → F
  toWord : F → UInt32
  toInt : F → Int32
  add : F → F → F
  sub : F → F → F
  mul : F → F → F
  div : F → F → F
  max : F → F → F
  negate : F → F
  exp : F → F
  tanh : F → F
  inverseSqrt : F → F

/-- The value of an expression. Words and integers have 32 bits and wrap around; dividing them by
zero gives the dividend and leaves no remainder. -/
inductive Value (F : Type) where
  | word (value : UInt32)
  | int (value : Int32)
  /-- An integer whose type its context decides. -/
  | literal (value : Nat)
  | real (value : F)
  | flag (value : Bool)
  deriving DecidableEq, Repr

namespace BinaryOp

variable {F : Type}

def onWords (op : BinaryOp) (a b : UInt32) : Option (Value F) :=
  match op with
  | add => some (.word (a + b))
  | sub => some (.word (a - b))
  | mul => some (.word (a * b))
  | div => some (.word (if b = 0 then a else a / b))
  | mod => some (.word (if b = 0 then 0 else a % b))
  | less => some (.flag (a < b))
  | atLeast => some (.flag (b ≤ a))
  | or => none

def onInts (op : BinaryOp) (a b : Int32) : Option (Value F) :=
  match op with
  | add => some (.int (a + b))
  | sub => some (.int (a - b))
  | mul => some (.int (a * b))
  | div => some (.int (if b = 0 then a else a / b))
  | mod => some (.int (if b = 0 then 0 else a % b))
  | less => some (.flag (a < b))
  | atLeast => some (.flag (b ≤ a))
  | or => none

def onReals (m : Arithmetic F) (op : BinaryOp) (a b : F) : Option (Value F) :=
  match op with
  | add => some (.real (m.add a b))
  | sub => some (.real (m.sub a b))
  | mul => some (.real (m.mul a b))
  | div => some (.real (m.div a b))
  | mod | less | atLeast | or => none

/-- An operator on two values of one type. A literal takes the type of the other operand. -/
def apply (m : Arithmetic F) (op : BinaryOp) : Value F → Value F → Option (Value F)
  | .word a, .word b => op.onWords a b
  | .word a, .literal b => op.onWords a (UInt32.ofNat b)
  | .literal a, .word b => op.onWords (UInt32.ofNat a) b
  | .int a, .int b => op.onInts a b
  | .int a, .literal b => op.onInts a (Int32.ofNat b)
  | .literal a, .int b => op.onInts (Int32.ofNat a) b
  | .real a, .real b => op.onReals m a b
  | _, _ => none

end BinaryOp

namespace Value

variable {F : Type}

def negate (m : Arithmetic F) : Value F → Option (Value F)
  | int a => some (int (-a))
  | real a => some (real (m.negate a))
  | _ => none

def toReal (m : Arithmetic F) : Value F → Option (Value F)
  | word a => some (real (m.ofWord a))
  | int a => some (real (m.ofInt a))
  | literal a => some (real (m.ofWord (UInt32.ofNat a)))
  | real a => some (real a)
  | flag _ => none

def toInt (m : Arithmetic F) : Value F → Option (Value F)
  | word a => some (int a.toInt32)
  | int a => some (int a)
  | literal a => some (int (Int32.ofNat a))
  | real a => some (int (m.toInt a))
  | flag _ => none

def toWord (m : Arithmetic F) : Value F → Option (Value F)
  | word a => some (word a)
  | int a => some (word a.toUInt32)
  | literal a => some (word (UInt32.ofNat a))
  | real a => some (word (m.toWord a))
  | flag _ => none

/-- The functions of the language itself. -/
def builtin (m : Arithmetic F) : String → List (Value F) → Option (Value F)
  | "f32", [a] => a.toReal m
  | "i32", [a] => a.toInt m
  | "u32", [a] => a.toWord m
  | "bitcast<f32>", [word a] => some (real (m.ofBits a))
  | "max", [real a, real b] => some (real (m.max a b))
  | "exp", [real a] => some (real (m.exp a))
  | "tanh", [real a] => some (real (m.tanh a))
  | "inverseSqrt", [real a] => some (real (m.inverseSqrt a))
  | _, _ => none

/-- The position that a value stands for in an array. -/
def position? : Value F → Option Nat
  | word a => some a.toNat
  | literal a => some a
  | _ => none

end Value

end OperatorGraph.Shader
