import OperatorGraph.Shape
import OperatorGraph.Text.Hex
import OperatorGraph.Text.Record

set_option autoImplicit false

namespace OperatorGraph

inductive ElementType where
  | f16 | bf16 | f32 | f64 | i8 | u8 | i32 | i64 | bool
  deriving DecidableEq, Repr

namespace ElementType

def all : List ElementType :=
  [f16, bf16, f32, f64, i8, u8, i32, i64, bool]

/-- The size of one element in bytes. -/
def size : ElementType → Nat
  | i8 | u8 | bool => 1
  | f16 | bf16 => 2
  | f32 | i32 => 4
  | f64 | i64 => 8

def isFloat : ElementType → Bool
  | f16 | bf16 | f32 | f64 => true
  | _ => false

def isInteger : ElementType → Bool
  | i8 | u8 | i32 | i64 => true
  | _ => false

def render : ElementType → String
  | f16 => "f16"
  | bf16 => "bf16"
  | f32 => "f32"
  | f64 => "f64"
  | i8 => "i8"
  | u8 => "u8"
  | i32 => "i32"
  | i64 => "i64"
  | bool => "bool"

def describe : ElementType → String
  | f16 => "F16"
  | bf16 => "BF16"
  | f32 => "F32"
  | f64 => "F64"
  | i8 => "I8"
  | u8 => "U8"
  | i32 => "I32"
  | i64 => "I64"
  | bool => "Bool"

/-- The shading language's scalar type for elements that a storage buffer holds directly. -/
def shaderType? : ElementType → Option String
  | f32 => some "f32"
  | f16 => some "f16"
  | i32 => some "i32"
  | _ => none

end ElementType

/-- How the elements of a tensor are laid out in memory. -/
inductive Format where
  | rowMajor
  | tiled
  deriving DecidableEq, Repr

namespace Format

/-- Every format, in the order in which formats are listed. -/
def all : List Format := [rowMajor, tiled]

def render : Format → String
  | rowMajor => "row-major"
  | tiled => "tiled"

def describe : Format → String
  | rowMajor => "RowMajor"
  | tiled => "Tiled"

end Format

structure TensorDesc where
  dtype : ElementType
  format : Format
  shape : Shape
  deriving DecidableEq, Repr

namespace TensorDesc

def rowMajor (dtype : ElementType) (shape : Shape) : TensorDesc :=
  ⟨dtype, .rowMajor, shape⟩

def withShape (d : TensorDesc) (shape : Shape) : TensorDesc :=
  { d with shape }

def withFormat (d : TensorDesc) (format : Format) : TensorDesc :=
  { d with format }

/-- The size in bytes of a resolved tensor, if its element count fits a signed word and its
byte count an unsigned one. -/
def byteSize? (d : TensorDesc) : Option Nat :=
  if d.shape.Resolved then
    d.shape.elementCount?.bind fun count =>
      let bytes := count.toNat * d.dtype.size
      if bytes < 0x1_0000_0000_0000_0000 then some bytes else none
  else none

/-- The shape is known, but the size in bytes has no representation. -/
def overflows (d : TensorDesc) : Bool :=
  d.shape.Resolved && d.byteSize?.isNone

def render (d : TensorDesc) : String :=
  d.dtype.render ++ d.shape.render ++ " (" ++ d.format.render ++ ")"

def describe (d : TensorDesc) : String :=
  Text.record "TensorDesc"
    [("dtype", d.dtype.describe), ("format", d.format.describe), ("shape", d.shape.render)]

/-- A bound tensor stands for an inferred one if both have the same element type, format and
saturating element count; their dimensions may differ. -/
def Compatible (bound inferred : TensorDesc) : Prop :=
  bound.dtype = inferred.dtype ∧ bound.format = inferred.format ∧
    bound.shape.elementCount = inferred.shape.elementCount

instance (bound inferred : TensorDesc) : Decidable (Compatible bound inferred) :=
  inferInstanceAs (Decidable (_ ∧ _ ∧ _))

end TensorDesc

/-- A device address, a 64-bit word. -/
abbrev Address := Nat

namespace Address

def render (a : Address) : String :=
  Text.hex a

/-- The address some bytes further on. Addresses wrap around. -/
def offset (a : Address) (bytes : Nat) : Address :=
  Bounded.word (a + bytes)

end Address

/-- A range of device bytes. -/
structure Span where
  ptr : Address
  len : Nat
  deriving DecidableEq, Repr

namespace Span

/-- The first address behind the range. -/
def stop (s : Span) : Address :=
  s.ptr.offset s.len

/-- The part that starts `offset` bytes in, if it ends inside the range. -/
def slice? (s : Span) (offset len : Nat) : Option Span :=
  if offset + len ≤ s.len then some ⟨s.ptr.offset offset, len⟩ else none

def describe (s : Span) : String :=
  Text.record "DeviceSpan" [("ptr", s.ptr.render), ("len", toString s.len)]

end Span

/-- The place of a tensor's bytes. -/
inductive Memory where
  | unbound
  /-- Memory of the caller. -/
  | external (ptr : Address)
  /-- A range of the runner's workspace. -/
  | workspace (offset : Nat)
  deriving DecidableEq, Repr

namespace Memory

def describe : Memory → String
  | unbound => "Unbound"
  | external ptr => Text.tagged "External" ptr.render
  | workspace offset => Text.record "Workspace" [("offset", toString offset)]

end Memory

structure Tensor where
  desc : TensorDesc
  memory : Memory
  deriving DecidableEq, Repr

namespace Tensor

/-- The bytes lie in the workspace. -/
def isInternal (t : Tensor) : Bool :=
  match t.memory with
  | .workspace _ => true
  | _ => false

end Tensor

/-- The tensors and the workspace of one call, in the order of a graph's inputs and outputs. -/
structure Pack where
  inputs : List Tensor
  outputs : List Tensor
  workspace : Option Span
  deriving DecidableEq, Repr

end OperatorGraph
