import OperatorGraph.Dispatch.Error
import OperatorGraph.Shader.Render

set_option autoImplicit false

/-!
Kernels: a program for one thread together with the tensors it is bound to and the functions it
calls. Binding zero holds the launch parameters, whose first word is the number of threads; the
tensors follow in order, all of them readable and writable, so that any two may share bytes.
-/
namespace OperatorGraph.Shader

structure Function where
  id : Nat
  type : String
  body : Code
  /-- Parameter names with their types. -/
  params : List (String × String)
  deriving Repr

namespace Function

def name (f : Function) : String :=
  "f_" ++ toString f.id

def render (f : Function) : String :=
  let params := ", ".intercalate (f.params.map fun (name, type) => name ++ ": " ++ type)
  "fn " ++ f.name ++ "(" ++ params ++ ") -> " ++ f.type ++ " \x7b " ++ f.body.render ++
    " return output; \x7d"

/-- The text of a call with arguments that are text. -/
def callText (f : Function) (args : List String) : String :=
  f.name ++ "(" ++ ", ".intercalate args ++ ")"

def call (f : Function) (args : List Expr) : Expr :=
  .call f.name args

end Function

structure Kernel where
  /-- The scalar types of the tensors, from binding one on. -/
  tensors : List String
  functions : List Function
  body : Code
  deriving Repr

/-- The scalar type of a tensor that can be bound. Half precision storage would need a feature
that the device is not asked for. -/
def bindableType (dtype : ElementType) : Except KernelError String :=
  match dtype, dtype.shaderType? with
  | .f16, _ | _, none => .error (.rejected (.unbindable dtype))
  | _, some type => .ok type

namespace Kernel

/-- Threads per workgroup. -/
def blockSize : Nat := 256

/-- Workgroups per dimension that every device admits. -/
def maxWorkgroups : Nat := 65535

def empty : Kernel :=
  ⟨[], [], .text ""⟩

/-- Binds one more tensor, if its elements can be bound. -/
def bind (k : Kernel) (dtype : ElementType) : Except KernelError Kernel := do
  return { k with tensors := k.tensors ++ [← bindableType dtype] }

/-- A kernel that is bound to tensors of the given element types. -/
def binding (dtypes : List ElementType) : Except KernelError Kernel :=
  dtypes.foldlM bind empty

/-- The name of the tensor that was bound last. -/
def lastBinding (k : Kernel) : Buffer :=
  .tensor k.tensors.length

/-- Binds tensors in order and passes over those that cannot be bound. -/
def bindEach (k : Kernel) :
    List ElementType → Kernel × List (Except KernelError (Buffer × String))
  | [] => (k, [])
  | dtype :: rest => match bindableType dtype with
    | .error refusal =>
      let (last, bound) := k.bindEach rest
      (last, .error refusal :: bound)
    | .ok type =>
      let next := { k with tensors := k.tensors ++ [type] }
      let (last, bound) := next.bindEach rest
      (last, .ok (next.lastBinding, type) :: bound)

/-- Adds a function under the next free number. -/
def define (k : Kernel) (type : String) (body : Code) (params : List (String × String)) :
    Function × Kernel :=
  let function : Function := ⟨k.functions.length, type, body, params⟩
  (function, { k with functions := k.functions ++ [function] })

def withBody (k : Kernel) (body : List Stmt) : Kernel :=
  { k with body := .program body }

/-- The declarations of the tensor arrays. -/
def declarations (k : Kernel) : List String :=
  k.tensors.zipIdx.map fun (type, position) =>
    let binding := position + 1
    "@group(0) @binding(" ++ toString binding ++ ") var<storage, read_write> " ++
      (Buffer.tensor binding).render ++ ": array<" ++ type ++ ">;"

/-- The lines of the source. Threads beyond the thread count return at once. -/
def lines (k : Kernel) : List String :=
  ["@group(0) @binding(0) var<storage, read> info: array<u32>;"] ++ k.declarations ++
    k.functions.map Function.render ++
    ["const BLOCKSIZE: u32 = " ++ toString blockSize ++ "u;",
      "@compute @workgroup_size(" ++ toString blockSize ++ ", 1, 1)",
      "fn main(@builtin(global_invocation_id) global_id: vec3<u32>, " ++
        "@builtin(num_workgroups) num_workgroups: vec3<u32>) \x7b",
      "let index = global_id.x + global_id.y * num_workgroups.x * BLOCKSIZE;",
      "if (index >= info[0]) \x7b return; \x7d",
      k.body.render,
      "\x7d"]

def source (k : Kernel) : String :=
  String.join (k.lines.map (· ++ "\n"))

/-- The workgroups in both dimensions of the grid that runs a number of threads. -/
def workgroups (threads : Nat) : Nat × Nat :=
  let groups := (threads + (blockSize - 1)) / blockSize
  if groups ≤ maxWorkgroups then (groups, 1)
  else (maxWorkgroups, (groups + (maxWorkgroups - 1)) / maxWorkgroups)

end Kernel

end OperatorGraph.Shader
