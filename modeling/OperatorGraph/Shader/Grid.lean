import OperatorGraph.Dispatch.Basic
import OperatorGraph.Shader.Run

set_option autoImplicit false

namespace OperatorGraph

namespace Shader.Kernel

/-- The thread number that the source computes from an invocation's place in the grid. -/
def threadAt (groups : Nat × Nat) (x y : Nat) : UInt32 :=
  UInt32.ofNat x + UInt32.ofNat y * UInt32.ofNat groups.1 * UInt32.ofNat blockSize

/-- The thread numbers of all invocations of a grid. -/
def invocations (groups : Nat × Nat) : List UInt32 :=
  (List.range groups.2).flatMap fun y =>
    (List.range (groups.1 * blockSize)).map fun x => threadAt groups x y

end Shader.Kernel

namespace Dispatch

open Shader

variable {F : Type}

/-- The arrays after the threads of a dispatch, run one after another. -/
def runThreads (d : Dispatch) (m : Arithmetic F) (threads : List UInt32) (arrays : Arrays F) :
    Except Trap (Arrays F) :=
  threads.foldlM (fun now index => Thread.arrays <$> d.kernel.runThread m d.info now index) arrays

/-- The arrays after a dispatch. Without threads it does nothing. -/
def run (d : Dispatch) (m : Arithmetic F) (arrays : Arrays F) : Except Trap (Arrays F) :=
  match d.info with
  | [] => .error (.outside .info 0)
  | threads :: _ =>
    if threads = 0 then .ok arrays
    else d.runThreads m (Kernel.invocations (Kernel.workgroups threads.toNat)) arrays

end Dispatch

end OperatorGraph
