import OperatorGraph.Device.Memory
import OperatorGraph.Device.Stream
import OperatorGraph.Dispatch.Plan
import OperatorGraph.Shader.Typing
import OperatorGraph.Text.Quoted

set_option autoImplicit false

namespace OperatorGraph

structure Adapter where
  name : String
  backend : String
  /-- The alignment of a binding's offset into its buffer. -/
  storageAlignment : Nat
  /-- The bytes of the largest buffer. -/
  maxBuffer : Nat
  /-- The bytes of the largest binding. -/
  maxBinding : Nat
  deriving DecidableEq, Repr

/-- Host memory in the place of a graphics processor. -/
def Adapter.host : Adapter where
  name := "host"
  backend := "Vulkan"
  storageAlignment := 256
  maxBuffer := 0x1000_0000
  maxBinding := 0x800_0000

/-- Memory, the kernels that were compiled for it, and a stream. What the device does not admit is a
fault: a buffer that is too large, a kernel that is not well typed. -/
structure Device where
  adapter : Adapter
  memory : DeviceMemory
  /-- The sources of the kernels that were compiled. -/
  pipelines : List String
  stream : Stream

namespace Device

/-- The device of an adapter, if there is one. -/
def new : Option Adapter → Except DeviceError Device
  | some adapter => .ok ⟨adapter, .empty, [], []⟩
  | none => .error .noAdapter

/-- What a new device adds to the log. -/
def greeting (d : Device) : Log :=
  [⟨.info, "using " ++ d.adapter.name ++ " (" ++ d.adapter.backend ++ ") for kernel dispatch"⟩]

def describe (d : Device) : String :=
  Text.opaqueRecord "Device" [("adapter", Text.quote d.adapter.name)]

/-- A buffer for a number of bytes has to be one that the device admits. -/
def checkBuffer (d : Device) (len : Nat) : Except Fault Unit :=
  if DeviceMemory.bufferSize len ≤ d.adapter.maxBuffer then .ok () else .error .bufferSize

/-- Allocates at least so many bytes of device memory, all zero. -/
def alloc (d : Device) (len : Nat) : Except Fault (Outcome Device DeviceError Span) := do
  d.checkBuffer len
  return (d.memory.alloc len).within fun memory => { d with memory }

/-- Allocates a buffer that holds the given bytes. -/
def allocFrom (d : Device) (data : List UInt8) :
    Except Fault (Outcome Device DeviceError Span) := do
  d.checkBuffer data.length
  return (d.memory.allocFrom data).within fun memory => { d with memory }

/-- The binding of a range, whose offset into its buffer has to be aligned. -/
def bindSpan (d : Device) (span : Span) : Except DeviceError BufferBinding := do
  let (a, offset) ← d.memory.resolve span
  if offset % d.adapter.storageAlignment ≠ 0 then
    .error (.misaligned span.ptr offset d.adapter.storageAlignment)
  else
    let address := a.base.offset offset
    if span.len = 0 then return ⟨address, none, a.size - offset⟩
    else return ⟨address, some span.len, span.len⟩

/-- A binding covers at least one element and no more bytes than the device admits. -/
def admits (d : Device) (b : BufferBinding) : Bool :=
  BufferBinding.elementSize ≤ b.extent && b.extent ≤ d.adapter.maxBinding

/-- Compiles a kernel unless one of the same source was compiled before. -/
def compile (d : Device) (kernel : Shader.Kernel) : Outcome Device KernelError Unit :=
  let source := kernel.source
  if source ∈ d.pipelines then .done d ()
  else
    let line := s!"compiling kernel with {kernel.tensors.length} tensor bindings:\n" ++ source
    let compiled : Outcome Device KernelError Unit :=
      if kernel.isWellTyped then .done { d with pipelines := d.pipelines ++ [source] } ()
      else .failed d (.fault .illTyped)
    { compiled with log := [⟨.debug, line⟩] }

/-- Adds a dispatch to the stream. It is counted there before its bindings are checked. -/
def enqueue (node : String) (d : Device) (threads : Nat) (dispatch : Recorded) :
    Outcome Device KernelError Unit where
  state := { d with stream := d.stream ++ [dispatch] }
  log := [⟨.trace, "dispatching `" ++ node ++ s!"` over {threads} threads"⟩]
  result := if dispatch.bindings.all d.admits then .ok () else .error (.fault .bindingSize)

/-- Records one dispatch. A dispatch without threads is left out. -/
def record (node : String) (d : Device) (dispatch : Dispatch) : Outcome Device KernelError Unit :=
  match dispatch.info with
  | [] => .failed d (.fault .indexOutOfRange)
  | threads :: _ =>
    if threads = 0 then .done d ()
    else match dispatch.tensors.mapM d.bindSpan with
      | .error refusal => .failed d (.device refusal)
      | .ok bindings =>
        let groups := Shader.Kernel.workgroups threads.toNat
        (d.compile dispatch.kernel).andThen fun compiled _ =>
          compiled.enqueue node threads.toNat ⟨groups, dispatch.info, bindings⟩

/-- Launches become dispatches on the device's stream. When one of them fails, those before it
stay recorded. -/
def registry : Registry Device where
  launch launch d := match launch.plan with
    | .error refusal => .failed d refusal
    | .ok dispatches => Outcome.forEach (record launch.node) d dispatches

/-- Submits everything that is recorded. -/
def flush (d : Device) : Device × Log × List Recorded :=
  ({ d with stream := [] }, d.stream.submitted, d.stream)

end Device

end OperatorGraph
