import OperatorGraph.Launch
import OperatorGraph.Runner
import OperatorGraph.Runner.Binding
import OperatorGraph.Runner.Resolution

set_option autoImplicit false

namespace OperatorGraph

/-- The memory of one call. -/
structure CallMemory where
  inputs : List Address
  outputs : List Address
  workspace : Span
  deriving DecidableEq, Repr

namespace Graph

/-- The address of a tensor that is bound as it was in setup. -/
def callAddress (g : Graph) (side : Side) (index : Nat) (tensor : Tensor) :
    Except Error Address := do
  let resolved ← g.readDesc (side.tensorId index)
  if tensor.desc ≠ resolved then
    .error (.binding g.name side index (.differs tensor.desc resolved))
  else match tensor.memory with
    | .external ptr => return ptr
    | memory => .error (.binding g.name side index (.notExternal memory))

def callAddresses (g : Graph) (side : Side) (tensors : List Tensor) :
    Except Error (List Address) := do
  g.checkCount side tensors
  tensors.zipIdx.mapM fun (tensor, index) => g.callAddress side index tensor

end Graph

namespace Runner

/-- The workspace of a call. A call without one passes an empty range, which suffices for a plan
without bytes. -/
def callWorkspace (r : Runner) (workspace : Option Span) : Except Error Span :=
  let provided := workspace.getD ⟨0, 0⟩
  if r.plan.totalBytes ≤ provided.len then .ok provided
  else .error (.workspace r.plan.totalBytes provided.len)

/-- Checks a call before any of its launches. -/
def callMemory (r : Runner) (pack : Pack) : Except Error CallMemory := do
  if r.state.isPlanned then
    let inputs ← r.graph.callAddresses .input pack.inputs
    let outputs ← r.graph.callAddresses .output pack.outputs
    return ⟨inputs, outputs, ← r.callWorkspace pack.workspace⟩
  else .error r.notPlanned

/-- The entry of a table at the position that a tensor of the graph has in it. -/
def entry {α : Type} (table : List α) (index : Nat) : Except Error α :=
  (table[index]?).elim (.error (.fault .indexOutOfRange)) .ok

def address (r : Runner) (m : CallMemory) : TensorId → Except Error Address
  | .input index => entry m.inputs index
  | .output index => entry m.outputs index
  | .internal index => do return m.workspace.ptr.offset (← entry r.plan.offsets index)

def binding (r : Runner) (m : CallMemory) (id : TensorId) (desc : TensorDesc) :
    Except Error Binding := do
  return ⟨desc, ← r.address m id, desc.byteSize?.getD 0⟩

/-- The part of the shared scratch region that a node asks for. -/
def scratchOf (r : Runner) (m : CallMemory) (n : Node) : Option Span :=
  if n.scratchBytes = 0 then none
  else m.workspace.slice? r.plan.scratchOffset n.scratchBytes

/-- The launch of a node: inputs as setup resolved them, outputs as their slots hold them. -/
def launchOf (r : Runner) (m : CallMemory) (n : Node) : Except Error Launch := do
  let inputs ← (n.inputs.zip n.resolvedInputs).mapM fun (id, desc) => r.binding m id desc
  let outputs ← n.outputs.mapM fun id => do r.binding m id (← r.graph.readDesc id)
  return ⟨n.name, n.effective, inputs, outputs, r.scratchOf m n⟩

def launchingLine (launch : Launch) : LogLine :=
  ⟨.trace, "launching `" ++ launch.node ++ "` (" ++ launch.param.name ++ ")"⟩

/-- What a failed launch adds to the log. A fault adds nothing. -/
def launchFailed (r : Runner) (launch : Launch) : KernelError → Log
  | .fault _ => []
  | source => [⟨.error, "graph `" ++ r.graph.name ++ "`: node `" ++ launch.node ++ "` (" ++
      launch.param.name ++ ") failed: " ++ source.message⟩]

variable {State : Type}

/-- Hands a launch to the registry. -/
def submit (r : Runner) (registry : Registry State) (stream : State) (launch : Launch) :
    Outcome State Error Unit :=
  let ran := registry.launch launch stream
  match ran.result with
  | .ok () => ⟨ran.state, launchingLine launch :: ran.log, .ok ()⟩
  | .error source =>
    ⟨ran.state, launchingLine launch :: ran.log ++ r.launchFailed launch source,
      .error (.dispatch launch.node launch.param.family source)⟩

def launchNode (r : Runner) (registry : Registry State) (m : CallMemory) (stream : State)
    (n : Node) : Outcome State Error Unit :=
  match r.launchOf m n with
  | .error refusal => .failed stream refusal
  | .ok launch => r.submit registry stream launch

/-- Launches every node, up to the first that fails. Launches before it stay. -/
def launchAll (r : Runner) (registry : Registry State) (m : CallMemory) (stream : State) :
    Outcome State Error Unit :=
  Outcome.forEach (r.launchNode registry m) stream r.graph.nodes

/-- Runs a call. Only a call that succeeds changes the runner. -/
def execute (r : Runner) (registry : Registry State) (stream : State) (pack : Pack) :
    Outcome (Runner × State) Error Unit :=
  match r.callMemory pack with
  | .error refusal => .failed (r, stream) refusal
  | .ok m =>
    (r.launchAll registry m stream).within (r, ·) |>.andThen fun (r, stream) _ =>
      .done ({ r with state := .executed }, stream) ()

end Runner

end OperatorGraph
