import OperatorGraph.Proofs.Runner.Lookups
import OperatorGraph.Proofs.Runner.Protocol

set_option autoImplicit false

namespace OperatorGraph

/-- A range lies inside another one. -/
def Span.Within (part whole : Span) : Prop :=
  ∃ offset, part.ptr = whole.ptr.offset offset ∧ offset + part.len ≤ whole.len

namespace Graph

/-- An address in the table of a call is that of the tensor which the call names there. -/
theorem callAddresses_entry {g : Graph} {side : Side} {tensors : List Tensor}
    {table : List Address} (answered : g.callAddresses side tensors = .ok table) {index : Nat}
    {ptr : Address} (found : table[index]? = some ptr) :
    ∃ tensor, tensors[index]? = some tensor ∧ tensor.memory = .external ptr := by
  simp only [callAddresses, Answer.bind_eq_ok] at answered
  obtain ⟨_, -, answered⟩ := answered
  have answer := Answer.getElem?_mapM answered index
  rw [found, Option.map_some, List.getElem?_zipIdx, Option.map_map] at answer
  obtain ⟨tensor, named, address⟩ := Option.map_eq_some_iff.mp answer
  exact ⟨tensor, named, (callAddress_eq_ok.mp address).2⟩

theorem fits_bindFrom {side : Side} {tensors : List Tensor} {g : Graph} {index : Nat}
    (success : (bindFrom side g index tensors).2 = .ok ()) {tensor : Tensor}
    (member : tensor ∈ tensors) : tensor.desc.overflows = false := by
  induction tensors generalizing g index with
  | nil => simp at member
  | cons first rest ih =>
    by_cases overflows : first.desc.overflows
    · simp [bindFrom, overflows] at success
    · simp only [bindFrom, overflows, Bool.false_eq_true, if_false] at success
      rcases List.mem_cons.mp member with rfl | later
      · simpa using overflows
      · exact ih success later

theorem fits_bind {g : Graph} {pack : Pack} (success : (g.bind pack).2 = .ok ()) (side : Side)
    {tensor : Tensor} (member : tensor ∈ pack.tensors side) : tensor.desc.overflows = false := by
  obtain ⟨next, inputs, outputs⟩ := bind_ok success
  cases side with
  | input => exact fits_bindFrom (congrArg Prod.snd (bindSide_ok inputs).2) member
  | output => exact fits_bindFrom (congrArg Prod.snd (bindSide_ok outputs).2) member

end Graph

/-- The workspace that a call brings, an empty range if it brings none. -/
def Pack.space (call : Pack) : Span :=
  call.workspace.getD ⟨0, 0⟩

namespace Runner

/-- The call puts a tensor of the graph at this address. -/
def StartsAt (r : Runner) (call : Pack) (ptr : Address) : TensorId → Prop
  | .input index => ∃ tensor, call.inputs[index]? = some tensor ∧ tensor.memory = .external ptr
  | .output index => ∃ tensor, call.outputs[index]? = some tensor ∧ tensor.memory = .external ptr
  | .internal index => ∃ offset, r.plan.offsets[index]? = some offset ∧
      ptr = call.space.ptr.offset offset

/-- A binding starts where its tensor does and does not leave it. -/
structure BindsInside (r : Runner) (call : Pack) (id : TensorId) (b : Binding) : Prop where
  starts : r.StartsAt call b.ptr id
  ends : ∃ held size, r.graph.desc? id = some held ∧ held.byteSize? = some size ∧ b.bytes ≤ size
  within : ∀ index, id = .internal index → b.span.Within call.space

/-- A launch of a node is handed the tensors that the node names, and the scratch that its parameter
asks for, behind all internal tensors. -/
structure Contained (r : Runner) (call : Pack) (n : Node) (launch : Launch) : Prop where
  param : launch.param = n.effective
  inputs : List.Forall₂ (r.BindsInside call) n.inputs launch.inputs
  outputs : List.Forall₂ (r.BindsInside call) n.outputs launch.outputs
  hasScratch : launch.scratch.isSome ↔
    launch.param.scratchBytes (launch.inputs.map Binding.desc) ≠ 0
  scratch : ∀ span, launch.scratch = some span →
    span.len = launch.param.scratchBytes (launch.inputs.map Binding.desc) ∧
    span.ptr = call.space.ptr.offset r.plan.scratchOffset ∧
    r.plan.scratchOffset + span.len ≤ call.space.len
  /-- The scratch starts behind every internal tensor. -/
  behind : ∀ (index offset : Nat) (held : TensorDesc) (size : Nat),
    r.plan.offsets[index]? = some offset → r.graph.desc? (.internal index) = some held →
    held.byteSize? = some size → offset + size ≤ r.plan.scratchOffset

theorem workspace_eq_space {r : Runner} {call : Pack} {m : CallMemory}
    (called : r.callMemory call = .ok m) : m.workspace = call.space :=
  (callWorkspace_eq_ok.mp (callMemory_eq_ok.mp called).2.2.2).1

theorem startsAt_of_address {r : Runner} {call : Pack} {m : CallMemory}
    (called : r.callMemory call = .ok m) {id : TensorId} {ptr : Address}
    (found : r.address m id = .ok ptr) : r.StartsAt call ptr id := by
  obtain ⟨-, inputs, outputs, -⟩ := callMemory_eq_ok.mp called
  cases id with
  | input index => exact Graph.callAddresses_entry inputs (entry_eq_ok.mp found)
  | output index => exact Graph.callAddresses_entry outputs (entry_eq_ok.mp found)
  | internal index =>
    simp only [address, Answer.bind_eq_ok, entry_eq_ok, Answer.pure_eq_ok] at found
    obtain ⟨offset, planned, rfl⟩ := found
    exact ⟨offset, planned, by rw [workspace_eq_space called]⟩

/-- Every tensor of the graph has a size in bytes. -/
def Sized (r : Runner) : Prop :=
  ∀ id, r.graph.topology.Has id →
    ∃ held size, r.graph.desc? id = some held ∧ held.byteSize? = some size

/-- The tensors of a standing setup have sizes: those of the caller were bound, and those of the
graph were planned. -/
theorem sized_of_standsOn {r : Runner} {calls : List Call} {pack : Pack} {bytes : Nat}
    (stands : r.StandsOn calls pack bytes) (setUp : (r.afterAll calls).SetUpFor pack bytes)
    (resolved : ∀ side, ∀ tensor ∈ pack.tensors side, tensor.desc.shape.Resolved)
    {m : CallMemory} {sizes : List Nat} (ready : (r.afterAll calls).Ready m sizes) :
    (r.afterAll calls).Sized := by
  have caller (side : Side) (index : Nat)
      (has : (r.afterAll calls).graph.topology.Has (side.tensorId index)) :
      ∃ held size, (r.afterAll calls).graph.desc? (side.tensorId index) = some held ∧
        held.byteSize? = some size := by
    obtain ⟨count, held⟩ := setUp.bound side
    have inside := ((r.afterAll calls).graph.has_tensorId side index).mp has
    rw [← count] at inside
    have named := List.getElem?_eq_getElem inside
    have member := List.getElem_mem inside
    obtain ⟨before, after, -, -, success⟩ := stands
    obtain ⟨bound, binding, -⟩ := resolved_setup success
    have fits := Graph.fits_bind (congrArg Prod.snd binding) side member
    exact ⟨_, _, held index _ named,
      TensorDesc.byteSize?_of_resolved (resolved side _ member) fits⟩
  intro id has
  cases id with
  | input index => exact caller .input index has
  | output index => exact caller .output index has
  | internal index =>
    obtain ⟨offset, t, held, -, -, present, size, -⟩ := ready.internal has
    exact ⟨held, t.bytes, present, size⟩

namespace Ready

variable {r : Runner} {call : Pack} {m : CallMemory} {sizes : List Nat} (ready : r.Ready m sizes)
  (called : r.callMemory call = .ok m) (sized : r.Sized)
include ready called sized

theorem bindsInside {id : TensorId} (has : r.graph.topology.Has id) {b : Binding}
    (address : r.address m id = .ok b.ptr)
    (fits : ∀ held size, r.graph.desc? id = some held → held.byteSize? = some size →
      b.bytes ≤ size) : r.BindsInside call id b := by
  obtain ⟨held, size, present, known⟩ := sized id has
  refine ⟨startsAt_of_address called address,
    ⟨held, size, present, known, fits held size present known⟩, ?_⟩
  rintro index rfl
  obtain ⟨offset, t, desc, -, -, bound, bytes, span, inside⟩ := ready.internal has
  have most := fits desc t.bytes bound bytes
  have workspace := ready.workspace
  have scratch := ready.sound.scratchInside
  rw [workspace_eq_space called] at workspace span
  refine ⟨offset, ?_, ?_⟩
  · show b.ptr = call.space.ptr.offset offset
    rw [address_internal address, span]
  · show offset + b.bytes ≤ call.space.len
    omega

omit called sized in
/-- Internal tensors end before the scratch starts. -/
theorem end_le_scratchOffset {index offset : Nat} {held : TensorDesc} {size : Nat}
    (planned : r.plan.offsets[index]? = some offset)
    (present : r.graph.desc? (.internal index) = some held) (known : held.byteSize? = some size) :
    offset + size ≤ r.plan.scratchOffset := by
  have inside : index < r.plan.offsets.length := (List.getElem?_eq_some_iff.mp planned).1
  have has : r.graph.topology.Has (.internal index) := by
    rw [ready.covered.offsets] at inside
    simpa only [Topology.Has, Graph.topology, List.length_map] using inside
  obtain ⟨other, t, desc, alsoPlanned, -, bound, bytes, -, before⟩ := ready.internal has
  obtain rfl : offset = other := Option.some.inj (planned.symm.trans alsoPlanned)
  obtain rfl : held = desc := Option.some.inj (present.symm.trans bound)
  obtain rfl : size = t.bytes := Option.some.inj (known.symm.trans bytes)
  exact before

section

variable {n : Node} (member : n ∈ r.graph.nodes) {launch : Launch}
  (launched : r.launchOf m n = .ok launch)
include member launched

theorem inputs_inside (checked : r.config.checkViews) :
    List.Forall₂ (r.BindsInside call) n.inputs launch.inputs := by
  obtain ⟨count, reads⟩ := ready.reads n member
  obtain ⟨-, lengths, -⟩ := lengths_of_launch count launched
  refine Answer.forall₂_of_getElem? lengths.symm fun i id b atId bound => ?_
  obtain ⟨other, alsoAtId, atDesc, address, bytes⟩ := launch_input launched bound
  obtain rfl : id = other := Option.some.inj (atId.symm.trans alsoAtId)
  have has := Graph.has_of_mentioned ready.formed member
    (List.mem_append_left _ (List.mem_of_getElem? atId))
  refine ready.bindsInside called sized has address fun held size present known => ?_
  obtain ⟨read, alsoPresent, dtype, elements⟩ := reads i id b.desc atId atDesc
  obtain rfl : held = read := Option.some.inj (present.symm.trans alsoPresent)
  rw [bytes]
  exact TensorDesc.byteSize?_getD_le dtype (elements checked) known

theorem outputs_inside : List.Forall₂ (r.BindsInside call) n.outputs launch.outputs := by
  obtain ⟨-, -, lengths⟩ := lengths_of_launch (ready.reads n member).1 launched
  refine Answer.forall₂_of_getElem? lengths.symm fun i id b atId bound => ?_
  obtain ⟨other, alsoAtId, present, address, bytes⟩ := launch_output launched bound
  obtain rfl : id = other := Option.some.inj (atId.symm.trans alsoAtId)
  have has := Graph.has_of_mentioned ready.formed member
    (List.mem_append_right _ (List.mem_of_getElem? atId))
  refine ready.bindsInside called sized has address fun held size alsoPresent known => ?_
  obtain rfl : b.desc = held := Option.some.inj (present.symm.trans alsoPresent)
  rw [bytes, known, Option.getD_some]

omit sized in
/-- The scratch of a launch is what its node asks for, in the workspace of the call. -/
theorem scratch_inside {span : Span} (given : launch.scratch = some span) :
    span.len = n.scratchBytes ∧ span.ptr = call.space.ptr.offset r.plan.scratchOffset ∧
      r.plan.scratchOffset + span.len ≤ call.space.len := by
  rw [launch_scratch launched] at given
  have most := r.graph.le_scratchBytes member
  have planned := ready.sound.scratch
  have inside := ready.sound.scratchInside
  have workspace := ready.workspace
  obtain rfl := scratchOf_eq_some given
  rw [workspace_eq_space called] at workspace ⊢
  refine ⟨rfl, rfl, ?_⟩
  show r.plan.scratchOffset + n.scratchBytes ≤ call.space.len
  omega

/-- A launch of a ready runner stays in the tensors of its node. -/
theorem contained (checked : r.config.checkViews) : r.Contained call n launch := by
  obtain ⟨descs, -, -⟩ := lengths_of_launch (ready.reads n member).1 launched
  have param := launch_param launched
  have asked : launch.param.scratchBytes (launch.inputs.map Binding.desc) = n.scratchBytes := by
    rw [descs, param]
    rfl
  refine ⟨param, ready.inputs_inside called sized member launched checked,
    ready.outputs_inside called sized member launched, ?_, fun span given => ?_,
    fun _ _ _ _ => ready.end_le_scratchOffset⟩
  · rw [asked, launch_scratch launched]
    constructor
    · intro given absent
      simp [scratchOf, absent] at given
    · intro asks
      obtain ⟨span, given, -⟩ := ready.scratchOf_answers member asks
      rw [given]
      rfl
  · rw [asked]
    exact ready.scratch_inside called member launched given

end

end Ready

/-- No launch leaves its tensors: on a runner over a well formed graph with views checked, whatever
came before a setup for resolved tensors that succeeded with a plan of 64-bit words, an execution
that the runner accepts after it serves launches that are contained, one for each node. -/
theorem launches_contained {g : Graph} {config : Config} {created : Runner}
    (accepted : Runner.new g config = .ok created) (checked : config.checkViews)
    {calls : List Call} {pack : Pack} {bytes : Nat} (stands : created.StandsOn calls pack bytes)
    (resolved : ∀ side, ∀ tensor ∈ pack.tensors side, tensor.desc.shape.Resolved)
    (fits : (created.afterAll calls).PlanFits) {call : Pack} {m : CallMemory}
    (called : (created.afterAll calls).callMemory call = .ok m) :
    let r := created.afterAll calls
    ∃ made, r.launches call = .ok made ∧
      (∀ {State : Type} (registry : Registry State) (stream : State),
        let ran := r.execute registry stream call
        registry.Serves stream made ran.result ran.state.2) ∧
      List.Forall₂ (r.Contained call) r.graph.nodes made := by
  intro r
  obtain ⟨rfl, formed, power⟩ := new_ok accepted
  have setUp := setUpFor_of_standsOn formed stands
  have kept := (topology_afterAll ⟨g, config, .unbound, .empty⟩ calls).2
  obtain ⟨sizes, ready⟩ := setUp.complete.ready (kept ▸ power) fits called
  have sized := sized_of_standsOn stands setUp resolved ready
  obtain ⟨made, answered, -⟩ := setUp.launches_of_accepted called
  refine ⟨made, answered, fun registry stream => r.execute_serves registry answered stream, ?_⟩
  refine (forall₂_launches called answered).imp fun n launch ⟨member, launched⟩ => ?_
  exact ready.contained called sized member launched (kept ▸ checked)

/-- Attention followed by an activation: an internal tensor and scratch behind it. -/
def attending : Graph :=
  Graph.new "attending" ["q", "k", "v"] ["y"] ["mixed"] [
    Node.new "attend" (.selfAttention ⟨2, 1, .one, [1], [2]⟩) [.input 0, .input 1, .input 2]
      [.internal 0],
    Node.new "bend" (.activation .relu) [.internal 0] [.output 0]]

def attendingPack : Pack where
  inputs := [⟨.rowMajor .f32 ⟨[2, 4]⟩, .external 4096⟩, ⟨.rowMajor .f32 ⟨[3, 2]⟩, .external 8192⟩,
    ⟨.rowMajor .f32 ⟨[3, 2]⟩, .external 12288⟩]
  outputs := [⟨.rowMajor .f32 ⟨[2, 4]⟩, .external 16384⟩]
  workspace := some ⟨65536, 512⟩

theorem attending_contained :
    let r := (⟨attending, .default, .unbound, .empty⟩ : Runner).afterAll [.setUp attendingPack]
    ∃ made, r.launches attendingPack = .ok made ∧
      made.map Launch.scratch = [some ⟨65792, 48⟩, none] ∧
      List.Forall₂ (r.Contained attendingPack) r.graph.nodes made := by
  intro r
  have accepted : Runner.new attending .default = .ok ⟨attending, .default, .unbound, .empty⟩ := rfl
  have stands : StandsOn ⟨attending, .default, .unbound, .empty⟩ [.setUp attendingPack]
      attendingPack 512 := ⟨[], [], rfl, by simp, by decide +kernel⟩
  have called : r.callMemory attendingPack =
      .ok ⟨[4096, 8192, 12288], [16384], ⟨65536, 512⟩⟩ := by decide +kernel
  have fits : r.PlanFits := ⟨[32], by decide +kernel, by decide +kernel⟩
  have resolved : ∀ side, ∀ tensor ∈ attendingPack.tensors side, tensor.desc.shape.Resolved := by
    intro side
    cases side <;> decide
  obtain ⟨made, answered, -, contained⟩ :=
    launches_contained accepted rfl stands resolved fits called
  refine ⟨made, answered, ?_, contained⟩
  have scratch : (r.launches attendingPack).map (List.map Launch.scratch) =
      .ok [some ⟨65792, 48⟩, none] := by decide +kernel
  rw [answered] at scratch
  exact Except.ok.inj scratch

end Runner

end OperatorGraph
