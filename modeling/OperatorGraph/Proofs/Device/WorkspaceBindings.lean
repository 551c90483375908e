import OperatorGraph.Proofs.Device.AddressTable
import OperatorGraph.Proofs.Device.Recording
import OperatorGraph.Proofs.Runner.Containment

set_option autoImplicit false

namespace OperatorGraph

namespace DeviceMemory

variable {m : DeviceMemory}

/-- The nearest base up to an address in a block, or right behind it, is that of the block or the
address itself. -/
theorem Ordered.below_of_within (ordered : m.Ordered) {a : Allocation} (member : a ∈ m.live)
    {ptr : Address} (start : a.base ≤ ptr) (stop : ptr ≤ a.base + a.size) :
    ∃ c, m.below? ptr = some c ∧ (c = a ∨ c.base = ptr) := by
  have kept : a ∈ m.live.filter (·.base ≤ ptr) := List.mem_filter.mpr ⟨member, by simpa using start⟩
  cases nearest : m.below? ptr with
  | none => simp [List.getLast?_eq_none_iff.mp nearest] at kept
  | some c =>
    refine ⟨c, rfl, ?_⟩
    obtain ⟨front, split⟩ := List.getLast?_eq_some_iff.mp nearest
    have apart := ordered.apart.filter (·.base ≤ ptr)
    rw [split] at kept apart
    rcases List.mem_append.mp kept with earlier | last
    · have ends := (List.pairwise_append.mp apart).2.2 a earlier c (by simp)
      have below := (mem_of_below nearest).2
      exact .inr (Nat.le_antisymm below (Nat.le_trans stop ends))
    · exact .inl (List.mem_singleton.mp last).symm

section

variable (ordered : m.Ordered) {a : Allocation} (member : a ∈ m.live)
  (words : a.base + a.size < 2 ^ 64) {offset len : Nat} (inside : offset + len ≤ a.size)
include ordered member words inside

theorem Ordered.resolve_part (starts : offset < a.size) :
    m.resolve ⟨a.base.offset offset, len⟩ = .ok (a, offset) := by
  have address : a.base.offset offset = a.base + offset :=
    Bounded.word_of_lt (by simp only [Address] at words ⊢; omega)
  have held : a.Holds (a.base + offset) := by
    simp only [Allocation.Holds, Address]
    omega
  have contained : a.Contains ⟨a.base + offset, len⟩ := by
    simp only [Allocation.Contains, Address]
    omega
  have end_le : a.base + offset + len ≤ 2 ^ 64 := by
    simp only [Address] at words ⊢
    omega
  rw [address, ordered.resolve_of_holds end_le member held, if_pos contained]
  simp [Address]

/-- An empty part that starts where a block ends resolves too, to that block or to the next one. -/
theorem Ordered.resolve_part_answers :
    ∃ c start, m.resolve ⟨a.base.offset offset, len⟩ = .ok (c, start) ∧
      (start = offset ∨ start = 0) := by
  by_cases starts : offset < a.size
  · exact ⟨a, offset, ordered.resolve_part member words inside starts, .inl rfl⟩
  have address : a.base.offset offset = a.base + offset :=
    Bounded.word_of_lt (by simp only [Address] at words ⊢; omega)
  have behind : a.base ≤ a.base + offset := Nat.le_add_right _ _
  have before : a.base + offset ≤ a.base + a.size := Nat.add_le_add_left (by omega) _
  obtain ⟨c, nearest, at_⟩ := ordered.below_of_within member behind before
  have empty : len = 0 := by omega
  refine ⟨c, a.base + offset - c.base, ?_, ?_⟩
  · have fits : ¬ c.size < Bounded.word (a.base + offset - c.base + 0) := by
      have exact : Bounded.word (a.base + offset - c.base) = a.base + offset - c.base :=
        Bounded.word_of_lt (by simp only [Address] at words ⊢; omega)
      rw [Nat.add_zero, exact]
      rcases at_ with rfl | same
      · simp only [Address]
        omega
      · simp [same]
    simp only [resolve, address, empty, nearest, Nat.lt_irrefl, and_false, if_false, fits]
  · rcases at_ with rfl | same
    · exact .inl (Nat.add_sub_cancel_left _ _)
    · exact .inr (by simp [same])

end

/-- A block that was allocated and is live still. -/
theorem History.live_of_granted {earlier later : List Call} {len : Nat} {space : Span}
    (granted : ((of earlier).memory.alloc len).result = .ok space)
    (fits : cursor (earlier ++ .alloc len :: later) ≤ 2 ^ 64)
    (live : ∃ a ∈ (of (earlier ++ .alloc len :: later)).memory.live, a.base = space.ptr) :
    ∃ a ∈ (of (earlier ++ .alloc len :: later)).memory.live, a.range = buffer space := by
  obtain ⟨kept, -⟩ := kept_of _ fits
  obtain ⟨a, member, base⟩ := live
  obtain ⟨s, listed, -, range⟩ := kept.granted_of_live member
  refine ⟨a, member, ?_⟩
  have stays : space ∈ (of (earlier ++ .alloc len :: later)).granted := by
    have first : space ∈ ((of earlier).next (.alloc len)).granted := by
      simp [next, grant, granted]
    rw [of, List.foldl_append, List.foldl_cons]
    exact (((of earlier).next (.alloc len)).granted_stays later).1 first
  have same : s = space := by
    by_contra different
    -- Two grants at one address would overlap.
    have apart := kept.apart_of_ne listed stays different
    have start : s.ptr = space.ptr := (congrArg Span.ptr range).symm.trans base
    have positive := room_pos s.len
    have others := room_pos space.len
    simp only [Apart, start] at apart
    omega
  rw [range, same]

/-- A memory that some calls led to. One of them granted the range, and its block is live still. -/
def Lends (m : DeviceMemory) (len : Nat) (space : Span) : Prop :=
  ∃ earlier later, m = (History.of (earlier ++ .alloc len :: later)).memory ∧
    cursor (earlier ++ .alloc len :: later) < 2 ^ 64 ∧
    ((History.of earlier).memory.alloc len).result = .ok space ∧ ∃ a ∈ m.live, a.base = space.ptr

end DeviceMemory

namespace Device

open DeviceMemory

/-- A range resolves to the live block with a given base, at an offset that the device admits for
bindings, and ends in it. -/
def Places (d : Device) (base : Address) (span : Span) : Prop :=
  ∃ a ∈ d.memory.live, ∃ offset, a.base = base ∧ d.memory.resolve span = .ok (a, offset) ∧
    d.adapter.storageAlignment ∣ offset ∧ offset + span.len ≤ a.size

/-- The device has a live block for a range, and addresses do not wrap around in it. -/
structure Hosts (d : Device) (space : Span) : Prop where
  ordered : d.memory.Ordered
  block : ∃ a ∈ d.memory.live, a.base = space.ptr ∧ space.len ≤ a.size ∧ a.base + a.size < 2 ^ 64

section

variable {d : Device} {space : Span} (hosts : d.Hosts space) {offset len : Nat}
  (inside : offset + len ≤ space.len) (aligned : d.adapter.storageAlignment ∣ offset)
include hosts inside aligned

theorem Hosts.places (starts : offset < space.len) :
    d.Places space.ptr ⟨space.ptr.offset offset, len⟩ := by
  obtain ⟨a, member, base, long, words⟩ := hosts.block
  have resolved := hosts.ordered.resolve_part member words (Nat.le_trans inside long)
    (Nat.lt_of_lt_of_le starts long)
  rw [base] at resolved
  exact ⟨a, member, offset, base, resolved, aligned, Nat.le_trans inside long⟩

/-- Parts of a hosted range at aligned offsets are bound, whether they are empty or not. -/
theorem Hosts.bindSpan_answers : ∃ b, d.bindSpan ⟨space.ptr.offset offset, len⟩ = .ok b := by
  obtain ⟨a, member, base, long, words⟩ := hosts.block
  obtain ⟨c, start, resolved, place⟩ :=
    hosts.ordered.resolve_part_answers member words (Nat.le_trans inside long)
  have multiple : start % d.adapter.storageAlignment = 0 := by
    rcases place with rfl | rfl
    · exact Nat.mod_eq_zero_of_dvd aligned
    · exact Nat.zero_mod _
  rw [base] at resolved
  simp only [bindSpan, Answer.bind_eq_ok]
  by_cases empty : len = 0
  · exact ⟨_, (c, start), resolved, by simp [multiple, empty]; rfl⟩
  · exact ⟨_, (c, start), resolved, by simp [multiple, empty]; rfl⟩

end

/-- A memory hosts what it lends. -/
theorem hosts_of_lends {d : Device} {len : Nat} {space : Span} (lends : d.memory.Lends len space) :
    d.Hosts space ∧ space.len = len := by
  obtain ⟨earlier, later, memory, words, granted, live⟩ := lends
  rw [memory] at live
  have before : cursor earlier + pitch len ≤ 2 ^ 64 := by
    have parts : cursor (earlier ++ .alloc len :: later) =
        cursor earlier + pitch len + (later.map Call.pitch).sum := by
      simp [cursor, Call.pitch, Call.request?, Nat.add_assoc]
    omega
  obtain ⟨a, member, range⟩ := History.live_of_granted granted (Nat.le_of_lt words) live
  obtain ⟨kept, -⟩ := History.kept_of _ (Nat.le_of_lt words)
  obtain ⟨earlierKept, -⟩ := History.kept_of earlier (Nat.le_trans (Nat.le_add_right _ _) before)
  have length : space = ⟨cursor earlier, len⟩ :=
    Except.ok.inj (granted.symm.trans (earlierKept.laid.alloc before).1)
  have size : a.size = room space.len := congrArg Span.len range
  refine ⟨⟨?_, a, ?_, congrArg Span.ptr range, ?_, ?_⟩, by rw [length]⟩
  · rw [memory]
    exact kept.laid.toOrdered
  · rw [memory]
    exact member
  · rw [size]
    exact le_room _
  · exact Nat.lt_of_le_of_lt (kept.laid.below a member) words

end Device

namespace Runner

/-- The tensor of the graph has bytes in the workspace. -/
def Occupies (r : Runner) (id : TensorId) : Prop :=
  ∃ index held size, id = .internal index ∧ r.graph.desc? id = some held ∧
    held.byteSize? = some size ∧ 0 < size

/-- The tensors that a node names, each with what a launch is handed for it. -/
def handed (n : Node) (launch : Launch) : List (TensorId × Binding) :=
  (n.inputs ++ n.outputs).zip launch.bindings

/-- What a launch has of the workspace is bound in the block of the workspace, and the device
refuses only tensors that the caller brings. -/
structure WorkspaceBound (r : Runner) (d : Device) (base : Address) (n : Node) (launch : Launch) :
    Prop where
  internal : ∀ id b, (id, b) ∈ handed n launch → r.Occupies id → d.Places base b.span
  scratch : ∀ span, launch.scratch = some span → d.Places base span
  refused : ∀ span ∈ launch.spans, ∀ cause, d.bindSpan span = .error cause →
    ∃ id b, (id, b) ∈ handed n launch ∧ (∀ index, id ≠ .internal index) ∧ b.span = span

namespace Contained

variable {r : Runner} {call : Pack} {m : CallMemory} {sizes : List Nat} {n : Node}
  {launch : Launch} (contained : r.Contained call n launch)
include contained

theorem bindsInside {id : TensorId} {b : Binding} (member : (id, b) ∈ handed n launch) :
    r.BindsInside call id b := by
  have all := List.rel_append contained.inputs contained.outputs
  exact (List.forall₂_iff_zip.mp all).2 member

variable (ready : r.Ready m sizes) (called : r.callMemory call = .ok m)
include ready called

/-- Where an internal tensor lies in the workspace of a call. -/
theorem internal_part {index : Nat} {b : Binding}
    (member : (.internal index, b) ∈ handed n launch) :
    ∃ offset size, b.span = ⟨call.space.ptr.offset offset, b.bytes⟩ ∧
      (∀ held, r.graph.desc? (.internal index) = some held → held.byteSize? = some size) ∧
      b.bytes ≤ size ∧ offset + size ≤ call.space.len ∧ r.config.workspaceAlignment ∣ offset := by
  obtain ⟨⟨offset, planned, start⟩, ⟨held, size, present, known, small⟩, -⟩ :=
    contained.bindsInside member
  have before := ready.end_le_scratchOffset planned present known
  have scratch := ready.sound.scratchInside
  have workspace := ready.workspace
  rw [workspace_eq_space called] at workspace
  refine ⟨offset, size, ?_, ?_, small, by omega,
    ready.sound.laid.aligned offset (List.mem_of_getElem? planned)⟩
  · rw [← start]
    rfl
  · intro other alsoPresent
    obtain rfl : held = other := Option.some.inj (present.symm.trans alsoPresent)
    exact known

omit called in
/-- Where the scratch of a launch lies in the workspace of a call. -/
theorem scratch_part {span : Span} (given : launch.scratch = some span) :
    ∃ offset, span = ⟨call.space.ptr.offset offset, span.len⟩ ∧
      offset + span.len ≤ call.space.len ∧ offset < call.space.len ∧
      r.config.workspaceAlignment ∣ offset := by
  obtain ⟨length, start, inside⟩ := contained.scratch span given
  have asked : launch.param.scratchBytes (launch.inputs.map Binding.desc) ≠ 0 := by
    rw [← contained.hasScratch, given]
    rfl
  exact ⟨r.plan.scratchOffset, by rw [← start], inside, by omega, ready.sound.scratchAligned⟩

/-- A hosted workspace serves a contained launch. -/
theorem workspaceBound {d : Device} (hosts : d.Hosts call.space)
    (aligned : d.adapter.storageAlignment ∣ r.config.workspaceAlignment) :
    r.WorkspaceBound d call.space.ptr n launch := by
  constructor
  · rintro id b member ⟨index, held, size, rfl, present, known, positive⟩
    obtain ⟨offset, other, span, sized, small, inside, multiple⟩ :=
      contained.internal_part ready called member
    obtain rfl : other = size := Option.some.inj ((sized held present).symm.trans known)
    rw [span]
    exact hosts.places (by omega) (Nat.dvd_trans aligned multiple) (by omega)
  · intro span given
    obtain ⟨offset, same, inside, starts, multiple⟩ :=
      contained.scratch_part ready given
    rw [same]
    exact hosts.places inside (Nat.dvd_trans aligned multiple) starts
  · intro span member cause refused
    rcases List.mem_append.mp member with tensor | scratch
    · obtain ⟨b, bound, rfl⟩ := List.mem_map.mp tensor
      obtain ⟨id, named, -⟩ :=
        Answer.exists_mem_zip (List.rel_append contained.inputs contained.outputs) bound
      refine ⟨id, b, named, ?_, rfl⟩
      rintro index rfl
      obtain ⟨offset, size, span, -, small, inside, multiple⟩ :=
        contained.internal_part ready called named
      have within : offset + b.bytes ≤ call.space.len := by omega
      obtain ⟨answer, bound⟩ := hosts.bindSpan_answers within (Nat.dvd_trans aligned multiple)
      rw [← span, refused] at bound
      simp at bound
    · obtain ⟨offset, same, inside, -, multiple⟩ :=
        contained.scratch_part ready (Option.mem_toList.mp scratch)
      obtain ⟨answer, bound⟩ :=
        hosts.bindSpan_answers inside (Nat.dvd_trans aligned multiple)
      rw [← same, refused] at bound
      simp at bound

end Contained

/-- A hosted workspace serves all launches of a call. -/
theorem Ready.workspaceBound {r : Runner} {call : Pack} {m : CallMemory} {sizes : List Nat}
    (ready : r.Ready m sizes) (called : r.callMemory call = .ok m) (sized : r.Sized)
    (checked : r.config.checkViews) {made : List Launch} (answered : r.launches call = .ok made)
    {d : Device} (hosts : d.Hosts call.space)
    (aligned : d.adapter.storageAlignment ∣ r.config.workspaceAlignment) :
    List.Forall₂ (r.WorkspaceBound d call.space.ptr) r.graph.nodes made := by
  refine (forall₂_launches called answered).imp fun n launch ⟨member, launched⟩ => ?_
  have contained := ready.contained called sized member launched checked
  exact contained.workspaceBound ready called hosts aligned

/-- The workspace is bound: on a runner over a well formed graph with views checked, after a setup
for resolved tensors that succeeded with a plan of 64-bit words, let a call bring a live block of as
many bytes as the setup asked for, on a device whose storage alignment divides the alignment of the
workspace. Then the device binds whatever the launches of the call have in the workspace, and if it
refuses a range during the execution, that is a tensor of the caller. -/
theorem workspace_bound {g : Graph} {config : Config} {created : Runner}
    (accepted : Runner.new g config = .ok created) (checked : config.checkViews)
    {calls : List Call} {pack : Pack} {bytes : Nat} (stands : created.StandsOn calls pack bytes)
    (resolved : ∀ side, ∀ tensor ∈ pack.tensors side, tensor.desc.shape.Resolved)
    (fits : (created.afterAll calls).PlanFits) {d : Device} {len : Nat} {space : Span}
    (lends : d.memory.Lends len space) (enough : bytes ≤ len)
    (aligned : d.adapter.storageAlignment ∣ config.workspaceAlignment) {call : Pack}
    (repeats : call.Repeats pack) (brings : call.workspace = some space) :
    let r := created.afterAll calls
    ∃ made, r.launches call = .ok made ∧
      List.Forall₂ (r.WorkspaceBound d space.ptr) r.graph.nodes made ∧
      ∀ node family cause, (r.execute Device.registry d call).result =
          .error (.dispatch node family (.device cause)) →
        ∃ n launch, (n, launch) ∈ r.graph.nodes.zip made ∧ launch.node = node ∧
          ∃ id b, (id, b) ∈ handed n launch ∧ (∀ index, id ≠ .internal index) ∧
            d.bindSpan b.span = .error cause := by
  intro r
  obtain ⟨rfl, formed, power⟩ := new_ok accepted
  obtain ⟨hosts, length⟩ := Device.hosts_of_lends lends
  have setUp := setUpFor_of_standsOn formed stands
  have kept := (topology_afterAll ⟨g, config, .unbound, .empty⟩ calls).2
  have provides : call.Provides bytes := fun _ => ⟨space, brings, length ▸ enough⟩
  obtain ⟨m, called⟩ := (setUp.accepts_iff call).mpr ⟨repeats, provides⟩
  obtain rfl : call.space = space := by rw [Pack.space, brings, Option.getD_some]
  obtain ⟨sizes, ready⟩ := setUp.complete.ready (kept ▸ power) fits called
  have sized := sized_of_standsOn stands setUp resolved ready
  obtain ⟨made, answered, -⟩ := setUp.launches_of_accepted called
  have bound := ready.workspaceBound called sized (kept ▸ checked) answered hosts (kept ▸ aligned)
  refine ⟨made, answered, bound, ?_⟩
  intro node family cause failed
  have served := r.execute_serves Device.registry answered d
  rw [failed] at served
  obtain ⟨launch, member, rfl, -, span, given, refused⟩ := Device.serves_refused served
  obtain ⟨n, pair, binds⟩ := Answer.exists_mem_zip bound member
  obtain ⟨id, b, named, callers, rfl⟩ := binds.refused span given cause refused
  exact ⟨n, launch, pair, rfl, id, b, named, callers, refused⟩

/-- Blocks for the tensors of a call and, behind a hole, one for its workspace. -/
def lending : List DeviceMemory.Call :=
  [.alloc 32, .alloc 24, .alloc 24, .alloc 32, .alloc 100, .free 0x10400]

def attendingCall : Pack where
  inputs := [⟨.rowMajor .f32 ⟨[2, 4]⟩, .external 0x10000⟩,
    ⟨.rowMajor .f32 ⟨[3, 2]⟩, .external 0x10100⟩, ⟨.rowMajor .f32 ⟨[3, 2]⟩, .external 0x10200⟩]
  outputs := [⟨.rowMajor .f32 ⟨[2, 4]⟩, .external 0x10300⟩]
  workspace := some ⟨0x10500, 600⟩

/-- The scratch of attention lies in a block of 600 bytes that was allocated behind the tensors. A
block of the caller that was taken back is what the device refuses. -/
theorem attending_workspace_bound :
    let r := (⟨attending, .default, .unbound, .empty⟩ : Runner).afterAll [.setUp attendingPack]
    let memory := (DeviceMemory.History.of (lending ++ [.alloc 600, .free 0x10200])).memory
    let d : Device := ⟨.host, memory, [], []⟩
    ∃ made, r.launches attendingCall = .ok made ∧
      made.map Launch.scratch = [some ⟨0x10600, 48⟩, none] ∧
      List.Forall₂ (r.WorkspaceBound d 0x10500) r.graph.nodes made ∧
      ∃ n launch, (n, launch) ∈ r.graph.nodes.zip made ∧ launch.node = "attend" ∧
        ∃ id b, (id, b) ∈ handed n launch ∧ (∀ index, id ≠ .internal index) ∧
          d.bindSpan b.span = .error (.unknownAddress 0x10200) := by
  intro r memory d
  have accepted : Runner.new attending .default = .ok ⟨attending, .default, .unbound, .empty⟩ := rfl
  have stands : StandsOn ⟨attending, .default, .unbound, .empty⟩ [.setUp attendingPack]
      attendingPack 512 := ⟨[], [], rfl, by simp, by decide +kernel⟩
  have fits : r.PlanFits := ⟨[32], by decide +kernel, by decide +kernel⟩
  have resolved : ∀ side, ∀ tensor ∈ attendingPack.tensors side, tensor.desc.shape.Resolved := by
    intro side
    cases side <;> decide
  have lends : d.memory.Lends 600 ⟨0x10500, 600⟩ :=
    ⟨lending, [.free 0x10200], rfl, by decide, by decide +kernel, by decide +kernel⟩
  have repeats : attendingCall.Repeats attendingPack := by
    constructor <;> intro side <;> cases side
    · decide
    · decide
    · simp [attendingCall, Pack.tensors]
    · simp [attendingCall, Pack.tensors]
  have failed : (r.execute Device.registry d attendingCall).result =
      .error (.dispatch "attend" .selfAttention (.device (.unknownAddress 0x10200))) := by
    decide +kernel
  obtain ⟨made, answered, bound, refused⟩ := workspace_bound accepted rfl stands resolved fits
    lends (by decide) (by decide) repeats rfl
  refine ⟨made, answered, ?_, bound, refused _ _ _ failed⟩
  have scratch : (r.launches attendingCall).map (List.map Launch.scratch) =
      .ok [some ⟨0x10600, 48⟩, none] := by decide +kernel
  rw [answered] at scratch
  exact Except.ok.inj scratch

end Runner

end OperatorGraph
