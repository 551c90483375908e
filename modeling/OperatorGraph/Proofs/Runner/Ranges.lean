import OperatorGraph.Proofs.Graph.Lifetimes
import OperatorGraph.Proofs.Runner.Calls
import OperatorGraph.Proofs.Products

set_option autoImplicit false

namespace OperatorGraph

namespace Span

/-- The addresses of a range. They wrap around. -/
def Covers (s : Span) (x : Address) : Prop :=
  ∃ k < s.len, x = s.ptr.offset k

instance (s : Span) (x : Address) : Decidable (s.Covers x) :=
  inferInstanceAs (Decidable (∃ k < s.len, x = s.ptr.offset k))

def Disjoint (s t : Span) : Prop :=
  ∀ x, s.Covers x → ¬ t.Covers x

theorem Covers.mono {part whole : Span} (ptr : part.ptr = whole.ptr) (len : part.len ≤ whole.len)
    {x : Address} (covered : part.Covers x) : whole.Covers x := by
  obtain ⟨k, inside, rfl⟩ := covered
  exact ⟨k, by omega, by rw [ptr]⟩

theorem Disjoint.mono {s t s' t' : Span} (apart : s.Disjoint t) (ptr : s'.ptr = s.ptr)
    (len : s'.len ≤ s.len) (ptr' : t'.ptr = t.ptr) (len' : t'.len ≤ t.len) : s'.Disjoint t' :=
  fun x covered covered' => apart x (covered.mono ptr len) (covered'.mono ptr' len')

theorem disjoint_of_le {s t : Span} (ends : s.ptr + s.len ≤ t.ptr)
    (whole : t.ptr + t.len ≤ 2 ^ 64) : s.Disjoint t := by
  rintro _ ⟨k, inS, rfl⟩ ⟨l, inT, same⟩
  have words : (s.ptr + k) % 2 ^ 64 = (t.ptr + l) % 2 ^ 64 := same
  unfold Address at ends whole words
  omega

theorem offset_offset (base a k : Nat) :
    Address.offset (Address.offset base a) k = Address.offset base (a + k) := by
  simp only [Address.offset, Bounded.word, Nat.mod_add_mod, Nat.add_assoc]

theorem offset_inj {base a b : Nat} (insideA : a < 2 ^ 64) (insideB : b < 2 ^ 64)
    (same : Address.offset base a = Address.offset base b) : a = b := by
  have words : (base + a) % 2 ^ 64 = (base + b) % 2 ^ 64 := same
  omega

/-- Parts of one range that are apart share no address, as long as they do not wrap around it. -/
theorem disjoint_parts {base : Address} {a bytesA b bytesB : Nat} (apart : Apart a bytesA b bytesB)
    (endA : a + bytesA ≤ 2 ^ 64) (endB : b + bytesB ≤ 2 ^ 64) :
    Disjoint ⟨base.offset a, bytesA⟩ ⟨base.offset b, bytesB⟩ := by
  rintro x ⟨k, insideA, rfl⟩ ⟨l, insideB, same⟩
  rw [offset_offset, offset_offset] at same
  simp only at insideA insideB
  have equal := offset_inj (by omega) (by omega) same
  unfold Apart at apart
  omega

theorem covers_of_part {s : Span} {offset bytes : Nat} (inside : offset + bytes ≤ s.len)
    {x : Address} (covered : Covers ⟨s.ptr.offset offset, bytes⟩ x) : s.Covers x := by
  obtain ⟨k, within, rfl⟩ := covered
  exact ⟨offset + k, by simp only at within; omega, offset_offset s.ptr offset k⟩

end Span

namespace Graph

theorem le_scratchBytes (g : Graph) {n : Node} (member : n ∈ g.nodes) :
    n.scratchBytes ≤ g.scratchBytes := by
  have listed : n.scratchBytes ∈ g.nodes.map Node.scratchBytes := List.mem_map_of_mem member
  cases most : (g.nodes.map Node.scratchBytes).max? with
  | none => simp [List.max?_eq_none_iff.mp most] at listed
  | some greatest =>
    rw [scratchBytes, most, Option.getD_some]
    exact (List.max?_eq_some_iff.mp most).2 _ listed

end Graph

namespace Runner

/-- No sum that the planner forms for a runner leaves the 64-bit range. -/
def PlanFits (r : Runner) : Prop :=
  ∃ sizes, r.graph.internalBytes = .ok sizes ∧
    (WorkspacePlan.build? (r.graph.lifetimes sizes) r.graph.scratchBytes
      r.config.workspaceAlignment r.config.workspaceStrategy).isSome

/-- The range of an internal tensor in the workspace of a call. -/
def internalSpan (r : Runner) (m : CallMemory) (index : Nat) : Span where
  ptr := m.workspace.ptr.offset (r.plan.offsets[index]?.getD 0)
  len := ((r.graph.desc? (.internal index)).bind TensorDesc.byteSize?).getD 0

/-- A runner that is planned, and the memory of a call that it accepts. -/
structure Ready (r : Runner) (m : CallMemory) (sizes : List Nat) : Prop where
  formed : r.graph.topology.WellFormed
  sized : r.graph.internalBytes = .ok sizes
  sound : r.plan.Sound r.config.workspaceStrategy r.config.workspaceAlignment
    (r.graph.lifetimes sizes) r.graph.scratchBytes
  workspace : r.plan.totalBytes ≤ m.workspace.len
  inputs : m.inputs.length = r.graph.inputs.length
  outputs : m.outputs.length = r.graph.outputs.length
  outputsBound : ∀ index < r.graph.outputs.length, ∃ desc,
    r.graph.desc? (.output index) = some desc
  reads : ∀ n ∈ r.graph.nodes, n.resolvedInputs.length = n.inputs.length ∧
    ∀ (index : Nat) (id : TensorId) (desc : TensorDesc), n.inputs[index]? = some id →
      n.resolvedInputs[index]? = some desc →
      ∃ held, r.graph.desc? id = some held ∧ desc.Reads r.config.checkViews held

namespace Ready

variable {r : Runner} {m : CallMemory} {sizes : List Nat} (ready : r.Ready m sizes)
include ready

/-- An internal tensor has a size, an offset and a live range, and lies before the scratch. -/
theorem internal {index : Nat} (has : r.graph.topology.Has (.internal index)) :
    ∃ offset t desc, r.plan.offsets[index]? = some offset ∧
      (r.graph.lifetimes sizes)[index]? = some t ∧
      r.graph.desc? (.internal index) = some desc ∧ desc.byteSize? = some t.bytes ∧
      r.internalSpan m index = ⟨m.workspace.ptr.offset offset, t.bytes⟩ ∧
      offset + t.bytes ≤ r.plan.scratchOffset := by
  have inside : index < r.graph.internals.length := by
    simpa only [Topology.Has, Graph.topology, List.length_map] using has
  have answers := Answer.getElem?_mapM ready.sized index
  have count := Answer.length_mapM ready.sized
  have offsetCount := ready.sound.laid.length
  have lifetimeCount : (r.graph.lifetimes sizes).length = sizes.length := by
    simp only [Graph.lifetimes, List.length_map, List.length_zipIdx]
  obtain ⟨offset, atOffset⟩ : ∃ offset, r.plan.offsets[index]? = some offset :=
    ⟨_, List.getElem?_eq_getElem (by omega)⟩
  obtain ⟨t, atLifetime⟩ : ∃ t, (r.graph.lifetimes sizes)[index]? = some t :=
    ⟨_, List.getElem?_eq_getElem (by omega)⟩
  obtain ⟨slot, atSlot⟩ : ∃ slot, r.graph.internals[index]? = some slot :=
    ⟨_, List.getElem?_eq_getElem inside⟩
  rw [atSlot, Graph.bytes_lifetimes atLifetime, Option.map_some, Option.map_some,
    Option.some.injEq] at answers
  obtain ⟨tensor, held, size⟩ : ∃ tensor, slot.tensor = some tensor ∧
      tensor.desc.byteSize? = some t.bytes := by
    unfold Slot.byteSize at answers
    split at answers
    · simp at answers
    · rename_i tensor held
      split at answers
      · simp at answers
      · rename_i bytes size
        exact ⟨tensor, held, by rw [size, Except.ok.inj answers]⟩
  have desc : r.graph.desc? (.internal index) = some tensor.desc := by
    simp only [Graph.desc?, Graph.tensor?, Graph.slot?, atSlot, Option.bind_some, held,
      Option.map_some]
  refine ⟨offset, t, tensor.desc, atOffset, atLifetime, desc, size, ?_,
    ready.sound.inside index t offset atLifetime atOffset⟩
  simp only [internalSpan, atOffset, desc, Option.bind_some, size, Option.getD_some]

theorem covers_workspace {index : Nat} (has : r.graph.topology.Has (.internal index)) {x : Address}
    (covered : (r.internalSpan m index).Covers x) : m.workspace.Covers x := by
  obtain ⟨offset, t, desc, -, -, -, -, span, inside⟩ := ready.internal has
  have fits := ready.workspace
  have scratch := ready.sound.scratchInside
  rw [span] at covered
  exact Span.covers_of_part (by omega) covered

/-- Internal tensors that are live at one node have ranges apart. -/
theorem internals_apart (position : Nat) {i j : Nat} (different : i ≠ j)
    (hasI : r.graph.topology.Has (.internal i)) (hasJ : r.graph.topology.Has (.internal j))
    (live : ∀ index t, index = i ∨ index = j →
      (r.graph.lifetimes sizes)[index]? = some t → t.produced ≤ position ∧ position ≤ t.lastUsed) :
    (r.internalSpan m i).Disjoint (r.internalSpan m j) := by
  obtain ⟨a, s, -, offsetI, lifetimeI, -, -, spanI, insideI⟩ := ready.internal hasI
  obtain ⟨b, t, -, offsetJ, lifetimeJ, -, -, spanJ, insideJ⟩ := ready.internal hasJ
  obtain ⟨fromI, toI⟩ := live i s (.inl rfl) lifetimeI
  obtain ⟨fromJ, toJ⟩ := live j t (.inr rfl) lifetimeJ
  have meets : s.Meets t := ⟨by omega, by omega⟩
  have scratch := ready.sound.scratchInside
  have bounded := ready.sound.bounded
  rw [spanI, spanJ]
  exact Span.disjoint_parts
    (ready.sound.laid.apart i j s t a b different lifetimeI lifetimeJ offsetI offsetJ (.inr meets))
    (by omega) (by omega)

omit ready in
theorem scratchOf_eq_some {n : Node} {span : Span} (scratch : r.scratchOf m n = some span) :
    span = ⟨m.workspace.ptr.offset r.plan.scratchOffset, n.scratchBytes⟩ := by
  unfold scratchOf at scratch
  split at scratch
  · simp at scratch
  · unfold Span.slice? at scratch
    split at scratch
    · exact (Option.some.inj scratch).symm
    · simp at scratch

/-- The scratch of a node lies behind every internal tensor. -/
theorem scratch_apart {n : Node} (member : n ∈ r.graph.nodes) {span : Span}
    (scratch : r.scratchOf m n = some span) {index : Nat}
    (has : r.graph.topology.Has (.internal index)) :
    span.Disjoint (r.internalSpan m index) := by
  obtain ⟨offset, t, -, -, -, -, -, internal, inside⟩ := ready.internal has
  have most := r.graph.le_scratchBytes member
  have planned := ready.sound.scratch
  have total := ready.sound.scratchInside
  have bounded := ready.sound.bounded
  rw [scratchOf_eq_some scratch, internal]
  exact Span.disjoint_parts (.inr inside) (by omega) (by omega)

theorem live_of_touched {position index : Nat} {t : Lifetime}
    (found : (r.graph.lifetimes sizes)[index]? = some t)
    (touched : r.graph.Touches position (.internal index)) :
    t.produced ≤ position ∧ position ≤ t.lastUsed := by
  refine ⟨?_, Graph.le_lastUsed_lifetimes found touched⟩
  obtain ⟨n, atPosition, member⟩ := touched
  have inTopology := Graph.topology_of_found atPosition
  rcases List.mem_append.mp member with read | written
  · obtain ⟨earlier, before, producer⟩ :=
      ready.formed.readsEarlier position n.topology inTopology _ read rfl
    rw [Graph.produced_lifetimes found ready.formed producer]
    omega
  · rw [Graph.produced_lifetimes found ready.formed (Graph.produces_of_writes atPosition written)]

end Ready

/-- A complete runner whose plan fits is ready for every call that it accepts. -/
theorem Complete.ready {r : Runner} (complete : r.Complete)
    (power : Config.IsPowerOfTwo r.config.workspaceAlignment) (fits : r.PlanFits) {call : Pack}
    {m : CallMemory} (accepted : r.callMemory call = .ok m) : ∃ sizes, r.Ready m sizes := by
  obtain ⟨sizes, sized, plan⟩ := complete.planned
  have covered := complete.covered accepted
  refine ⟨sizes, complete.formed, sized, ?_, workspace_of_accepted accepted, covered.inputs,
    covered.outputs, complete.bound_side .output, complete.reads⟩
  obtain ⟨others, sizedToo, planned⟩ := fits
  obtain rfl : sizes = others := Except.ok.inj (sized.symm.trans sizedToo)
  obtain ⟨checkedPlan, checked⟩ := Option.isSome_iff_exists.mp planned
  rw [plan, WorkspacePlan.build_of_checked checked]
  exact WorkspacePlan.sound_of_checked power checked

/-- A runner is ready for every call that it accepts after a successful setup. -/
theorem ready_of_setup {r : Runner} {pack callPack : Pack} {bytes : Nat} {m : CallMemory}
    (formed : r.graph.topology.WellFormed)
    (power : Config.IsPowerOfTwo r.config.workspaceAlignment)
    (success : (r.setup pack).result = .ok bytes) (fits : (r.setup pack).state.PlanFits)
    (accepted : (r.setup pack).state.callMemory callPack = .ok m) :
    ∃ sizes, (r.setup pack).state.Ready m sizes :=
  (complete_setup formed success).ready ((r.blank_setup pack).2 ▸ power) fits accepted

end Runner

end OperatorGraph
