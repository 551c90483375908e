import OperatorGraph.Proofs.Dispatch.Measures
import OperatorGraph.Proofs.Dispatch.Rearranging

set_option autoImplicit false

namespace OperatorGraph

open Dispatch Shader RowMajor

theorem eq_of_getElem?_singleton {α : Type} {x y : α} {j : Nat} (found : [x][j]? = some y) :
    j = 0 ∧ y = x := by
  rw [List.getElem?_singleton] at found
  split at found
  · exact ⟨‹_›, (Option.some.inj found).symm⟩
  · contradiction

theorem Shape.getElem?_extents {s : Shape} {axis : Nat} {dim : Int}
    (found : s.dims[axis]? = some dim) : s.extents[axis]? = some dim.toNat := by
  rw [extents, List.getElem?_map, found, Option.map_some]

theorem Span.ne_of_disjoint {s t : Span} (apart : s.Disjoint t) (some : 0 < t.elements) :
    s ≠ t := by
  rintro rfl
  have bytes : 0 < s.len := Nat.pos_of_ne_zero fun none => by
    rw [Span.elements, none] at some
    omega
  exact apart (s.ptr.offset 0) ⟨0, bytes, rfl⟩ ⟨0, bytes, rfl⟩

namespace Launch

variable {launch : Launch} {inferred : List TensorDesc} (accepted : launch.Accepted inferred)
  (movable : launch.Movable)
include accepted movable

omit accepted in
theorem Movable.measured : launch.Measured :=
  ⟨movable.bindable, movable.resolved, movable.few⟩

theorem elements_eq {b : Binding} (member : b ∈ launch.inputs ++ launch.outputs) :
    b.span.elements = b.desc.shape.extents.prod :=
  (Movable.measured movable).elements_eq accepted member

theorem output_elements {j : Nat} {out : Binding} {desc : TensorDesc}
    (atOut : launch.outputs[j]? = some out) (atDesc : inferred[j]? = some desc)
    (known : desc.shape.Resolved) : out.span.elements = desc.shape.extents.prod :=
  (Movable.measured movable).output_elements accepted atOut atDesc known

omit accepted in
theorem span_ne {b out : Binding} (input : b ∈ launch.inputs) (output : out ∈ launch.outputs)
    (some : 0 < out.span.elements) : b.span ≠ out.span :=
  Span.ne_of_disjoint (movable.apart b input out output) some

/-- It is enough to fill outputs that have elements. -/
theorem rearranges_of_filled (plain : ∀ index, launch.param.acceptedFormats index = [.rowMajor])
    (kept : ∀ desc ∈ inferred, ∃ b ∈ launch.inputs, desc.format = b.desc.format)
    (known : ∀ desc ∈ inferred, desc.shape.Resolved)
    (family : (∃ desc ∈ inferred, desc.shape.elementCount ≠ 0) →
      ∃ steps, launch.planFamily = .ok (steps.map CopyStep.dispatch) ∧
        launch.Filled inferred steps) :
    ∃ ds, launch.plan = .ok ds ∧ launch.Rearranges inferred ds := by
  have untiled := accepted.untiled plain kept
  cases empty : launch.outputs.all (·.bytes = 0) with
  | false =>
    obtain ⟨steps, planned, filled⟩ := family (accepted.nonempty empty)
    refine ⟨_, ?_, filled.rearranges⟩
    simp only [plan, untiled, empty, Bool.false_eq_true, if_false, planned]
  | true =>
    refine ⟨[], by simp only [plan, untiled, empty, if_true], ?_⟩
    have none : launch.Filled inferred [] := by
      refine ⟨⟨by simp, by simp, .nil⟩, by simp, by simp,
        fun j out desc c atOut atDesc inside => ?_⟩
      have count := output_elements accepted movable atOut atDesc
        (known desc (List.mem_of_getElem? atDesc))
      have bytes := List.all_eq_true.mp empty out (List.mem_of_getElem? atOut)
      have zero : out.bytes = 0 := by simpa using bytes
      have below := position_lt inside
      have nothing : out.span.elements = 0 := by
        show out.bytes / 4 = 0
        rw [zero]
      omega
    exact none.rearranges

end Launch

/-- Launch parameters are words where all of their parts are. -/
theorem StridedCopy.words_of_parts {c : StridedCopy}
    (threads : 0 ≤ c.dims.prod ∧ c.dims.prod < 2 ^ 32) (short : 4 + 3 * c.dims.length ≤ 2 ^ 32)
    (source : 0 ≤ c.sourceOffset ∧ c.sourceOffset < 2 ^ 32)
    (target : 0 ≤ c.targetOffset ∧ c.targetOffset < 2 ^ 32)
    (dims : ∀ dim ∈ c.dims, 0 ≤ dim ∧ dim < 2 ^ 32)
    (sources : ∀ stride ∈ c.sourceStrides, 0 ≤ stride ∧ stride < 2 ^ 32)
    (targets : ∀ stride ∈ c.targetStrides, 0 ≤ stride ∧ stride < 2 ^ 32) :
    ∀ value ∈ c.dims.prod :: c.parameters, 0 ≤ value ∧ value < 0x1_0000_0000 := by
  intro value member
  simp only [parameters, List.mem_cons, List.mem_append, List.not_mem_nil, or_false] at member
  rcases member with rfl | (((rfl | rfl | rfl) | inDims) | inSources) | inTargets
  · omega
  · omega
  · omega
  · omega
  · have word := dims value inDims
    omega
  · have word := sources value inSources
    omega
  · have word := targets value inTargets
    omega

/-- A copy that takes a coordinate of the source to one of the target, and no two to the same. -/
structure StridedCopy.Carries (c : StridedCopy) (source target : List Nat)
    (origin goal : List Nat → List Nat) : Prop where
  reads : ∀ coords, Inside coords c.extents →
    Inside (origin coords) source ∧ c.reads coords = position source (origin coords)
  writes : ∀ coords, Inside coords c.extents →
    Inside (goal coords) target ∧ c.writes coords = position target (goal coords)
  once : ∀ a b, Inside a c.extents → Inside b c.extents → goal a = goal b → a = b

namespace Launch

variable {launch : Launch} {inferred : List TensorDesc} (accepted : launch.Accepted inferred)
  (movable : launch.Movable)
include accepted movable

omit accepted in
theorem part_of_input {x : Binding} (input : x ∈ launch.inputs)
    (positive : ∀ dim ∈ x.desc.shape.dims, 1 ≤ dim) :
    Shape.Part x.desc.shape.dims x.desc.shape.dims := by
  have member : x ∈ launch.inputs ++ launch.outputs := List.mem_append_left _ input
  have count := Bounded.cast_prod_toNat (movable.resolved x member)
  have few := movable.few x member
  unfold Shape.extents at few
  exact .self positive (by omega)

/-- An output that is not empty has few elements, too. -/
theorem written_elements {j : Nat} {out : Binding} {desc : TensorDesc}
    (atOut : launch.outputs[j]? = some out) (atDesc : inferred[j]? = some desc)
    (known : desc.shape.Resolved) (written : desc.shape.elementCount ≠ 0) :
    0 < out.span.elements ∧ out.span.elements < 2 ^ 32 := by
  have member : out ∈ launch.inputs ++ launch.outputs :=
    List.mem_append_right _ (List.mem_of_getElem? atOut)
  have fits := accepted.fits desc (List.mem_of_getElem? atDesc)
  have one := List.one_le_prod (TensorDesc.one_le_of_written known fits written)
  have count := Bounded.cast_prod_toNat known
  have elements := output_elements accepted movable atOut atDesc known
  have few := movable.few out member
  rw [← elements_eq accepted movable member] at few
  unfold Shape.extents at elements
  omega

theorem part_of_output {j : Nat} {out : Binding} {desc : TensorDesc}
    (atOut : launch.outputs[j]? = some out) (atDesc : inferred[j]? = some desc)
    (known : desc.shape.Resolved) (written : desc.shape.elementCount ≠ 0) :
    Shape.Part desc.shape.dims desc.shape.dims := by
  have fits := accepted.fits desc (List.mem_of_getElem? atDesc)
  have few := (written_elements accepted movable atOut atDesc known written).2
  have count := Bounded.cast_prod_toNat known
  rw [output_elements accepted movable atOut atDesc known] at few
  unfold Shape.extents at few
  exact .self (TensorDesc.one_le_of_written known fits written) (by omega)

end Launch

namespace CopyStep

/-- A step that carries elements of an input to elements of an output. -/
structure Carries (s : CopyStep) (launch : Launch) (inferred : List TensorDesc) (j : Nat)
    (desc : TensorDesc) (origin goal : List Nat → List Nat) : Prop where
  input : s.source ∈ launch.inputs
  output : launch.outputs[j]? = some s.target
  stands : inferred[j]? = some desc
  known : desc.shape.Resolved
  written : desc.shape.elementCount ≠ 0
  carries : s.copy.Carries s.source.desc.shape.extents desc.shape.extents origin goal
  sources : s.copy.sourceStrides.length = s.copy.dims.length
  targets : s.copy.targetStrides.length = s.copy.dims.length
  rank : s.copy.dims.length = s.source.desc.shape.rank
  product : Bounded.product? s.copy.dims = some s.copy.dims.prod
  words : ∀ value ∈ s.copy.dims.prod :: s.copy.parameters, 0 ≤ value ∧ value < 0x1_0000_0000

namespace Carries

variable {s : CopyStep} {launch : Launch} {inferred : List TensorDesc} {j : Nat} {desc : TensorDesc}
  {origin goal : List Nat → List Nat} (carries : s.Carries launch inferred j desc origin goal)
  (accepted : launch.Accepted inferred) (movable : launch.Movable)
include carries

theorem inLaunch : s.source ∈ launch.inputs ++ launch.outputs ∧
    s.target ∈ launch.inputs ++ launch.outputs :=
  ⟨List.mem_append_left _ carries.input,
    List.mem_append_right _ (List.mem_of_getElem? carries.output)⟩

include accepted movable

theorem target_elements : 0 < s.target.span.elements ∧ s.target.span.elements < 2 ^ 32 :=
  Launch.written_elements accepted movable carries.output carries.stands carries.known
    carries.written

theorem placed : s.copy.Placed s.source.span s.target.span := by
  obtain ⟨some, few⟩ := carries.target_elements accepted movable
  have source := Launch.elements_eq accepted movable carries.inLaunch.1
  have target := Launch.output_elements accepted movable carries.output carries.stands carries.known
  have short := movable.short s.source carries.input
  have rank := carries.rank
  refine ⟨carries.sources, carries.targets, carries.product, carries.words, by omega,
    fun coords inside => ?_, fun coords inside => ?_, ?_, Nat.le_of_lt few,
    fun a b insideA insideB same => ?_, ?_⟩
  · obtain ⟨within, place⟩ := carries.carries.reads coords inside
    rw [place, source]
    exact position_lt within
  · obtain ⟨within, place⟩ := carries.carries.writes coords inside
    rw [place, target]
    exact position_lt within
  · rw [source]
    exact Nat.le_of_lt (movable.few s.source carries.inLaunch.1)
  · obtain ⟨withinA, placeA⟩ := carries.carries.writes a insideA
    obtain ⟨withinB, placeB⟩ := carries.carries.writes b insideB
    rw [placeA, placeB] at same
    exact carries.carries.once a b insideA insideB (position_injective withinA withinB same)
  · exact Launch.span_ne movable carries.input (List.mem_of_getElem? carries.output) some

theorem answers : s.copy.dispatch s.source s.target = .ok s.dispatch :=
  dispatch_answers (carries.placed accepted movable) (movable.bindable _ carries.inLaunch.1)
    (movable.bindable _ carries.inLaunch.2)

end Carries

end CopyStep

/-- Steps that carry elements fill the outputs whose coordinates they reach. -/
theorem Launch.filled_of_carries {launch : Launch} {inferred : List TensorDesc}
    {steps : List CopyStep} (accepted : launch.Accepted inferred) (movable : launch.Movable)
    (each : ∀ s ∈ steps, ∃ j desc origin goal, s.Carries launch inferred j desc origin goal)
    (apart : steps.Pairwise CopyStep.Apart)
    (reaches : ∀ (j : Nat) (desc : TensorDesc) (c : List Nat), inferred[j]? = some desc →
      Inside c desc.shape.extents → ∃ s ∈ steps, ∃ origin goal i coords,
        s.Carries launch inferred j desc origin goal ∧ launch.inputs[i]? = some s.source ∧
          Inside coords s.copy.extents ∧ goal coords = c ∧
            launch.param.Brings (launch.inputs.map Binding.desc) j c i (origin coords)) :
    launch.Filled inferred steps := by
  refine ⟨⟨fun s member => ?_, fun s first t second => ?_, apart⟩, fun s member => ?_,
    fun s member => ?_, fun j out desc c atOut atDesc inside => ?_⟩
  · obtain ⟨_, _, _, _, carries⟩ := each s member
    exact carries.placed accepted movable
  · obtain ⟨_, _, _, _, reading⟩ := each s first
    obtain ⟨_, _, _, _, writing⟩ := each t second
    exact span_ne movable reading.input (List.mem_of_getElem? writing.output)
      (writing.target_elements accepted movable).1
  · obtain ⟨_, _, _, _, carries⟩ := each s member
    exact carries.input
  · obtain ⟨_, _, _, _, carries⟩ := each s member
    exact List.mem_of_getElem? carries.output
  · obtain ⟨s, member, origin, goal, i, coords, carries, atInput, within, rfl, brings⟩ :=
      reaches j desc c atDesc inside
    obtain ⟨insideSource, reads⟩ := carries.carries.reads coords within
    exact ⟨i, s.source, origin coords, atInput, insideSource, brings, s, member, rfl,
      Option.some.inj (carries.output.symm.trans atOut), coords, within,
      (carries.carries.writes coords within).2, reads⟩

end OperatorGraph
