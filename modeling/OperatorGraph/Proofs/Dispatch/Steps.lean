import OperatorGraph.Proofs.Dispatch.Contents
import OperatorGraph.Proofs.Dispatch.Planning
import OperatorGraph.Proofs.Runner.Ranges

set_option autoImplicit false

namespace OperatorGraph

open Dispatch Shader RowMajor

/-- One copy of a plan, between two tensors of its launch. -/
structure CopyStep where
  copy : StridedCopy
  source : Binding
  target : Binding

namespace CopyStep

/-- The kernel that is bound to the element types of both tensors. -/
def kernel (s : CopyStep) : Kernel :=
  match Kernel.binding [s.source.desc.dtype, s.target.desc.dtype] with
  | .ok kernel => kernel
  | .error _ => .empty

def dispatch (s : CopyStep) : Dispatch :=
  s.copy.dispatched s.kernel s.source.span s.target.span

/-- Neither step writes an element that the other one writes. -/
def Apart (s t : CopyStep) : Prop :=
  s.target.span = t.target.span → ∀ a b, Inside a s.copy.extents → Inside b t.copy.extents →
    s.copy.writes a ≠ t.copy.writes b

theorem Apart.symm {s t : CopyStep} (apart : s.Apart t) : t.Apart s :=
  fun same a b insideA insideB equal => apart same.symm b a insideB insideA equal.symm

theorem dispatch_answers {s : CopyStep} (placed : s.copy.Placed s.source.span s.target.span)
    (bindsSource : s.source.desc.dtype = .f32 ∨ s.source.desc.dtype = .i32)
    (bindsTarget : s.target.desc.dtype = .f32 ∨ s.target.desc.dtype = .i32) :
    s.copy.dispatch s.source s.target = .ok s.dispatch := by
  obtain ⟨kernel, planned⟩ := placed.dispatch_answers bindsSource bindsTarget
  obtain ⟨bound, answered⟩ := StridedCopy.binding_answers bindsSource bindsTarget
  obtain ⟨threads, other, -, -, binding, same⟩ := StridedCopy.dispatch_ok planned
  have chosen : s.kernel = other := by
    rw [CopyStep.kernel, binding]
  have program := congrArg Dispatch.kernel same
  rw [planned, dispatch, chosen]
  simp only [StridedCopy.dispatched] at program ⊢
  rw [program]

end CopyStep

/-- What a list of steps does, said of all of them at once. -/
structure CopyStep.Ordered (steps : List CopyStep) : Prop where
  placed : ∀ s ∈ steps, s.copy.Placed s.source.span s.target.span
  sources : ∀ s ∈ steps, ∀ t ∈ steps, s.source.span ≠ t.target.span
  apart : steps.Pairwise CopyStep.Apart

namespace CopyStep

variable {F : Type} {steps : List CopyStep}

theorem Ordered.runEach (ordered : Ordered steps) (m : Arithmetic F) (held : Contents F) :
    ∃ after, Dispatch.runEach (steps.map CopyStep.dispatch) m held = .ok after ∧
      (∀ s ∈ steps, ∀ coords, Inside coords s.copy.extents →
        after s.target.span (s.copy.writes coords) = held s.source.span (s.copy.reads coords)) ∧
      ∀ span i, (∀ s ∈ steps, s.target.span = span →
        ∀ coords, Inside coords s.copy.extents → s.copy.writes coords ≠ i) →
          after span i = held span i := by
  obtain ⟨placed, sources, apart⟩ := ordered
  induction steps generalizing held with
  | nil => exact ⟨held, rfl, by simp, fun _ _ _ => rfl⟩
  | cons first rest ih =>
    rw [List.pairwise_cons] at apart
    obtain ⟨middle, once, filled⟩ := (placed first (by simp)).runOn_filled first.kernel m held
    obtain ⟨after, later, moved, kept⟩ := ih middle (fun s member => placed s (by simp [member]))
      (fun s inRest t alsoInRest => sources s (by simp [inRest]) t (by simp [alsoInRest])) apart.2
    refine ⟨after, ?_, fun s member coords inside => ?_, fun span i untouched => ?_⟩
    · have step : first.dispatch.runOn m held = .ok middle := once
      rw [Dispatch.runEach, List.map_cons, List.foldlM_cons, step]
      exact later
    · rcases List.mem_cons.mp member with rfl | inRest
      · rw [kept, filled.moved coords inside]
        intro t inRest same other insideOther equal
        exact (apart.1 t inRest) same.symm coords other inside insideOther equal.symm
      · rw [moved s inRest coords inside, filled.other]
        exact sources s member first (by simp)
    · rw [kept span i fun s inRest => untouched s (List.mem_cons_of_mem _ inRest)]
      by_cases here : first.target.span = span
      · rw [← here]
        exact filled.kept i (untouched first (by simp) here)
      · rw [filled.other span fun same => here same.symm]

end CopyStep

/-- A thread does one thing only. -/
theorem Dispatch.Moves.unique {d : Dispatch} {n r r' w w' : Nat}
    {source source' target target' : Span} (first : d.Moves n source r target w)
    (second : d.Moves n source' r' target' w') :
    target = target' ∧ w = w' := by
  have spans : [source, target] = [source', target'] := first.tensors.symm.trans second.tensors
  simp only [List.cons.injEq, and_true] at spans
  obtain ⟨rfl, rfl⟩ := spans
  -- Any arithmetic and any elements show it.
  have m : Arithmetic Unit :=
    ⟨fun _ => (), fun _ => (), fun _ => (), fun _ => (), fun _ => 0, fun _ => 0, fun _ _ => (),
      fun _ _ => (), fun _ _ => (), fun _ _ => (), fun _ _ => (), fun _ => (), fun _ => (),
      fun _ => (), fun _ => ()⟩
  obtain ⟨t, ran, accesses, -⟩ := first.runs m
    ⟨fun b => if b = 1 then source.elements else target.elements, fun _ _ => .literal 0⟩ rfl rfl
  obtain ⟨t', again, alsoAccesses, -⟩ := second.runs m
    ⟨fun b => if b = 1 then source.elements else target.elements, fun _ _ => .literal 0⟩ rfl rfl
  obtain rfl : t = t' := Except.ok.inj (ran.symm.trans again)
  have same := accesses.symm.trans alsoAccesses
  simp only [List.cons.injEq, Access.write.injEq] at same
  exact ⟨rfl, same.2.1.2⟩

end OperatorGraph
