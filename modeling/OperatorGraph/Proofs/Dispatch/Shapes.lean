import Mathlib.Data.List.Forall2
import OperatorGraph.Dispatch.Plan

set_option autoImplicit false

namespace OperatorGraph

namespace Binding

/-- The binding without its shape. -/
def unshaped (b : Binding) : Binding :=
  { b with desc := b.desc.withShape .scalar }

@[simp] theorem span_unshaped (b : Binding) : b.unshaped.span = b.span := rfl

@[simp] theorem dtype_unshaped (b : Binding) : b.unshaped.desc.dtype = b.desc.dtype := rfl

/-- The same range, under shapes that hold as many elements. -/
structure Reshapes (b c : Binding) : Prop where
  unshaped : b.unshaped = c.unshaped
  count : b.desc.shape.elementCount = c.desc.shape.elementCount

end Binding

namespace Launch

/-- The launch without the shapes of its outputs. -/
def unshaped (launch : Launch) : Launch :=
  { launch with outputs := launch.outputs.map Binding.unshaped }

section

variable (launch : Launch)

@[simp] theorem param_unshaped : launch.unshaped.param = launch.param := rfl

@[simp] theorem inputs_unshaped : launch.unshaped.inputs = launch.inputs := rfl

@[simp] theorem outputs_unshaped :
    launch.unshaped.outputs = launch.outputs.map Binding.unshaped := rfl

@[simp] theorem scratch_unshaped : launch.unshaped.scratch = launch.scratch := rfl

end

end Launch

namespace Dispatch

@[simp] theorem item_map {α β : Type} (change : α → β) (items : List α) (index : Nat) :
    item (items.map change) index = change <$> item items index := by
  simp only [item, List.getElem?_map]
  cases items[index]? <;> rfl

@[simp] theorem missing_unshaped {α : Type} (launch : Launch) (reason : MissingKernel) :
    (missing launch.unshaped reason : Except KernelError α) = missing launch reason := rfl

@[simp] theorem expectF32_unshaped (launch : Launch) :
    expectF32 launch.unshaped = expectF32 launch := by
  have outputs : (launch.outputs.map Binding.unshaped).find? (·.desc.dtype ≠ .f32) =
      (launch.outputs.find? (·.desc.dtype ≠ .f32)).map Binding.unshaped :=
    List.find?_map
  simp only [expectF32, Launch.unshaped, List.find?_append, outputs]
  generalize launch.inputs.find? (·.desc.dtype ≠ .f32) = input
  generalize launch.outputs.find? (·.desc.dtype ≠ .f32) = output
  cases input with
  | some tensor => rfl
  | none => cases output <;> rfl

end Dispatch

open Dispatch

section

variable (launch : Launch)

theorem Elementwise.plan_unshaped (kind : Elementwise) :
    kind.plan launch.unshaped = kind.plan launch := by
  simp [plan, planScale, planCast, planBroadcast, onBindings]

theorem LayerNorm.plan_unshaped (p : LayerNorm) : p.plan launch.unshaped = p.plan launch := by
  cases stats : p.withStats <;> simp [plan, LayerNorm.outputs, stats, onBindings]

theorem RmsNorm.plan_unshaped (epsilon : Scalar) :
    plan epsilon launch.unshaped = plan epsilon launch := by
  simp [plan, onBindings]

theorem MatMul.plan_unshaped (p : MatMul) : p.plan launch.unshaped = p.plan launch := by
  simp [plan, onBindings]

theorem Activation.plan_unshaped {kind : Activation} (map : kind ≠ .swiglu) :
    kind.plan launch.unshaped = kind.plan launch := by
  simp [plan, map, onBindings]

theorem Softmax.plan_unshaped (axis : Int) : plan axis launch.unshaped = plan axis launch := by
  simp [plan, onBindings]

theorem StridedCopy.dispatch_unshaped (c : StridedCopy) (source target : Binding) :
    c.dispatch source target.unshaped = c.dispatch source target := by
  simp [dispatch, onBindings]

theorem Strided.plan_unshaped (p : Strided) : p.plan launch.unshaped = p.plan launch := by
  simp [plan, StridedCopy.dispatch_unshaped]

theorem Transposition.plan_unshaped (perm : List Nat) :
    plan perm launch.unshaped = plan perm launch := by
  simp [plan, StridedCopy.dispatch_unshaped]

theorem Split.plan_unshaped (axis : Int) (count : Nat) :
    plan axis count launch.unshaped = plan axis count launch := by
  simp [plan, List.zipIdx_map, List.mapM_map, Function.comp_def, StridedCopy.dispatch_unshaped]

theorem Concat.plan_unshaped (axis : Int) : plan axis launch.unshaped = plan axis launch := by
  simp [plan, StridedCopy.dispatch_unshaped]

theorem Gather.plan_unshaped (axis : Int) : plan axis launch.unshaped = plan axis launch := by
  simp [plan, onBindings]

theorem Rope.plan_unshaped (rotaryCoeff : Int) :
    plan rotaryCoeff launch.unshaped = plan rotaryCoeff launch := by
  simp [plan, dispatch, onBindings]

theorem SelfAttention.plan_unshaped (p : SelfAttention) :
    p.plan launch.unshaped = p.plan launch := by
  simp [plan]

end

namespace Launch

/-- Both launches are the same but for the shapes of their outputs, which hold as many elements. -/
structure Reshapes (l k : Launch) : Prop where
  unshaped : l.unshaped = k.unshaped
  counts : l.outputs.map (·.desc.shape.elementCount) = k.outputs.map (·.desc.shape.elementCount)

theorem reshapes_of_outputs {node : String} {param : Operator} {inputs : List Binding}
    {scratch : Option Span} {bs cs : List Binding} (outputs : List.Forall₂ Binding.Reshapes bs cs) :
    Launch.Reshapes ⟨node, param, inputs, bs, scratch⟩ ⟨node, param, inputs, cs, scratch⟩ := by
  have alike {α : Type} (view : Binding → α) (keeps : ∀ b c, b.Reshapes c → view b = view c) :
      bs.map view = cs.map view := by
    induction outputs with
    | nil => rfl
    | cons same _ ih => rw [List.map_cons, List.map_cons, keeps _ _ same, ih]
  refine ⟨?_, alike _ fun _ _ same => same.count⟩
  simp only [unshaped, alike _ fun _ _ same => same.unshaped]

/-- The last dimensions of the outputs. -/
def widths (launch : Launch) : List (Option Int) :=
  launch.outputs.map (·.desc.shape.dims.getLast?)

theorem planFamily_unshaped {launch : Launch} (map : launch.param ≠ .activation .swiglu) :
    launch.unshaped.planFamily = launch.planFamily := by
  simp only [planFamily, param_unshaped]
  cases param : launch.param with
  | elementwise kind => exact kind.plan_unshaped launch
  | layerNorm p => exact p.plan_unshaped launch
  | rmsNorm epsilon => exact RmsNorm.plan_unshaped launch epsilon
  | matMul p => exact p.plan_unshaped launch
  | activation kind =>
    refine Activation.plan_unshaped launch fun gated => map ?_
    rw [param, gated]
  | softmax axis => exact Softmax.plan_unshaped launch axis
  | asStrided p => exact p.plan_unshaped launch
  | transpose perm => exact Transposition.plan_unshaped launch perm
  | relayout target => rfl
  | split axis count => exact Split.plan_unshaped launch axis count
  | concat axis => exact Concat.plan_unshaped launch axis
  | gather axis => exact Gather.plan_unshaped launch axis
  | rope rotaryCoeff => exact Rope.plan_unshaped launch rotaryCoeff
  | selfAttention p => exact p.plan_unshaped launch

theorem firstTiled?_unshaped (launch : Launch) :
    launch.unshaped.firstTiled? = launch.firstTiled? := by
  simp only [firstTiled?, inputs_unshaped, outputs_unshaped, List.findIdx?_append,
    List.findIdx?_map]
  rfl

theorem empty_unshaped (launch : Launch) :
    launch.unshaped.outputs.all (·.bytes = 0) = launch.outputs.all (·.bytes = 0) := by
  rw [outputs_unshaped, List.all_map]
  rfl

/-- The gated activation asks its output for the number of elements and for the last dimension. -/
theorem plan_gated {l k : Launch} (same : l.Reshapes k) (widths : l.widths = k.widths) :
    Activation.swiglu.plan l = Activation.swiglu.plan k := by
  have float : expectF32 l = expectF32 k := by
    rw [← expectF32_unshaped l, ← expectF32_unshaped k, same.unshaped]
  have inputs : l.inputs = k.inputs := by
    rw [← inputs_unshaped l, same.unshaped, inputs_unshaped]
  have outputs := congrArg (fun launch : Launch => launch.outputs[0]?) same.unshaped
  have counts := congrArg (fun counts : List Int => counts[0]?) same.counts
  have lasts := congrArg (fun lasts : List (Option Int) => lasts[0]?) widths
  simp only [Launch.widths, unshaped, List.getElem?_map] at outputs counts lasts
  simp only [Activation.plan, float, inputs, item]
  cases first : l.outputs[0]? with
  | none =>
    rw [first] at outputs
    rw [Option.map_eq_none_iff.mp outputs.symm]
  | some out =>
    rw [first] at outputs counts lasts
    obtain ⟨out', first', stored⟩ := Option.map_eq_some_iff.mp outputs.symm
    rw [first', Option.map_some, Option.map_some, Option.some.injEq] at counts lasts
    have dtype : out.desc.dtype = out'.desc.dtype := by
      rw [← Binding.dtype_unshaped out, ← Binding.dtype_unshaped out', stored]
    have span : out.span = out'.span := by
      rw [← Binding.span_unshaped out, ← Binding.span_unshaped out', stored]
    have answered {b : Binding} (next : Binding → Answer) : (Except.ok b >>= next) = next b := rfl
    simp only [first', answered, onBindings, List.map_cons, List.map_nil, dtype, span, counts,
      lasts]

/-- Launches that differ in the shapes of their outputs have the same dispatches, save that a gated
activation needs the same last dimension. -/
theorem plan_of_reshapes {l k : Launch} (same : l.Reshapes k)
    (gated : l.param = .activation .swiglu → l.widths = k.widths) : l.plan = k.plan := by
  have tiled : l.firstTiled? = k.firstTiled? := by
    rw [← firstTiled?_unshaped l, ← firstTiled?_unshaped k, same.unshaped]
  have empty : l.outputs.all (·.bytes = 0) = k.outputs.all (·.bytes = 0) := by
    rw [← empty_unshaped l, ← empty_unshaped k, same.unshaped]
  have param : l.param = k.param := by
    rw [← param_unshaped l, same.unshaped, param_unshaped]
  have family : l.planFamily = k.planFamily := by
    by_cases gate : l.param = .activation .swiglu
    · simp only [planFamily, ← param, gate]
      exact plan_gated same (gated gate)
    · rw [← planFamily_unshaped gate, same.unshaped, planFamily_unshaped (param ▸ gate)]
  simp only [plan, tiled, empty, family, missing, param]

end Launch

end OperatorGraph
