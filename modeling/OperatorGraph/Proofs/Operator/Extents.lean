import OperatorGraph.Dispatch.Plan
import OperatorGraph.Proofs.Graph.Hooks
import OperatorGraph.Proofs.Inference.Acceptance

set_option autoImplicit false

namespace OperatorGraph

open Inference

namespace MatMul

/-- The product with the extents that its kernel uses for two operands. -/
def filled (p : MatMul) (a b : Shape) : MatMul :=
  { p with extents := p.planExtents? a b }

theorem filled_of_undeclared {p : MatMul} (undeclared : p.extents = none) (a b : Shape) :
    p.filled a b = { p with extents := p.extentsFor? a b } := by
  rw [filled, planExtents?, undeclared]
  rfl

theorem planExtents?_filled (p : MatMul) (a b : Shape) :
    (p.filled a b).planExtents? a b = p.planExtents? a b := by
  have same : (p.filled a b).extentsFor? a b = p.extentsFor? a b := rfl
  rw [planExtents?, same, filled, planExtents?]
  cases p.extents <;> cases p.extentsFor? a b <;> rfl

/-- Inference compares declared extents with those that it computes, and computed ones agree. -/
theorem infer_filled (p : MatMul) (a b : TensorDesc) (rest : List TensorDesc) :
    (p.filled a.shape b.shape).infer (a :: b :: rest) = p.infer (a :: b :: rest) := by
  have same : (p.filled a.shape b.shape).extentsFor? a.shape b.shape =
      p.extentsFor? a.shape b.shape := rfl
  simp only [infer, same]
  cases computed : p.extentsFor? a.shape b.shape with
  | none => rfl
  | some extents =>
    have declared : (p.filled a.shape b.shape).checkDeclared a.shape b.shape extents =
        p.checkDeclared a.shape b.shape extents := by
      cases given : p.extents <;>
        simp [checkDeclared, filled, planExtents?, given, computed]
    simp only [declared]
    rfl

/-- Extents that were not declared do not disagree. -/
theorem agrees_of_undeclared {p : MatMul} (undeclared : p.extents = none)
    (inputs : List TensorDesc) (declared : Extents) (x y : Shape) :
    p.infer inputs ≠ .error (.invalid (.extentsDisagree declared x y)) := by
  intro failed
  unfold infer at failed
  split at failed
  · rename_i a b rest
    simp only [Answer.bind_eq_error, checkDeclared, undeclared] at failed
    rcases failed with rank | ⟨_, -, rank | ⟨_, -, dtype | ⟨_, -, inner | ⟨inner, -, failed⟩⟩⟩⟩
    · unfold expectRank at rank
      split at rank <;> simp at rank
    · unfold expectRank at rank
      split at rank <;> simp at rank
    · unfold expectDtype at dtype
      split at dtype <;> simp at dtype
    · unfold dimAt at inner
      split at inner <;> simp at inner
    · split at failed
      · simp [missingInput] at failed
      · split at failed
        · simp at failed
        · simp only [Answer.bind_eq_error, reduceCtorEq, false_or] at failed
          obtain ⟨_, -, bias | ⟨_, -, answered⟩⟩ := failed
          · unfold checkBias at bias
            split at bias
            · split at bias
              · split at bias <;> simp [objection] at bias
              · simp [missingInput] at bias
            · simp at bias
          · simp [pure, Except.pure] at answered
  · simp [missingInput] at failed

end MatMul

namespace Operator

/-- The operator with the extents of its product filled in, if it is one of two operands. -/
def withExtents : Operator → List TensorDesc → Operator
  | matMul p, a :: b :: _ => matMul (p.filled a.shape b.shape)
  | op, _ => op

theorem acceptedFormats_product (p q : MatMul) (index : Nat) :
    (matMul p).acceptedFormats index = (matMul q).acceptedFormats index := by
  match index with
  | 0 | 1 | _ + 2 => rfl

theorem formatObjection?_congr {op other : Operator}
    (same : ∀ index, op.acceptedFormats index = other.acceptedFormats index) (index : Nat)
    (inputs : List TensorDesc) :
    op.formatObjection? index inputs = other.formatObjection? index inputs := by
  induction inputs generalizing index with
  | nil => rfl
  | cons x rest ih => simp only [formatObjection?, same, ih]

theorem formatObjection?_ne_invalid (op : Operator) (o : Objection) (index : Nat)
    (inputs : List TensorDesc) : op.formatObjection? index inputs ≠ some (.invalid o) := by
  induction inputs generalizing index with
  | nil => simp [formatObjection?]
  | cons x rest ih =>
    rw [formatObjection?]
    split
    · exact ih (index + 1)
    · simp

section

variable (op : Operator) (inputs : List TensorDesc)

@[simp] theorem family_withExtents : (op.withExtents inputs).family = op.family := by
  unfold withExtents
  split <;> rfl

@[simp] theorem infer_withExtents : (op.withExtents inputs).infer inputs = op.infer inputs := by
  unfold withExtents
  split
  · rename_i p a b rest
    have formats := formatObjection?_congr (acceptedFormats_product (p.filled a.shape b.shape) p)
    simp only [infer, formats, inferFamily, MatMul.infer_filled]
    rfl
  · rfl

@[simp] theorem scratchBytes_withExtents :
    (op.withExtents inputs).scratchBytes inputs = op.scratchBytes inputs := by
  unfold withExtents
  split <;> rfl

end

end Operator

/-- Kernels are planned alike, whether or not the extents were filled in before. -/
theorem Launch.plan_withExtents (launch : Launch) :
    { launch with param := launch.param.withExtents (launch.inputs.map Binding.desc) }.plan =
      launch.plan := by
  obtain ⟨node, param, inputs, outputs, scratch⟩ := launch
  cases param with
  | matMul p =>
    rcases inputs with _ | ⟨a, _ | ⟨b, rest⟩⟩
    · rfl
    · rfl
    · have same := p.planExtents?_filled a.desc.shape b.desc.shape
      simp only [Operator.withExtents, List.map_cons, plan, planFamily, MatMul.plan, Dispatch.item,
        List.getElem?_cons_zero, List.getElem?_cons_succ, Bind.bind, Except.bind, same]
      rfl
  | _ => rfl

namespace Hook

/-- On a product without extents the hook fills in what the kernel would use. -/
theorem matMulExtents_of_undeclared {p : MatMul} (undeclared : p.extents = none)
    {context : HookContext} {inputs : List TensorDesc} {after : HookState} :
    matMulExtents context ⟨inputs, .matMul p⟩ = (after, .ok ()) ↔
      (∃ a b rest, inputs = a :: b :: rest ∧ (p.extentsFor? a.shape b.shape).isSome) ∧
        after = ⟨inputs, (Operator.matMul p).withExtents inputs⟩ := by
  rw [matMulExtents_eq_ok]
  constructor
  · rintro ⟨a, b, _, extents, first, second, ⟨⟩, computed, rfl⟩
    obtain ⟨rest, rfl⟩ : ∃ rest, inputs = a :: b :: rest := by
      rcases inputs with _ | ⟨_, _ | ⟨_, rest⟩⟩
      · simp at first
      · simp at second
      · obtain rfl := Option.some.inj first
        obtain rfl := Option.some.inj second
        exact ⟨rest, rfl⟩
    refine ⟨⟨a, b, rest, rfl, by rw [computed]; rfl⟩, ?_⟩
    rw [Operator.withExtents, MatMul.filled_of_undeclared undeclared, computed]
  · rintro ⟨⟨a, b, rest, rfl, computed⟩, rfl⟩
    obtain ⟨extents, computed⟩ := Option.isSome_iff_exists.mp computed
    refine ⟨a, b, p, extents, rfl, rfl, rfl, computed, ?_⟩
    rw [Operator.withExtents, MatMul.filled_of_undeclared undeclared, computed]

/-- Whatever extents were declared, those that the hook declares in their place agree. -/
theorem agrees_of_matMulExtents {context : HookContext} {s after : HookState}
    (success : matMulExtents context s = (after, .ok ())) (declared : Extents) (x y : Shape) :
    after.param.infer after.inputs ≠ .error (.invalid (.extentsDisagree declared x y)) := by
  obtain ⟨a, b, p, extents, first, second, -, computed, rfl⟩ := matMulExtents_eq_ok.mp success
  -- The hook leaves what it leaves of the product without any extents.
  let bare : MatMul := { p with extents := none }
  have again : matMulExtents context ⟨s.inputs, .matMul bare⟩ = (_, .ok ()) :=
    matMulExtents_eq_ok.mpr ⟨a, b, bare, extents, first, second, rfl, computed, rfl⟩
  have left := ((matMulExtents_of_undeclared rfl).mp again).2
  have param := congrArg HookState.param left
  intro failed
  simp only at param failed
  rw [param, Operator.infer_withExtents, Operator.infer] at failed
  split at failed
  · simp at failed
  · split at failed
    · rename_i refusal found
      rw [Except.error.inj failed] at found
      exact Operator.formatObjection?_ne_invalid _ _ 0 s.inputs found
    · exact MatMul.agrees_of_undeclared rfl s.inputs declared x y failed

end Hook

end OperatorGraph
