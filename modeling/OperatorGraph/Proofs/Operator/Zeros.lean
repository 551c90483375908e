import OperatorGraph.Graph.Hook

set_option autoImplicit false

namespace OperatorGraph

namespace Scalar

/-- The scalar with the sign of a zero dropped. -/
def foldZero (x : Scalar) : Scalar :=
  if x.isZero then ⟨0⟩ else x

@[simp] theorem foldZero_foldZero (x : Scalar) : x.foldZero.foldZero = x.foldZero := by
  by_cases zero : x.isZero
  · simp only [foldZero, zero, if_true]
    rfl
  · simp only [foldZero, zero, Bool.false_eq_true, if_false]

theorem foldZero_of_equals {x y : Scalar} (same : x.equals y) : x.foldZero = y.foldZero := by
  simp only [equals, Bool.and_eq_true, Bool.or_eq_true, decide_eq_true_eq] at same
  rcases same.2 with bits | zeros
  · rw [show x = y from congrArg Scalar.mk bits]
  · simp only [foldZero, zeros.1, zeros.2, if_true]

end Scalar

namespace Operator

/-- The operator with the sign of every zero dropped. -/
def foldZeros : Operator → Operator
  | elementwise (.scale factor) => elementwise (.scale factor.foldZero)
  | layerNorm p => layerNorm { p with epsilon := p.epsilon.foldZero }
  | rmsNorm epsilon => rmsNorm epsilon.foldZero
  | selfAttention p => selfAttention { p with qkScale := p.qkScale.foldZero }
  | op => op

section

variable (op : Operator)

@[simp] theorem family_foldZeros : op.foldZeros.family = op.family := by
  cases op with
  | elementwise kind => cases kind <;> rfl
  | _ => rfl

@[simp] theorem name_foldZeros : op.foldZeros.name = op.name := by
  rw [name, family_foldZeros, name]

@[simp] theorem foldZeros_foldZeros : op.foldZeros.foldZeros = op.foldZeros := by
  cases op with
  | elementwise kind => cases kind <;> simp only [foldZeros, Scalar.foldZero_foldZero]
  | _ => simp only [foldZeros, Scalar.foldZero_foldZero]

theorem inputCount_foldZeros : op.foldZeros.inputCount = op.inputCount := by
  cases op with
  | elementwise kind => cases kind <;> rfl
  | _ => rfl

theorem acceptedFormats_foldZeros (index : Nat) :
    op.foldZeros.acceptedFormats index = op.acceptedFormats index := by
  cases op with
  | elementwise kind => cases kind <;> rfl
  | _ => rfl

theorem formatObjection?_foldZeros (index : Nat) (inputs : List TensorDesc) :
    op.foldZeros.formatObjection? index inputs = op.formatObjection? index inputs := by
  induction inputs generalizing index with
  | nil => rfl
  | cons x rest ih => simp only [formatObjection?, acceptedFormats_foldZeros, ih]

theorem inferFamily_foldZeros (inputs : List TensorDesc) :
    op.foldZeros.inferFamily inputs = op.inferFamily inputs := by
  cases op with
  | elementwise kind =>
    cases kind with
    | scale factor =>
      -- The rule looks at the number of inputs before it would look at the factor.
      rcases inputs with _ | ⟨x, _ | ⟨y, _ | ⟨z, rest⟩⟩⟩ <;> rfl
    | _ => rfl
  | _ => rfl

@[simp] theorem infer_foldZeros (inputs : List TensorDesc) :
    op.foldZeros.infer inputs = op.infer inputs := by
  simp only [infer, inputCount_foldZeros, formatObjection?_foldZeros, inferFamily_foldZeros]

@[simp] theorem scratchBytes_foldZeros (inputs : List TensorDesc) :
    op.foldZeros.scratchBytes inputs = op.scratchBytes inputs := by
  cases op with
  | elementwise kind => cases kind <;> rfl
  | _ => rfl

theorem foldZeros_withEpsilon (epsilon : Scalar) :
    (withEpsilon epsilon op).foldZeros = withEpsilon epsilon.foldZero op.foldZeros := by
  cases op with
  | elementwise kind => cases kind <;> rfl
  | _ => rfl

theorem foldZeros_withBatch (tokenOffset seqLen : List Int) :
    (withBatch tokenOffset seqLen op).foldZeros = withBatch tokenOffset seqLen op.foldZeros := by
  cases op with
  | elementwise kind => cases kind <;> rfl
  | _ => rfl

end

end Operator

namespace HookState

def foldZeros (s : HookState) : HookState :=
  { s with param := s.param.foldZeros }

end HookState

namespace Hook

/-- The hook does the same to parameters that differ in the sign of zeros, up to that sign. -/
def FoldsZeros (hook : Hook) : Prop :=
  ∀ context s, hook context s.foldZeros = ((hook context s).1.foldZeros, (hook context s).2)

theorem rewriting_foldsZeros {change : HookContext → HookState → Except ShapeError Operator}
    (same : ∀ context s, change context s.foldZeros =
      (change context s).map Operator.foldZeros) : (rewriting change).FoldsZeros := by
  intro context s
  simp only [rewriting, same]
  cases change context s <;> rfl

theorem matMulExtents_foldsZeros : matMulExtents.FoldsZeros := by
  apply rewriting_foldsZeros
  intro context s
  obtain ⟨inputs, param⟩ := s
  rcases inputs with _ | ⟨a, _ | ⟨b, rest⟩⟩
  · rfl
  · rfl
  · cases param with
    | matMul p =>
      simp only [HookState.foldZeros, HookState.input, List.getElem?_cons_zero,
        List.getElem?_cons_succ, Operator.foldZeros, bind, Except.bind]
      cases p.extentsFor? a.shape b.shape <;> rfl
    | elementwise kind => cases kind <;> rfl
    | _ => rfl

theorem layerNormAxis_foldsZeros (dims : Nat) : (layerNormAxis dims).FoldsZeros := by
  apply rewriting_foldsZeros
  intro context s
  obtain ⟨inputs, param⟩ := s
  cases inputs with
  | nil => rfl
  | cons x rest =>
    simp only [HookState.foldZeros, HookState.input, List.getElem?_cons_zero, bind, Except.bind]
    by_cases refused : dims = 0 ∨ x.shape.rank < dims
    · simp only [refused, if_true]
      rfl
    · simp only [refused, if_false]
      cases param with
      | elementwise kind => cases kind <;> rfl
      | _ => rfl

end Hook

end OperatorGraph
