import OperatorGraph.Graph.Hook
import OperatorGraph.Proofs.Inference.Checks

set_option autoImplicit false

namespace OperatorGraph

namespace HookState

@[simp] theorem input_eq_ok {s : HookState} {index : Nat} {x : TensorDesc} :
    s.input index = .ok x ↔ s.inputs[index]? = some x := by
  unfold input
  cases s.inputs[index]? <;> simp

@[simp] theorem wrongFamily_ne_ok {α : Type} {s : HookState} {expected : Family} {a : α} :
    s.wrongFamily expected = .ok a ↔ False := by
  simp [wrongFamily]

end HookState

namespace Hook

variable {context : HookContext} {s after : HookState}

theorem rewriting_eq_ok {change : HookContext → HookState → Except ShapeError Operator} :
    rewriting change context s = (after, .ok ()) ↔
      ∃ param, change context s = .ok param ∧ after = { s with param } := by
  simp only [rewriting]
  cases change context s with
  | error refusal => simp
  | ok param => simp [eq_comm]

/-- Normalizing over trailing dimensions needs as many, and a layer normalization. -/
theorem layerNormAxis_eq_ok {dims : Nat} :
    layerNormAxis dims context s = (after, .ok ()) ↔ ∃ x p, s.inputs[0]? = some x ∧
      s.param = .layerNorm p ∧ 0 < dims ∧ dims ≤ x.shape.rank ∧
      let axis : Int := (x.shape.rank - dims : Nat)
      after = { s with param := .layerNorm { p with normAxis := axis, paramsAxis := axis } } := by
  simp only [layerNormAxis, rewriting_eq_ok, Answer.bind_eq_ok, HookState.input_eq_ok]
  constructor
  · rintro ⟨param, ⟨x, first, changed⟩, rfl⟩
    split at changed
    · simp at changed
    · rename_i enough
      split at changed
      · rename_i p present
        obtain rfl := Answer.pure_eq_ok.mp changed
        exact ⟨x, p, first, present, by omega, by omega, rfl⟩
      · simp at changed
  · rintro ⟨x, p, first, present, some, enough, rfl⟩
    refine ⟨_, ⟨x, first, ?_⟩, rfl⟩
    rw [if_neg (by omega), present]
    rfl

/-- The extents of a product follow from two matrices. -/
theorem matMulExtents_eq_ok : matMulExtents context s = (after, .ok ()) ↔ ∃ a b p extents,
      s.inputs[0]? = some a ∧ s.inputs[1]? = some b ∧ s.param = .matMul p ∧
      p.extentsFor? a.shape b.shape = some extents ∧
      after = { s with param := .matMul { p with extents := some extents } } := by
  simp only [matMulExtents, rewriting_eq_ok, Answer.bind_eq_ok, HookState.input_eq_ok]
  constructor
  · rintro ⟨param, ⟨a, first, b, second, changed⟩, rfl⟩
    split at changed
    · rename_i p present
      split at changed
      · rename_i extents found
        obtain rfl := Answer.pure_eq_ok.mp changed
        exact ⟨a, b, p, extents, first, second, present, found, rfl⟩
      · simp at changed
    · simp at changed
  · rintro ⟨a, b, p, extents, first, second, present, found, rfl⟩
    refine ⟨_, ⟨a, first, b, second, ?_⟩, rfl⟩
    simp only [present, found]
    rfl

/-- A hook that succeeds leaves a parameter of the family that it found. -/
def KeepsFamily (hook : Hook) : Prop :=
  ∀ context s after, hook context s = (after, .ok ()) → after.param.family = s.param.family

theorem layerNormAxis_keepsFamily (dims : Nat) : (layerNormAxis dims).KeepsFamily := by
  intro context s after success
  obtain ⟨x, p, -, present, -, -, rfl⟩ := layerNormAxis_eq_ok.mp success
  rw [present]
  rfl

theorem matMulExtents_keepsFamily : matMulExtents.KeepsFamily := by
  intro context s after success
  obtain ⟨a, b, p, extents, -, -, present, -, rfl⟩ := matMulExtents_eq_ok.mp success
  rw [present]
  rfl

end Hook

end OperatorGraph
