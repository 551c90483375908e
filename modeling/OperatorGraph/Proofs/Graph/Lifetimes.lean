import Mathlib.Data.List.Induction
import OperatorGraph.Proofs.Graph.WellFormed
import OperatorGraph.Workspace

set_option autoImplicit false

namespace OperatorGraph.Graph

theorem lastPosition_append (g : Graph) (before : List Node) (last : Node) (holds : Node → Bool) :
    { g with nodes := before ++ [last] }.lastPosition holds =
      if holds last then before.length else { g with nodes := before }.lastPosition holds := by
  simp only [lastPosition, List.zipIdx_append, List.foldl_append, List.zipIdx_singleton,
    List.foldl_cons, List.foldl_nil, Nat.zero_add]

/-- The last position of a node with a property is that of such a node, and no such node comes
after it. -/
theorem lastPosition_spec (g : Graph) (holds : Node → Bool) {position : Nat} {n : Node}
    (found : g.nodes[position]? = some n) (property : holds n) :
    position ≤ g.lastPosition holds ∧ ∃ m, g.nodes[g.lastPosition holds]? = some m ∧ holds m := by
  obtain ⟨name, inputs, outputs, internals, nodes⟩ := g
  induction nodes using List.reverseRecOn generalizing position n with
  | nil => simp at found
  | append_singleton before m ih =>
    have step := lastPosition_append ⟨name, inputs, outputs, internals, before⟩ before m holds
    simp only at step found ⊢
    by_cases atEnd : holds m
    · rw [if_pos atEnd] at step
      rw [step]
      have inside := (List.getElem?_eq_some_iff.mp found).1
      simp only [List.length_append, List.length_singleton] at inside
      exact ⟨by omega, m, by simp, atEnd⟩
    · rw [if_neg atEnd] at step
      rw [step]
      have earlier : position < before.length := by
        by_contra late
        have inside := (List.getElem?_eq_some_iff.mp found).1
        simp only [List.length_append, List.length_singleton] at inside
        obtain rfl : position = before.length := by omega
        obtain rfl : m = n := by simpa using found
        exact atEnd property
      rw [List.getElem?_append_left earlier] at found
      obtain ⟨bound, k, atLast, holdsAtLast⟩ := ih property found
      refine ⟨bound, k, ?_, holdsAtLast⟩
      rwa [List.getElem?_append_left (List.getElem?_eq_some_iff.mp atLast).1]

/-- A node reads or writes a tensor. -/
def Touches (g : Graph) (position : Nat) (id : TensorId) : Prop :=
  ∃ n, g.nodes[position]? = some n ∧ id ∈ n.inputs ++ n.outputs

theorem touches_of_produces {g : Graph} {position : Nat} {id : TensorId}
    (writes : g.topology.Produces position id) : g.Touches position id := by
  obtain ⟨n, found, written⟩ := produces_iff.mp writes
  exact ⟨n, found, List.mem_append_right _ written⟩

theorem Touches.lt_length {g : Graph} {position : Nat} {id : TensorId}
    (touched : g.Touches position id) : position < g.nodes.length := by
  obtain ⟨n, found, -⟩ := touched
  exact (List.getElem?_eq_some_iff.mp found).1

theorem getElem?_lifetimes (g : Graph) (bytes : List Nat) (index : Nat) :
    (g.lifetimes bytes)[index]? = bytes[index]?.map fun size =>
      { bytes := size
        produced := g.lastPosition fun n => .internal index ∈ n.outputs
        lastUsed := g.lastPosition fun n => .internal index ∈ n.inputs ++ n.outputs } := by
  simp only [lifetimes, List.getElem?_map, List.getElem?_zipIdx, Option.map_map, Nat.zero_add]
  rfl

section

variable {g : Graph} {bytes : List Nat} {index : Nat} {t : Lifetime}
  (found : (g.lifetimes bytes)[index]? = some t)
include found

theorem bytes_lifetimes : bytes[index]? = some t.bytes := by
  rw [getElem?_lifetimes] at found
  obtain ⟨size, inside, rfl⟩ := Option.map_eq_some_iff.mp found
  exact inside

theorem produced_lifetimes (formed : g.topology.WellFormed) {position : Nat}
    (writes : g.topology.Produces position (.internal index)) : t.produced = position := by
  rw [getElem?_lifetimes] at found
  obtain ⟨size, -, rfl⟩ := Option.map_eq_some_iff.mp found
  obtain ⟨m, inside, written⟩ := produces_iff.mp writes
  obtain ⟨-, k, atLast, alsoWrites⟩ := g.lastPosition_spec
    (fun n => .internal index ∈ n.outputs) inside (decide_eq_true written)
  exact formed.producer_unique (produces_of_writes atLast (of_decide_eq_true alsoWrites))
    (produces_of_writes inside written)

/-- A live range ends at a node that touches the tensor, and no such node comes after it. -/
theorem lastUsed_lifetimes {position : Nat} (touched : g.Touches position (.internal index)) :
    position ≤ t.lastUsed ∧ g.Touches t.lastUsed (.internal index) := by
  rw [getElem?_lifetimes] at found
  obtain ⟨size, -, rfl⟩ := Option.map_eq_some_iff.mp found
  obtain ⟨n, inside, member⟩ := touched
  obtain ⟨bound, m, atLast, alsoTouches⟩ := g.lastPosition_spec
    (fun n => .internal index ∈ n.inputs ++ n.outputs) inside (decide_eq_true member)
  exact ⟨bound, m, atLast, of_decide_eq_true alsoTouches⟩

theorem le_lastUsed_lifetimes {position : Nat} (touched : g.Touches position (.internal index)) :
    position ≤ t.lastUsed :=
  (lastUsed_lifetimes found touched).1

end

end OperatorGraph.Graph
