import Mathlib.Order.Bounds.Defs
import OperatorGraph.Proofs.Workspace.Peaks

set_option autoImplicit false

namespace OperatorGraph

namespace Lifetime

/-- The range of a tensor that no node has touched yet. -/
def untouched (bytes : Nat) : Lifetime :=
  ⟨bytes, 0, 0⟩

/-- The range once the node at a position reads the tensor. -/
def read (position : Nat) (t : Lifetime) : Lifetime :=
  { t with lastUsed := max t.lastUsed position }

/-- The range once the node at a position produces the tensor. -/
def written (position : Nat) (t : Lifetime) : Lifetime :=
  { t.read position with produced := position }

/-- Brings the range of a tensor up to date, if it has an entry in the table. -/
def touch (change : Lifetime → Lifetime) (table : List Lifetime) : TensorId → List Lifetime
  | .internal index => table.modify index change
  | _ => table

/-- The table once a node at its position has run: its outputs come first, then its inputs. -/
def widen (table : List Lifetime) : Node × Nat → List Lifetime
  | (n, position) => n.inputs.foldl (touch (read position))
      (n.outputs.foldl (touch (written position)) table)

theorem read_read (position : Nat) (t : Lifetime) :
    (t.read position).read position = t.read position := by
  simp only [read, Nat.max_assoc, Nat.max_self]

theorem written_written (position : Nat) (t : Lifetime) :
    (t.written position).written position = t.written position := by
  simp only [written, read, Nat.max_assoc, Nat.max_self]

theorem getElem?_touch (change : Lifetime → Lifetime) (table : List Lifetime) (id : TensorId)
    (index : Nat) : (touch change table id)[index]? =
      table[index]?.map fun t => if .internal index = id then change t else t := by
  cases id with
  | internal touched =>
    simp only [touch, List.getElem?_modify, TensorId.internal.injEq, eq_comm (a := index)]
    split <;> simp
  | input | output => simp [touch]

/-- A change that is not seen twice is made to the tensors that a list of references names, however
often it names them. -/
theorem getElem?_foldl_touch {change : Lifetime → Lifetime}
    (twice : ∀ t, change (change t) = change t) (ids : List TensorId) (table : List Lifetime)
    (index : Nat) : (ids.foldl (touch change) table)[index]? =
      table[index]?.map fun t => if .internal index ∈ ids then change t else t := by
  induction ids generalizing table with
  | nil => simp
  | cons id rest ih =>
    rw [List.foldl_cons, ih, getElem?_touch, Option.map_map]
    congr 1
    funext t
    by_cases here : TensorId.internal index = id
    · simp [here, twice]
    · simp [here]

/-- A node starts the ranges of the tensors it produces, and moves the ends of those it touches. -/
theorem getElem?_widen (table : List Lifetime) (n : Node) (position index : Nat) :
    (widen table (n, position))[index]? = table[index]?.map fun t =>
      { bytes := t.bytes
        produced := if .internal index ∈ n.outputs then position else t.produced
        lastUsed := if .internal index ∈ n.inputs ++ n.outputs then max t.lastUsed position
          else t.lastUsed } := by
  rw [widen, getElem?_foldl_touch (read_read position),
    getElem?_foldl_touch (written_written position), Option.map_map]
  congr 1
  funext t
  by_cases produces : TensorId.internal index ∈ n.outputs <;>
    by_cases reads : TensorId.internal index ∈ n.inputs <;>
      simp [produces, reads, read, written]

end Lifetime

namespace Graph

/-- The live ranges that one pass over the nodes comes to. -/
def widened (g : Graph) (sizes : List Nat) : List Lifetime :=
  g.nodes.zipIdx.foldl Lifetime.widen (sizes.map Lifetime.untouched)

theorem lastPosition_le (g : Graph) (holds : Node → Bool) :
    g.lastPosition holds ≤ g.nodes.length := by
  obtain ⟨name, inputs, outputs, internals, nodes⟩ := g
  induction nodes using List.reverseRecOn with
  | nil => exact Nat.le_refl 0
  | append_singleton before n ih =>
    rw [lastPosition_append ⟨name, inputs, outputs, internals, before⟩]
    simp only [List.length_append, List.length_singleton] at ih ⊢
    split <;> omega

/-- One more node at the end changes the live ranges as the pass does. -/
theorem lifetimes_append (g : Graph) (before : List Node) (n : Node) (sizes : List Nat) :
    { g with nodes := before ++ [n] }.lifetimes sizes =
      Lifetime.widen ({ g with nodes := before }.lifetimes sizes) (n, before.length) := by
  apply List.ext_getElem?
  intro index
  rw [Lifetime.getElem?_widen, getElem?_lifetimes, getElem?_lifetimes, Option.map_map]
  congr 1
  funext size
  have earlier := { g with nodes := before }.lastPosition_le
    fun n => .internal index ∈ n.inputs ++ n.outputs
  simp only [lastPosition_append, Function.comp_apply, decide_eq_true_eq, Lifetime.mk.injEq,
    true_and]
  rw [Nat.max_eq_right earlier]

/-- The pass comes to the live ranges, whether the graph is valid or not. -/
theorem lifetimes_eq_widened (g : Graph) (sizes : List Nat) :
    g.lifetimes sizes = g.widened sizes := by
  obtain ⟨name, inputs, outputs, internals, nodes⟩ := g
  -- On the nodes that have run: what holds before a node is what the pass hands on to it.
  induction nodes using List.reverseRecOn with
  | nil =>
    apply List.ext_getElem?
    intro index
    rw [getElem?_lifetimes, widened, List.zipIdx_nil, List.foldl_nil, List.getElem?_map]
    rfl
  | append_singleton before n ih =>
    rw [lifetimes_append ⟨name, inputs, outputs, internals, before⟩, ih]
    simp only [widened, List.zipIdx_append, List.foldl_append, List.zipIdx_singleton,
      List.foldl_cons, List.foldl_nil, Nat.zero_add]

/-- A live range runs from the only node that produces an internal tensor to the last node that
touches it. -/
structure UsedOver (g : Graph) (index : Nat) (t : Lifetime) : Prop where
  produced : ∀ position, g.topology.Produces position (.internal index) ↔ position = t.produced
  lastUsed : IsGreatest {position | g.Touches position (.internal index)} t.lastUsed

namespace UsedOver

variable {g : Graph} {i j : Nat} {s t : Lifetime}

theorem touches_produced (used : g.UsedOver i t) : g.Touches t.produced (.internal i) :=
  touches_of_produces ((used.produced t.produced).mpr rfl)

theorem produced_le_lastUsed (used : g.UsedOver i t) : t.produced ≤ t.lastUsed :=
  used.lastUsed.2 used.touches_produced

/-- The later of two producers lies in both ranges, if any node does. -/
theorem meets_iff (first : g.UsedOver i s) (second : g.UsedOver j t) :
    s.Meets t ↔ ∃ position < g.nodes.length, s.LiveAt position ∧ t.LiveAt position := by
  constructor
  · intro meets
    have ordered := first.produced_le_lastUsed
    have ordered' := second.produced_le_lastUsed
    refine ⟨max s.produced t.produced, ?_, ⟨?_, ?_⟩, ?_, ?_⟩
    · exact Nat.max_lt.mpr ⟨first.touches_produced.lt_length, second.touches_produced.lt_length⟩
    · exact Nat.le_max_left _ _
    · exact Nat.max_le.mpr ⟨ordered, meets.2⟩
    · exact Nat.le_max_right _ _
    · exact Nat.max_le.mpr ⟨meets.1, ordered'⟩
  · rintro ⟨position, -, live, live'⟩
    exact Lifetime.meets_of_liveAt live live'

end UsedOver

theorem WellFormed.exists_producer {g : Graph} (formed : g.WellFormed) {index : Nat}
    (inside : index < g.internals.length) :
    ∃ position, g.topology.Produces position (.internal index) :=
  formed.topology.allProduced (.internal index)
    ((slot?_isSome_iff g _).mp (by simpa [slot?] using inside)) rfl

/-- Every entry of the table is the range over which the nodes use its tensor. -/
theorem WellFormed.usedOver {g : Graph} (formed : g.WellFormed) {sizes : List Nat}
    (sized : sizes.length = g.internals.length) {index : Nat} {t : Lifetime}
    (found : (g.lifetimes sizes)[index]? = some t) : g.UsedOver index t := by
  have inside := (List.getElem?_eq_some_iff.mp (bytes_lifetimes found)).1
  obtain ⟨producer, writes⟩ := formed.exists_producer (sized ▸ inside)
  have start : t.produced = producer := produced_lifetimes found formed.topology writes
  refine ⟨fun position => ⟨fun also => ?_, ?_⟩, ?_, fun position touched => ?_⟩
  · exact (produced_lifetimes found formed.topology also).symm
  · rintro rfl
    exact start ▸ writes
  · exact (lastUsed_lifetimes found (touches_of_produces writes)).2
  · exact le_lastUsed_lifetimes found touched

/-- The live ranges of a valid graph are what one pass over the nodes comes to. Each internal tensor
has its own size there and the exact positions of its producer and of the last node that touches it,
and two ranges meet exactly where a node of the graph lies in both. -/
theorem lifetimes_exact {g : Graph} (valid : g.validate = .ok ()) {sizes : List Nat}
    (sized : sizes.length = g.internals.length) :
    g.lifetimes sizes = g.widened sizes ∧ (g.lifetimes sizes).map Lifetime.bytes = sizes ∧
      (∀ index t, (g.lifetimes sizes)[index]? = some t →
        g.UsedOver index t ∧ t.produced ≤ t.lastUsed) ∧
      ∀ (i j : Nat) (s t : Lifetime), (g.lifetimes sizes)[i]? = some s →
        (g.lifetimes sizes)[j]? = some t →
        (s.Meets t ↔ ∃ position < g.nodes.length, s.LiveAt position ∧ t.LiveAt position) := by
  have formed : g.WellFormed := check_eq_ok_iff_wellFormed.mp (Answer.mapError_eq_ok.mp valid)
  refine ⟨g.lifetimes_eq_widened sizes, g.map_bytes_lifetimes sizes, ?_, ?_⟩
  · intro index t found
    have used := formed.usedOver sized found
    exact ⟨used, used.produced_le_lastUsed⟩
  · intro i j s t first second
    exact (formed.usedOver sized first).meets_iff (formed.usedOver sized second)

/-- Four nodes in a row, of which the second reads one tensor twice and the last two share one. -/
def rereading : Graph :=
  Graph.new "rereading" ["x"] ["y"] ["a", "b", "c"] [
    Node.new "first" (.activation .relu) [.input 0] [.internal 0],
    Node.new "second" (.elementwise .add) [.internal 0, .internal 0] [.internal 1],
    Node.new "third" (.activation .gelu) [.internal 1] [.internal 2],
    Node.new "fourth" (.elementwise .add) [.internal 2, .internal 1] [.output 0]]

/-- The first tensor is dead when the third is produced, and no node lies in both ranges. -/
theorem rereading_lifetimes_exact :
    let a : Lifetime := ⟨64, 0, 1⟩
    let b : Lifetime := ⟨96, 1, 3⟩
    let c : Lifetime := ⟨32, 2, 3⟩
    rereading.validate = .ok () ∧ [64, 96, 32].length = rereading.internals.length ∧
      rereading.lifetimes [64, 96, 32] = [a, b, c] ∧ rereading.UsedOver 0 a ∧
      rereading.UsedOver 1 b ∧ rereading.UsedOver 2 c ∧
      (∃ position < 4, b.LiveAt position ∧ c.LiveAt position) ∧
      ¬ ∃ position < 4, a.LiveAt position ∧ c.LiveAt position := by
  intro a b c
  have valid : rereading.validate = .ok () := rfl
  have sized : [64, 96, 32].length = rereading.internals.length := rfl
  obtain ⟨-, -, used, meets⟩ := lifetimes_exact valid sized
  refine ⟨valid, sized, rfl, (used 0 a rfl).1, (used 1 b rfl).1, (used 2 c rfl).1, ?_, ?_⟩
  · exact (meets 1 2 b c rfl rfl).mp (by decide)
  · exact fun shared => absurd ((meets 0 2 a c rfl rfl).mpr shared) (by decide)

end Graph

end OperatorGraph
