import OperatorGraph.Runner.Binding
import OperatorGraph.Graph.Patch
import OperatorGraph.Runner.Setup

set_option autoImplicit false

namespace OperatorGraph

structure NodeTopology where
  name : String
  inputs : List TensorId
  outputs : List TensorId
  views : List (Option View)
  hook : Option Hook

structure Topology where
  name : String
  inputs : List String
  outputs : List String
  internals : List String
  nodes : List NodeTopology

namespace Node

def topology (n : Node) : NodeTopology :=
  ⟨n.name, n.inputs, n.outputs, n.views, n.hook⟩

/-- The node before any setup has resolved it. -/
def unresolved (n : Node) : Node :=
  { n with effective := n.declared, resolvedInputs := [] }

end Node

namespace NodeTopology

/-- A node of the topology that nothing has resolved yet. -/
def node (t : NodeTopology) (declared : Operator) : Node :=
  ⟨t.name, declared, t.inputs, t.outputs, t.views, t.hook, declared, []⟩

end NodeTopology

namespace Graph

def topology (g : Graph) : Topology where
  name := g.name
  inputs := g.inputs.map Slot.name
  outputs := g.outputs.map Slot.name
  internals := g.internals.map Slot.name
  nodes := g.nodes.map Node.topology

/-- The declared parameters of all nodes. -/
def declared (g : Graph) : List Operator :=
  g.nodes.map Node.declared

/-- Changes every node. -/
def mapNodes (g : Graph) (change : Node → Node) : Graph :=
  { g with nodes := g.nodes.map change }

/-- The graph with its slots as they are, before any setup has resolved a node. -/
def unresolved (g : Graph) : Graph :=
  g.mapNodes Node.unresolved

/-- The graph with nothing bound and nothing resolved. -/
def blank (g : Graph) : Graph :=
  g.clear.unresolved

end Graph

namespace Topology

/-- The graph as it is built, with nothing bound and nothing resolved. -/
def graph (t : Topology) (declared : List Operator) : Graph where
  name := t.name
  inputs := t.inputs.map Slot.empty
  outputs := t.outputs.map Slot.empty
  internals := t.internals.map Slot.empty
  nodes := List.zipWith NodeTopology.node t.nodes declared

end Topology

namespace Graph

theorem blank_eq (g : Graph) : g.blank = g.topology.graph g.declared := by
  have slots (table : List Slot) :
      table.map (fun slot => Slot.empty slot.name) = (table.map Slot.name).map Slot.empty := by
    simp
  have nodes : g.nodes.map Node.unresolved =
      List.zipWith NodeTopology.node (g.nodes.map Node.topology) (g.nodes.map Node.declared) := by
    simp only [List.zipWith_map, List.zipWith_self]
    rfl
  simp only [blank, clear, unresolved, mapNodes, topology, declared, Topology.graph, slots, nodes]

@[simp] theorem topology_blank (g : Graph) : g.blank.topology = g.topology := by
  simp only [blank, topology, unresolved, mapNodes, clear, List.map_map]
  rfl

@[simp] theorem declared_blank (g : Graph) : g.blank.declared = g.declared := by
  simp only [blank, declared, unresolved, mapNodes, clear, List.map_map]
  rfl

/-- A blank graph shows its topology and its declared parameters, and nothing else. -/
theorem blank_eq_iff {g h : Graph} :
    g.blank = h.blank ↔ g.topology = h.topology ∧ g.declared = h.declared := by
  constructor
  · intro same
    have topology := congrArg Graph.topology same
    have declared := congrArg Graph.declared same
    simp only [topology_blank, declared_blank] at topology declared
    exact ⟨topology, declared⟩
  · rintro ⟨topology, declared⟩
    rw [blank_eq, blank_eq, topology, declared]

theorem map_modify_of_keeps {α β : Type} (table : List α) (index : Nat) (change : α → α)
    (field : α → β) (keeps : ∀ entry, field (change entry) = field entry) :
    (table.modify index change).map field = table.map field := by
  apply List.ext_getElem?
  intro i
  simp only [List.getElem?_map, List.getElem?_modify]
  split <;> cases table[i]? <;> simp [keeps]

/-- A field of a table, where it is changed as the entry is. -/
theorem map_modify_of_commutes {α β : Type} (table : List α) (index : Nat) {change : α → α}
    {field : α → β} {change' : β → β}
    (commutes : ∀ entry, field (change entry) = change' (field entry)) :
    (table.modify index change).map field = (table.map field).modify index change' := by
  apply List.ext_getElem?
  intro i
  simp only [List.getElem?_map, List.getElem?_modify]
  by_cases here : index = i
  · cases table[i]? <;> simp [here, commutes]
  · cases table[i]? <;> simp [here]

theorem blank_modifySlot (g : Graph) (id : TensorId) (change : Slot → Slot)
    (keeps : ∀ slot, (change slot).name = slot.name) :
    (g.modifySlot id change).blank = g.blank := by
  have emptied (table : List Slot) (index : Nat) :=
    map_modify_of_keeps table index change (fun slot => Slot.empty slot.name)
      fun slot => congrArg Slot.empty (keeps slot)
  cases id <;> simp only [modifySlot, blank, clear, emptied]

@[simp] theorem blank_fill (g : Graph) (id : TensorId) (tensor : Tensor) :
    (g.fill id tensor).blank = g.blank :=
  g.blank_modifySlot id _ fun _ => rfl

@[simp] theorem blank_clear (g : Graph) : g.clear.blank = g.blank := by
  simp only [blank, clear, List.map_map]
  rfl

@[simp] theorem blank_settle (g : Graph) (position : Nat) (r : Resolution) :
    (g.settle position r).blank = g.blank := by
  have kept := map_modify_of_keeps g.nodes position
    (fun n => { n with effective := r.param, resolvedInputs := r.inputs }) Node.unresolved
    fun _ => rfl
  simp only [blank, clear, settle, unresolved, mapNodes, kept]

@[simp] theorem topology_modifyDeclared (g : Graph) (position : Nat)
    (change : Operator → Operator) :
    (g.modifyDeclared position change).topology = g.topology := by
  have kept := map_modify_of_keeps g.nodes position
    (fun n => { n with declared := change n.declared }) Node.topology fun _ => rfl
  simp only [topology, modifyDeclared, kept]

@[simp] theorem declared_modifyDeclared (g : Graph) (position : Nat)
    (change : Operator → Operator) :
    (g.modifyDeclared position change).declared = g.declared.modify position change :=
  map_modify_of_commutes g.nodes position fun _ => rfl

end Graph

end OperatorGraph
