import OperatorGraph.Graph
import OperatorGraph.Text.Blank

set_option autoImplicit false

namespace OperatorGraph

/-- The size of an internal tensor, and the positions of the node that produces it and of the last
node that touches it. -/
structure Lifetime where
  bytes : Nat
  produced : Nat
  lastUsed : Nat
  deriving DecidableEq, Repr

/-- Some node position lies in both live ranges. -/
def Lifetime.Meets (s t : Lifetime) : Prop :=
  s.produced ≤ t.lastUsed ∧ t.produced ≤ s.lastUsed

instance (s t : Lifetime) : Decidable (s.Meets t) :=
  inferInstanceAs (Decidable (_ ∧ _))

namespace Graph

/-- The last position of a node with a property, zero if there is none. -/
def lastPosition (g : Graph) (holds : Node → Bool) : Nat :=
  g.nodes.zipIdx.foldl (fun last (n, position) => if holds n then position else last) 0

/-- The live range of each internal tensor, given their sizes. -/
def lifetimes (g : Graph) (bytes : List Nat) : List Lifetime :=
  bytes.zipIdx.map fun (size, index) =>
    { bytes := size
      produced := g.lastPosition fun n => .internal index ∈ n.outputs
      lastUsed := g.lastPosition fun n => .internal index ∈ n.inputs ++ n.outputs }

end Graph

inductive Strategy where
  /-- Tensors follow one another in slot order. -/
  | linear
  /-- Tensors whose live ranges do not meet may share bytes. -/
  | reuse
  deriving DecidableEq, Repr

namespace Strategy

def render : Strategy → String
  | linear => "linear"
  | reuse => "reuse"

/-- Reads a strategy in any letter case. -/
def ofText? (text : String) : Option Strategy :=
  let lowered := Text.lowerAscii text
  if lowered = "linear" then some linear
  else if lowered = "reuse" then some reuse
  else none

def unknownMessage (text : String) : String :=
  "unknown workspace strategy `" ++ Text.lowerAscii text ++ "`"

end Strategy

/-- Rounds up to a multiple of a power of two, on 64-bit words. For any other alignment the bits of
`align - 1` are cleared all the same. -/
def alignUp (n align : Nat) : Nat :=
  let a := align.toUInt64
  ((n.toUInt64 + a - 1) &&& ~~~(a - 1)).toNat

namespace Workspace

/-- Offsets of tensors that follow one another, from a cursor on. -/
def linearFrom (align cursor : Nat) : List Lifetime → List Nat
  | [] => []
  | t :: rest =>
    let start := alignUp cursor align
    start :: linearFrom align (Bounded.word (start + t.bytes)) rest

/-- A tensor of the plan with its slot index and its offset. -/
structure Placement where
  index : Nat
  lifetime : Lifetime
  offset : Nat
  deriving DecidableEq, Repr

def Placement.range (p : Placement) : Nat × Nat :=
  (p.offset, Bounded.word (p.offset + p.lifetime.bytes))

/-- Order of placement: by producing node, and large tensors before small ones. -/
def precedes (s t : Lifetime × Nat) : Bool :=
  s.1.produced < t.1.produced || (s.1.produced = t.1.produced && t.1.bytes ≤ s.1.bytes)

def rangeLe (r s : Nat × Nat) : Bool :=
  r.1 < s.1 || (r.1 = s.1 && r.2 ≤ s.2)

/-- The lowest offset, from a candidate on, at which so many bytes fit before or between ranges
that are taken, given in ascending order. -/
def firstFit (align bytes candidate : Nat) : List (Nat × Nat) → Nat
  | [] => candidate
  | (start, stop) :: rest =>
    if Bounded.word (candidate + bytes) ≤ start then candidate
    else firstFit align bytes (max candidate (alignUp stop align)) rest

/-- Places a tensor clear of the placed ones whose live ranges meet its own. -/
def place (align : Nat) (placed : List Placement) (t : Lifetime × Nat) : List Placement :=
  let taken := (placed.filter fun p => p.lifetime.Meets t.1).map Placement.range
  let offset := firstFit align t.1.bytes 0 (taken.mergeSort rangeLe)
  placed ++ [⟨t.2, t.1, offset⟩]

def reusePlacements (align : Nat) (tensors : List Lifetime) : List Placement :=
  (tensors.zipIdx.mergeSort precedes).foldl (place align) []

/-- Offsets in slot order. -/
def slotOffsets (count : Nat) (placements : List Placement) : List Nat :=
  (List.range count).map fun index =>
    ((placements.find? (·.index = index)).map Placement.offset).getD 0

def reuseOffsets (align : Nat) (tensors : List Lifetime) : List Nat :=
  slotOffsets tensors.length (reusePlacements align tensors)

end Workspace

/-- A byte offset for every internal tensor. The scratch of all nodes shares one region behind
them. -/
structure WorkspacePlan where
  offsets : List Nat
  scratchOffset : Nat
  scratchBytes : Nat
  totalBytes : Nat
  deriving DecidableEq, Repr

namespace WorkspacePlan

def empty : WorkspacePlan :=
  ⟨[], 0, 0, 0⟩

def offsetsFor : Strategy → Nat → List Lifetime → List Nat
  | .linear, align, tensors => Workspace.linearFrom align 0 tensors
  | .reuse, align, tensors => Workspace.reuseOffsets align tensors

/-- The end of the tensor that reaches furthest. -/
def tensorEnd (offsets : List Nat) (tensors : List Lifetime) : Nat :=
  (List.zipWith (fun offset t => Bounded.word (offset + t.bytes)) offsets tensors).max?.getD 0

def build (tensors : List Lifetime) (scratchBytes align : Nat) (strategy : Strategy) :
    WorkspacePlan :=
  let offsets := offsetsFor strategy align tensors
  let scratchOffset := alignUp (tensorEnd offsets tensors) align
  { offsets
    scratchOffset
    scratchBytes
    totalBytes :=
      if 0 < scratchBytes then alignUp (Bounded.word (scratchOffset + scratchBytes)) align
      else scratchOffset }

end WorkspacePlan

end OperatorGraph
