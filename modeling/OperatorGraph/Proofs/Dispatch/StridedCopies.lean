import OperatorGraph.Dispatch.Copy
import OperatorGraph.Proofs.Dispatch.Decoding

set_option autoImplicit false

namespace OperatorGraph

open Dispatch Shader RowMajor

namespace StridedCopy

/-- The dimensions to visit, in natural numbers. -/
def extents (c : StridedCopy) : List Nat :=
  c.dims.map Int.toNat

/-- Where the element of a coordinate is read. -/
def reads (c : StridedCopy) (coords : List Nat) : Nat :=
  c.sourceOffset.toNat + along coords (c.sourceStrides.map Int.toNat)

/-- Where the element of a coordinate is written. -/
def writes (c : StridedCopy) (coords : List Nat) : Nat :=
  c.targetOffset.toNat + along coords (c.targetStrides.map Int.toNat)

/-- How the body follows the strides of both tensors. -/
def walk (c : StridedCopy) : Walk where
  head := 4
  extents := c.extents
  first := ⟨"src", c.sourceOffset.toNat, c.sourceStrides.map Int.toNat⟩
  second := ⟨"dst", c.targetOffset.toNat, c.targetStrides.map Int.toNat⟩

theorem named_walk (c : StridedCopy) : c.walk.Named := by
  show ["src", "dst", "rank", "rem", "i", "axis", "coord"].Nodup
  decide

/-- Launch parameters from which the body can look up the copy. -/
structure Informs (c : StridedCopy) (info : List UInt32) : Prop where
  rank : info[1]? = some (UInt32.ofNat c.extents.length)
  source : info[2]? = some (UInt32.ofNat c.sourceOffset.toNat)
  target : info[3]? = some (UInt32.ofNat c.targetOffset.toNat)
  walk : c.walk.Informs info

/-- The launch parameters of a dispatched copy. -/
theorem informs_parameters {c : StridedCopy} (threads : Int)
    (sources : c.sourceStrides.length = c.dims.length)
    (targets : c.targetStrides.length = c.dims.length)
    (small : ∀ dim ∈ c.dims, dim < 0x1_0000_0000) (short : 4 + 3 * c.dims.length ≤ 2 ^ 32) :
    c.Informs ((threads :: c.parameters).map (·.toNat.toUInt32)) := by
  have length : c.extents.length = c.dims.length := List.length_map ..
  have split : (threads :: c.parameters).map (fun value => value.toNat.toUInt32) =
      [threads.toNat.toUInt32, UInt32.ofNat c.dims.length, UInt32.ofNat c.sourceOffset.toNat,
        UInt32.ofNat c.targetOffset.toNat] ++ c.walk.extents.map UInt32.ofNat ++
        c.walk.first.strides.map UInt32.ofNat ++ c.walk.second.strides.map UInt32.ofNat := by
    simp only [parameters, List.map_cons, List.map_append, List.cons_append, List.nil_append, walk,
      extents, List.map_map]
    rfl
  rw [split]
  refine ⟨by rw [length]; rfl, rfl, rfl, Walk.informs_append rfl ?_ ?_ ?_ ?_⟩
  · simpa [walk, length] using sources
  · simpa [walk, length] using targets
  · intro dim member
    obtain ⟨value, listed, rfl⟩ := List.mem_map.mp member
    have most := small value listed
    omega
  · simpa [walk, length] using short

variable {F : Type}

section

variable {c : StridedCopy} {k : Kernel} {info : List UInt32} (informs : c.Informs info)
  (m : Arithmetic F) {n : Nat} (below : n < c.extents.prod) (first : n < 2 ^ 32)
include informs below first

/-- A thread below the element count moves the element that its coordinate names in words, and
accesses no other. -/
theorem body_ends_words {arrays : Arrays F}
    (readsInside : c.reads (coordinate c.extents n) % 2 ^ 32 < arrays.size 1)
    (writesInside : c.writes (coordinate c.extents n) < arrays.size 2)
    (writesSmall : c.writes (coordinate c.extents n) < 2 ^ 32) :
    Stmt.Ends (k.context m info) body .next (Thread.fresh arrays n) fun u =>
      u.arrays = arrays.store 2 (c.writes (coordinate c.extents n))
        (arrays.cell 1 (c.reads (coordinate c.extents n) % 2 ^ 32)) ∧
      u.accesses = [.read (.tensor 1) (c.reads (coordinate c.extents n) % 2 ^ 32),
        .write 2 (c.writes (coordinate c.extents n))] := by
  refine .bindWord _ (.info informs.rank) ?_
  refine .declareWord n (.var (by simp)) ?_
  refine .declareWord _ (.info informs.source) ?_
  refine .declareWord _ (.info informs.target) ?_
  refine Walk.rounds_end c.named_walk informs.walk below first (by simp [walk])
    (by simp) (by simp [walk]) (by simp [walk]) rfl fun u kept silent srcWord dstWord => ?_
  have same : u.arrays = arrays := kept.arrays_eq
  have word : u.vars "src" =
      some (.word (UInt32.ofNat (c.reads (coordinate c.extents n) % 2 ^ 32))) := by
    rw [UInt32.ofNat_mod_size]
    exact srcWord
  rw [← same] at readsInside writesInside
  refine .store (.var dstWord) writesSmall writesInside
    (.tensor (.var word) (Nat.mod_lt _ (by decide)) readsInside) (.nil ⟨?_, ?_⟩)
  · rw [← same]
    rfl
  · rw [Thread.accesses_write, Thread.accesses_after, silent]
    rfl

/-- Of a source with no more elements than there are words, that is the element itself. -/
theorem body_ends {arrays : Arrays F}
    (readsInside : c.reads (coordinate c.extents n) < arrays.size 1)
    (readsSmall : arrays.size 1 ≤ 2 ^ 32)
    (writesInside : c.writes (coordinate c.extents n) < arrays.size 2)
    (writesSmall : arrays.size 2 ≤ 2 ^ 32) :
    Stmt.Ends (k.context m info) body .next (Thread.fresh arrays n) fun u =>
      u.arrays = arrays.store 2 (c.writes (coordinate c.extents n))
        (arrays.cell 1 (c.reads (coordinate c.extents n))) ∧
      u.accesses = [.read (.tensor 1) (c.reads (coordinate c.extents n)),
        .write 2 (c.writes (coordinate c.extents n))] := by
  have exact : c.reads (coordinate c.extents n) % 2 ^ 32 = c.reads (coordinate c.extents n) :=
    Nat.mod_eq_of_lt (Nat.lt_of_lt_of_le readsInside readsSmall)
  have ends := body_ends_words (k := k) informs m below first (exact.symm ▸ readsInside)
    writesInside (Nat.lt_of_lt_of_le writesInside writesSmall)
  rwa [exact] at ends

end

end StridedCopy

end OperatorGraph
