import OperatorGraph.Proofs.Shader.Threads
import OperatorGraph.Proofs.Shape.Coordinates

set_option autoImplicit false

namespace OperatorGraph.Shader

open RowMajor

/-- A position that follows strides from where it starts. -/
structure Walker where
  name : String
  start : Nat
  strides : List Nat

/-- What is left to add once the last axes of a coordinate are known. -/
def Walker.reached (w : Walker) (coords : List Nat) (axis : Nat) : Nat :=
  w.start + along (coords.drop axis) (w.strides.drop axis)

theorem Walker.reached_step {w : Walker} {coords : List Nat} {axis coord stride : Nat}
    (atCoord : coords[axis]? = some coord) (atStride : w.strides[axis]? = some stride) :
    w.reached coords axis = w.reached coords (axis + 1) + coord * stride := by
  rw [Walker.reached, Walker.reached, along_drop atCoord atStride]
  omega

/-- Two walkers along the coordinates of a shape. Its extents stand behind `head` launch parameters,
and both lists of strides behind the extents. -/
structure Walk where
  head : Nat
  extents : List Nat
  first : Walker
  second : Walker

namespace Walk

/-- One round: the coordinate along an axis, and the steps that it takes. -/
def round (w : Walk) : List Stmt :=
  let rank : Expr := .var "rank"
  let axis : Expr := .var "axis"
  let coord : Expr := .var "coord"
  let rem : Expr := .var "rem"
  let head : Expr := .word w.head
  [.bind "axis" (rank - 1 - .var "i"),
    .bind "coord" (rem % .infoAt (head + axis)),
    .assign "rem" (rem / .infoAt (head + axis)),
    .addTo w.first.name (coord * .infoAt (head + rank + axis)),
    .addTo w.second.name (coord * .infoAt (head + 2 * rank + axis))]

/-- Launch parameters from which the rounds can look up the walk. -/
structure Informs (w : Walk) (info : List UInt32) : Prop where
  extent : ∀ axis < w.extents.length, ∃ dim, w.extents[axis]? = some dim ∧ dim < 2 ^ 32 ∧
    info[w.head + axis]? = some (UInt32.ofNat dim)
  first : ∀ axis < w.extents.length, ∃ stride, w.first.strides[axis]? = some stride ∧
    info[w.head + w.extents.length + axis]? = some (UInt32.ofNat stride)
  second : ∀ axis < w.extents.length, ∃ stride, w.second.strides[axis]? = some stride ∧
    info[w.head + 2 * w.extents.length + axis]? = some (UInt32.ofNat stride)
  /-- Positions of launch parameters are words. -/
  short : w.head + 3 * w.extents.length ≤ 2 ^ 32

/-- Launch parameters that list the walk behind their front. -/
theorem informs_append {w : Walk} {front : List UInt32} (head : front.length = w.head)
    (firsts : w.first.strides.length = w.extents.length)
    (seconds : w.second.strides.length = w.extents.length) (small : ∀ dim ∈ w.extents, dim < 2 ^ 32)
    (short : w.head + 3 * w.extents.length ≤ 2 ^ 32) :
    w.Informs (front ++ w.extents.map UInt32.ofNat ++ w.first.strides.map UInt32.ofNat ++
      w.second.strides.map UInt32.ofNat) := by
  have listed {values : List Nat} {i : Nat} (inside : i < values.length) :
      (values.map UInt32.ofNat)[i]? = some (UInt32.ofNat values[i]) := by
    rw [List.getElem?_map, List.getElem?_eq_getElem inside, Option.map_some]
  refine ⟨fun axis below => ?_, fun axis below => ?_, fun axis below => ?_, short⟩
  · refine ⟨_, List.getElem?_eq_getElem below, small _ (List.getElem_mem below), ?_⟩
    rw [List.append_assoc, List.append_assoc, List.getElem?_append_right (by omega),
      List.getElem?_append_left (by simp; omega), head, Nat.add_sub_cancel_left, listed below]
  · have inside : axis < w.first.strides.length := by omega
    refine ⟨_, List.getElem?_eq_getElem inside, ?_⟩
    have place : w.head + w.extents.length + axis - (w.head + w.extents.length) = axis := by omega
    rw [List.append_assoc, List.getElem?_append_right (by simp; omega),
      List.getElem?_append_left (by simp; omega), List.length_append, List.length_map, head, place,
      listed inside]
  · have inside : axis < w.second.strides.length := by omega
    refine ⟨_, List.getElem?_eq_getElem inside, ?_⟩
    have place : w.head + 2 * w.extents.length + axis -
        (w.head + w.extents.length + w.extents.length) = axis := by omega
    rw [List.getElem?_append_right (by simp; omega), List.length_append, List.length_append,
      List.length_map, List.length_map, head, firsts, place, listed inside]

/-- The walkers have names of their own. -/
def Named (w : Walk) : Prop :=
  [w.first.name, w.second.name, "rank", "rem", "i", "axis", "coord"].Nodup

variable {F : Type}

/-- A thread that has decoded the last axes of its number. -/
structure Decoded (w : Walk) (n axes : Nat) (u : Thread F) : Prop where
  rem : u.vars "rem" =
    some (.word (UInt32.ofNat (n / (w.extents.drop (w.extents.length - axes)).prod)))
  first : u.vars w.first.name = some (.word (UInt32.ofNat
    (w.first.reached (coordinate w.extents n) (w.extents.length - axes))))
  second : u.vars w.second.name = some (.word (UInt32.ofNat
    (w.second.reached (coordinate w.extents n) (w.extents.length - axes))))
  silent : u.accesses = []

section

variable {w : Walk} {k : Context F} (named : w.Named) (informs : w.Informs k.info) {n : Nat}
  (below : n < w.extents.prod) (first : n < 2 ^ 32)
include named informs below first

/-- A round decodes one more axis. -/
theorem round_ends {axes : Nat} (more : axes < w.extents.length) {u : Thread F}
    (rank : u.vars "rank" = some (.word (UInt32.ofNat w.extents.length)))
    (decoded : w.Decoded n axes u) :
    Stmt.Ends k w.round .next (u.set "i" (.word (UInt32.ofNat axes)))
      (w.Decoded n (axes + 1)) := by
  have short := informs.short
  simp only [Named, List.nodup_cons, List.mem_cons, List.not_mem_nil, or_false, not_or] at named
  obtain ⟨⟨apart, firstRank, firstRem, firstI, firstAxis, firstCoord⟩, ⟨-, secondRem, secondI,
    secondAxis, secondCoord⟩, -⟩ := named
  obtain ⟨axis, same⟩ : ∃ axis, w.extents.length - axes = axis + 1 :=
    ⟨w.extents.length - axes - 1, by omega⟩
  have next : w.extents.length - (axes + 1) = axis := by omega
  have here : w.extents.length - 1 - axes = axis := by omega
  obtain ⟨dim, atDim, smallDim, dimWord⟩ := informs.extent axis (by omega)
  obtain ⟨stride, atFirst, firstWord⟩ := informs.first axis (by omega)
  obtain ⟨stride', atSecond, secondWord⟩ := informs.second axis (by omega)
  have positive := positive_of_lt_prod below atDim
  have atCoord := getElem?_coordinate n atDim
  have firstStep := Walker.reached_step atCoord atFirst
  have secondStep := Walker.reached_step atCoord atSecond
  have divided : n / (w.extents.drop axis).prod = n / (w.extents.drop (axis + 1)).prod / dim := by
    obtain ⟨inside, rfl⟩ := List.getElem?_eq_some_iff.mp atDim
    rw [List.drop_eq_getElem_cons inside, List.prod_cons, Nat.mul_comm, Nat.div_div_eq_div_mul]
  have smallRem : n / (w.extents.drop (axis + 1)).prod < 2 ^ 32 :=
    Nat.lt_of_le_of_lt (Nat.div_le_self _ _) first
  obtain ⟨remWord, firstReached, secondReached, silent⟩ := decoded
  rw [same] at remWord firstReached secondReached
  -- What the rounds before have made of the thread number and of both positions.
  generalize n / (w.extents.drop (axis + 1)).prod = rem at *
  generalize w.first.reached (coordinate w.extents n) (axis + 1) = start at firstStep firstReached
  generalize w.second.reached (coordinate w.extents n) (axis + 1) = start'
    at secondStep secondReached
  refine .bindWord axis (here ▸ .sub (.sub (.var (n := w.extents.length) (by simp [rank])) (.word 1)
    (by omega)) (.var (n := axes) (by simp)) (by omega)) ?_
  refine .bindWord (rem % dim) (.mod (.var (n := rem) (by simp [remWord]))
    (.infoAt (.add (.word w.head) (.var (n := axis) (by simp))) (by omega) dimWord)
    smallRem smallDim positive) ?_
  refine .assignWord (rem / dim) (.div (.var (n := rem) (by simp [remWord]))
    (.infoAt (.add (.word w.head) (.var (n := axis) (by simp))) (by omega) dimWord)
    smallRem smallDim positive) ?_
  refine .addWord start (rem % dim * stride)
    (.mul (.var (by simp)) (.infoAt (.add (.add (.word w.head)
      (.var (n := w.extents.length) (by simp [rank]))) (.var (n := axis) (by simp))) (by omega)
      firstWord)) (by simp [firstReached, firstRem, firstI, firstAxis, firstCoord]) ?_
  refine .addWord start' (rem % dim * stride')
    (.mul (.var (by simp [Ne.symm firstCoord])) (.infoAt (.add (.add (.word w.head) (.mul (.word 2)
      (.var (n := w.extents.length) (by simp [rank, Ne.symm firstRank]))))
      (.var (n := axis) (by simp [Ne.symm firstAxis]))) (by omega) secondWord))
    (by simp [secondReached, Ne.symm apart, secondRem, secondI, secondAxis, secondCoord]) ?_
  refine .nil ⟨?_, ?_, ?_, silent⟩
  · rw [next, divided]
    simp [Ne.symm firstRem, Ne.symm secondRem]
  · rw [next, firstStep]
    simp [apart]
  · rw [next, secondStep]
    simp

/-- The rounds decode all axes. -/
theorem rounds_end {s : Thread F} (rank : s.vars "rank" = some (.word (UInt32.ofNat w.extents.length)))
    (rem : s.vars "rem" = some (.word (UInt32.ofNat n)))
    (atFirst : s.vars w.first.name = some (.word (UInt32.ofNat w.first.start)))
    (atSecond : s.vars w.second.name = some (.word (UInt32.ofNat w.second.start)))
    (silent : s.accesses = []) {body : List Stmt} {flow : Flow} {post : Thread F → Prop}
    (rest : ∀ u : Thread F, s.Keeps ("i" :: Stmt.assignedAll w.round) [] u → u.accesses = [] →
      u.vars w.first.name = some (.word (UInt32.ofNat
        (w.first.start + along (coordinate w.extents n) w.first.strides))) →
      u.vars w.second.name = some (.word (UInt32.ofNat
        (w.second.start + along (coordinate w.extents n) w.second.strides))) →
      Stmt.Ends k body flow u post) :
    Stmt.Ends k (.count .block "i" 0 (.var "rank") w.round :: body) flow s post := by
  have short := informs.short
  have begins (walker : Walker) : walker.reached (coordinate w.extents n) w.extents.length =
      walker.start := by
    rw [Walker.reached, List.drop_of_length_le (by simp), along_nil, Nat.add_zero]
  refine .count w.extents.length (w.Decoded n) (.var rank) (by omega) ?_ ?_ ?_
  · refine ⟨?_, ?_, ?_, silent⟩
    · simpa using rem
    · rw [Nat.sub_zero, begins, atFirst]
    · rw [Nat.sub_zero, begins, atSecond]
  · intro axes more u decoded between
    refine round_ends named informs below first more ?_ decoded
    have own : "rank" ∉ "i" :: Stmt.assignedAll w.round := by
      simp only [Named, List.nodup_cons, List.mem_cons, List.not_mem_nil, or_false, not_or] at named
      simp [round, Stmt.assignedAll, Stmt.assigned, Ne.symm named.1.2.1, Ne.symm named.2.1.1]
    rw [between.vars "rank" own, rank]
  · intro u decoded between
    have whole : w.extents.length - w.extents.length = 0 := Nat.sub_self _
    have firstReached := decoded.first
    have secondReached := decoded.second
    rw [whole, Walker.reached, List.drop_zero, List.drop_zero] at firstReached secondReached
    exact rest u between decoded.silent firstReached secondReached

end

end Walk

end OperatorGraph.Shader
