import Mathlib.Data.List.Nodup
import OperatorGraph.Proofs.Dispatch.Addressing
import OperatorGraph.Proofs.Dispatch.Measures

set_option autoImplicit false

namespace OperatorGraph

open Dispatch Shader RowMajor

namespace Rope

/-- The sizes of rotated rows. -/
structure Sizes where
  tokens : Nat
  heads : Nat
  groups : Nat
  chunk : Nat

namespace Sizes

variable (l : Sizes)

def headDim : Nat :=
  l.groups * (2 * l.chunk)

/-- Place `w` of half `v` of group `u`, as an element of its head. -/
def member (u v w : Nat) : Nat :=
  position [l.groups, 2, l.chunk] [u, v, w]

/-- An element of a head, as one of its tensor. -/
def element (t h p : Nat) : Nat :=
  position [l.tokens, l.heads, l.headDim] [t, h, p]

/-- The angle of an element of a head, in the tables. -/
def angle (t p : Nat) : Nat :=
  position [l.tokens, l.headDim] [t, p]

/-- The thread of place `w` in the halves of group `u` of head `h`. -/
def accesses (t h u w : Nat) : List Access :=
  let first := l.member u 0 w
  let second := l.member u 1 w
  [.read (.tensor 1) (l.element t h first), .read (.tensor 1) (l.element t h second),
    .read (.tensor 2) (l.angle t first), .read (.tensor 3) (l.angle t first),
    .write 4 (l.element t h first),
    .read (.tensor 2) (l.angle t second), .read (.tensor 3) (l.angle t second),
    .write 4 (l.element t h second)]

def addressing : Addressing where
  grid := [l.tokens, l.heads, l.groups, l.chunk]
  trace
    | [t, h, u, w] => l.accesses t h u w
    | _ => []

/-- The elements that a thread rotates with each other. -/
def pair (n : Nat) : List Nat :=
  match coordinate l.addressing.grid n with
  | [t, h, u, w] => [l.element t h (l.member u 0 w), l.element t h (l.member u 1 w)]
  | _ => []

theorem inside_grid {l : Sizes} {coords : List Nat} (inside : Inside coords l.addressing.grid) :
    ∃ t h u w, coords = [t, h, u, w] ∧ t < l.tokens ∧ h < l.heads ∧ u < l.groups ∧ w < l.chunk := by
  obtain ⟨t, inTokens, _, row, rfl⟩ := inside_cons.mp inside
  obtain ⟨h, inHeads, _, head, rfl⟩ := inside_cons.mp row
  obtain ⟨u, inGroups, w, inChunk, rfl⟩ := inside_pair.mp head
  exact ⟨t, h, u, w, rfl, inTokens, inHeads, inGroups, inChunk⟩

theorem headDim_eq : l.headDim = 2 * (l.groups * l.chunk) := by
  rw [headDim, Nat.mul_left_comm]

theorem member_eq (u v w : Nat) : l.member u v w = u * (2 * l.chunk) + (v * l.chunk + w) := by
  simp only [member, position_cons, List.prod_cons, List.prod_nil, position_nil, Nat.mul_one,
    Nat.add_zero]

theorem element_eq (t h p : Nat) :
    l.element t h p = t * (l.heads * l.headDim) + (h * l.headDim + p) := by
  simp only [element, position_cons, List.prod_cons, List.prod_nil, position_nil, Nat.mul_one,
    Nat.add_zero]

theorem angle_eq (t p : Nat) : l.angle t p = t * l.headDim + p :=
  position_pair ..

theorem member_one (u w : Nat) : l.member u 1 w = l.member u 0 w + l.chunk := by
  simp only [member_eq]
  omega

section

variable {l : Sizes} {t h u v w p : Nat}

theorem inside_member (inGroups : u < l.groups) (half : v < 2) (inChunk : w < l.chunk) :
    Inside [u, v, w] [l.groups, 2, l.chunk] :=
  .cons inGroups (.cons half (.cons inChunk .nil))

theorem member_lt (inGroups : u < l.groups) (half : v < 2) (inChunk : w < l.chunk) :
    l.member u v w < l.headDim := by
  have below := position_lt (inside_member inGroups half inChunk)
  rwa [List.prod_cons, List.prod_pair] at below

theorem inside_element (inTokens : t < l.tokens) (inHeads : h < l.heads) (inHead : p < l.headDim) :
    Inside [t, h, p] [l.tokens, l.heads, l.headDim] :=
  .cons inTokens (.cons inHeads (.cons inHead .nil))

theorem element_lt (inTokens : t < l.tokens) (inHeads : h < l.heads) (inHead : p < l.headDim) :
    l.element t h p < l.tokens * (l.heads * l.headDim) := by
  have below := position_lt (inside_element inTokens inHeads inHead)
  rwa [List.prod_cons, List.prod_pair] at below

theorem exists_element {k : Nat} (below : k < l.tokens * (l.heads * l.headDim)) :
    ∃ t < l.tokens, ∃ h < l.heads, ∃ p < l.headDim, k = l.element t h p := by
  have whole : k < [l.tokens, l.heads, l.headDim].prod := by rwa [List.prod_cons, List.prod_pair]
  obtain ⟨t, inTokens, _, row, same⟩ := inside_cons.mp (inside_coordinate whole)
  obtain ⟨h, inHeads, p, inHead, rfl⟩ := inside_pair.mp row
  exact ⟨t, inTokens, h, inHeads, p, inHead, by rw [element, ← same, position_coordinate whole]⟩

theorem exists_member (inHead : p < l.headDim) :
    ∃ u < l.groups, ∃ v < 2, ∃ w < l.chunk, p = l.member u v w := by
  have whole : p < [l.groups, 2, l.chunk].prod := by rwa [List.prod_cons, List.prod_pair]
  obtain ⟨u, inGroups, _, group, same⟩ := inside_cons.mp (inside_coordinate whole)
  obtain ⟨v, half, w, inChunk, rfl⟩ := inside_pair.mp group
  exact ⟨u, inGroups, v, half, w, inChunk, by rw [member, ← same, position_coordinate whole]⟩

theorem angle_lt (inTokens : t < l.tokens) (inHead : p < l.headDim) :
    l.angle t p < l.tokens * l.headDim := by
  have inside : Inside [t, p] [l.tokens, l.headDim] := .cons inTokens (.cons inHead .nil)
  have below := position_lt inside
  rwa [List.prod_pair] at below

end

/-- Arrays of the sizes of the rotated rows, of the tables and of the rows again. -/
structure Sized (size : Nat → Nat) : Prop where
  rows : size 1 = l.tokens * (l.heads * l.headDim)
  cosines : size 2 = l.tokens * l.headDim
  sines : size 3 = l.tokens * l.headDim
  rotated : size 4 = l.tokens * (l.heads * l.headDim)
  others : ∀ binding, 4 < binding → size binding = 0

theorem write_accesses {l : Sizes} {t h u w binding k : Nat} :
    .write binding k ∈ l.accesses t h u w ↔
      binding = 4 ∧ ∃ v < 2, k = l.element t h (l.member u v w) := by
  simp only [accesses, List.mem_cons, reduceCtorEq, Access.write.injEq, List.not_mem_nil, or_false,
    false_or]
  constructor
  · rintro (⟨rfl, rfl⟩ | ⟨rfl, rfl⟩)
    · exact ⟨rfl, 0, by decide, rfl⟩
    · exact ⟨rfl, 1, by decide, rfl⟩
  · rintro ⟨rfl, v, half, rfl⟩
    rcases (by omega : v = 0 ∨ v = 1) with rfl | rfl
    · exact .inl ⟨rfl, rfl⟩
    · exact .inr ⟨rfl, rfl⟩

/-- Every element of the rows is in one pair. -/
theorem covers {l : Sizes} {size : Nat → Nat} (sized : l.Sized size) :
    l.addressing.Covers size 3 := by
  refine ⟨fun coords inside access member => ?_, fun coords inside binding k written => ?_,
    fun binding k output below => ?_⟩
  · obtain ⟨t, h, u, w, rfl, inTokens, inHeads, inGroups, inChunk⟩ := inside_grid inside
    have places (v : Nat) (half : v < 2) :=
      element_lt inTokens inHeads (member_lt inGroups half inChunk)
    have angles (v : Nat) (half : v < 2) := angle_lt inTokens (member_lt inGroups half inChunk)
    simp only [addressing, accesses, List.mem_cons, List.not_mem_nil, or_false] at member
    rcases member with rfl | rfl | rfl | rfl | rfl | rfl | rfl | rfl <;>
      simp only [Access.within_read, Access.within_write, sized.rows, sized.cosines, sized.sines,
        sized.rotated, places, angles, Nat.zero_lt_two, Nat.one_lt_two]
  · obtain ⟨t, h, u, w, rfl, -⟩ := inside_grid inside
    rw [(write_accesses.mp written).1]
    decide
  · obtain rfl : binding = 4 := by
      by_contra other
      have none := sized.others binding (by omega)
      omega
    obtain ⟨t, inTokens, h, inHeads, p, inHead, rfl⟩ := exists_element (sized.rotated ▸ below)
    obtain ⟨u, inGroups, v, half, w, inChunk, rfl⟩ := exists_member inHead
    refine ⟨[t, h, u, w], ⟨?_, write_accesses.mpr ⟨rfl, v, half, rfl⟩⟩, ?_⟩
    · exact .cons inTokens (.cons inHeads (.cons inGroups (.cons inChunk .nil)))
    · rintro _ ⟨inside, written⟩
      obtain ⟨t', h', u', w', rfl, inTokens', inHeads', inGroups', inChunk'⟩ := inside_grid inside
      obtain ⟨-, v', half', same⟩ := write_accesses.mp written
      have ofRows := position_injective (inside_element inTokens inHeads inHead)
        (inside_element inTokens' inHeads' (member_lt inGroups' half' inChunk')) same
      simp only [List.cons.injEq, and_true] at ofRows
      obtain ⟨rfl, rfl, ofHead⟩ := ofRows
      have ofGroup := position_injective (inside_member inGroups half inChunk)
        (inside_member inGroups' half' inChunk') ofHead
      simp only [List.cons.injEq, and_true] at ofGroup
      obtain ⟨rfl, -, rfl⟩ := ofGroup
      rfl

/-- The rotation of a pair that has been found. -/
def rotate : List Stmt :=
  let first : Expr := .var "a_pos"
  let second : Expr := .var "b_pos"
  let base : Expr := .var "base"
  let trig : Expr := .var "trig"
  [.bind "a" (.tensor 1 (base + first)),
    .bind "b" (.tensor 1 (base + second)),
    .store (.tensor 4) (base + first)
      (.var "a" * .tensor 2 (trig + first) - .var "b" * .tensor 3 (trig + first)),
    .store (.tensor 4) (base + second)
      (.var "b" * .tensor 2 (trig + second) + .var "a" * .tensor 3 (trig + second))]

/-- Launch parameters from which the body can look up the sizes. -/
structure Informs (info : List UInt32) : Prop where
  heads : info[1]? = some (UInt32.ofNat l.heads)
  headDim : info[2]? = some (UInt32.ofNat l.headDim)
  chunk : info[3]? = some (UInt32.ofNat l.chunk)

theorem position_grid (t h u w : Nat) : position l.addressing.grid [t, h, u, w] =
    t * (l.heads * (l.groups * l.chunk)) + (h * (l.groups * l.chunk) + (u * l.chunk + w)) := by
  simp only [addressing, position_cons, List.prod_cons, List.prod_nil, position_nil, Nat.mul_one,
    Nat.add_zero]

theorem grid_prod :
    l.addressing.grid.prod = l.tokens * (l.heads * (l.groups * l.chunk)) := by
  simp only [addressing, List.prod_cons, List.prod_nil, Nat.mul_one]

section

variable {l : Sizes} {t h u w : Nat} (inTokens : t < l.tokens) (inHeads : h < l.heads)
  (inGroups : u < l.groups) (inChunk : w < l.chunk)
include inTokens inHeads inGroups inChunk

omit inTokens in
/-- What the body divides by, and what comes out. -/
theorem split_thread :
    position l.addressing.grid [t, h, u, w] / (l.heads * (l.groups * l.chunk)) = t ∧
      position l.addressing.grid [t, h, u, w] % (l.heads * (l.groups * l.chunk)) =
        h * (l.groups * l.chunk) + (u * l.chunk + w) ∧
      (h * (l.groups * l.chunk) + (u * l.chunk + w)) / (l.groups * l.chunk) = h ∧
      (h * (l.groups * l.chunk) + (u * l.chunk + w)) % (l.groups * l.chunk) = u * l.chunk + w := by
  have inHalf : u * l.chunk + w < l.groups * l.chunk :=
    calc u * l.chunk + w
      _ < (u + 1) * l.chunk := by rw [Nat.succ_mul]; omega
      _ ≤ l.groups * l.chunk := Nat.mul_le_mul_right _ inGroups
  have inRow : h * (l.groups * l.chunk) + (u * l.chunk + w) < l.heads * (l.groups * l.chunk) :=
    calc h * (l.groups * l.chunk) + (u * l.chunk + w)
      _ < (h + 1) * (l.groups * l.chunk) := by rw [Nat.succ_mul]; omega
      _ ≤ l.heads * (l.groups * l.chunk) := Nat.mul_le_mul_right _ inHeads
  rw [position_grid]
  exact ⟨row_of_position inRow t, col_of_position inRow t, row_of_position inHalf h,
    col_of_position inHalf h⟩

omit inTokens in
theorem divisors_pos :
    0 < l.chunk ∧ 0 < l.groups * l.chunk ∧ 0 < l.heads * (l.groups * l.chunk) := by
  have chunk : 0 < l.chunk := Nat.zero_lt_of_lt inChunk
  have half : 0 < l.groups * l.chunk := Nat.mul_pos (Nat.zero_lt_of_lt inGroups) chunk
  exact ⟨chunk, half, Nat.mul_pos (Nat.zero_lt_of_lt inHeads) half⟩

omit inGroups inChunk in
/-- What the body divides is counted in words, if the rows are. -/
theorem bounds (small : l.tokens * (l.heads * l.headDim) < 2 ^ 32) :
    l.tokens * (l.heads * (l.groups * l.chunk)) < 2 ^ 32 ∧
      l.heads * (l.groups * l.chunk) < 2 ^ 32 ∧ l.groups * l.chunk < 2 ^ 32 ∧
      l.headDim < 2 ^ 32 ∧ l.heads * l.headDim < 2 ^ 32 := by
  have half : l.groups * l.chunk ≤ l.headDim :=
    l.headDim_eq ▸ Nat.le_mul_of_pos_left _ (by decide)
  have heads : l.headDim ≤ l.heads * l.headDim := Nat.le_mul_of_pos_left _ (by omega)
  have rows : l.heads * l.headDim ≤ l.tokens * (l.heads * l.headDim) :=
    Nat.le_mul_of_pos_left _ (by omega)
  have halves := Nat.mul_le_mul_left l.heads half
  have threads := Nat.mul_le_mul_left l.tokens halves
  omega

theorem element_inside {size : Nat → Nat} (sized : l.Sized size)
    (small : l.tokens * (l.heads * l.headDim) < 2 ^ 32) {v : Nat} (half : v < 2) :
    l.element t h (l.member u v w) < 2 ^ 32 ∧ l.element t h (l.member u v w) < size 1 ∧
      l.element t h (l.member u v w) < size 4 := by
  have below := element_lt inTokens inHeads (member_lt inGroups half inChunk)
  rw [sized.rows, sized.rotated]
  exact ⟨below.trans small, below, below⟩

theorem angle_inside {size : Nat → Nat} (sized : l.Sized size)
    (small : l.tokens * (l.heads * l.headDim) < 2 ^ 32) {v : Nat} (half : v < 2) :
    l.angle t (l.member u v w) < 2 ^ 32 ∧ l.angle t (l.member u v w) < size 2 ∧
      l.angle t (l.member u v w) < size 3 := by
  have below := angle_lt inTokens (member_lt inGroups half inChunk)
  have tables : l.tokens * l.headDim ≤ l.tokens * (l.heads * l.headDim) :=
    Nat.mul_le_mul_left _ (Nat.le_mul_of_pos_left _ (by omega))
  rw [sized.cosines, sized.sines]
  exact ⟨below.trans (tables.trans_lt small), below, below⟩

section

variable {F : Type} {c : Context F} {s : Thread F} {name : String} {p : Nat}
  (found : s.vars name = some (.word (UInt32.ofNat p)))
include found

omit inTokens inHeads inGroups inChunk in
theorem element_isWord
    (base : s.vars "base" = some (.word (UInt32.ofNat (t * l.heads * l.headDim + h * l.headDim)))) :
    (Expr.var "base" + .var name).IsWord c s (l.element t h p) :=
  .eq (.add (.var base) (.var found)) (by rw [element_eq, Nat.mul_assoc, Nat.add_assoc])

omit inTokens inHeads inGroups inChunk in
theorem angle_isWord (trig : s.vars "trig" = some (.word (UInt32.ofNat (t * l.headDim)))) :
    (Expr.var "trig" + .var name).IsWord c s (l.angle t p) :=
  .eq (.add (.var trig) (.var found)) (l.angle_eq t p).symm

end

omit inTokens inHeads inGroups in
/-- The first member of the pair, from its place in a half of a head. -/
theorem member_isWord {F : Type} {c : Context F} {s : Thread F} (chunk : l.chunk < 2 ^ 32)
    (small : u * l.chunk + w < 2 ^ 32)
    (place : s.vars "j" = some (.word (UInt32.ofNat (u * l.chunk + w))))
    (width : s.vars "chunk" = some (.word (UInt32.ofNat l.chunk))) :
    (Expr.group (.var "j" / .var "chunk") * 2 * .var "chunk" + .var "j" % .var "chunk").IsWord c s
      (l.member u 0 w) := by
  have positive : 0 < l.chunk := Nat.zero_lt_of_lt inChunk
  have group : (Expr.group (.var "j" / .var "chunk")).IsWord c s u :=
    .group (.eq (.div (.var place) (.var width) small chunk positive) (row_of_position inChunk u))
  have inGroup : (Expr.var "j" % .var "chunk").IsWord c s w :=
    .eq (.mod (.var place) (.var width) small chunk positive) (col_of_position inChunk u)
  refine .eq (.add (.mul (.mul group (.word 2)) (.var width)) inGroup) ?_
  rw [member_eq, Nat.zero_mul, Nat.zero_add, Nat.mul_assoc]

variable {F : Type} {arrays : Arrays F} (sized : l.Sized arrays.size)
  (reals : ∀ binding ∈ [1, 2, 3], ∀ i < arrays.size binding, ∃ x, arrays.cell binding i = .real x)
  (small : l.tokens * (l.heads * l.headDim) < 2 ^ 32)
include sized reals small

/-- A thread that has found its pair rotates it. -/
theorem rotate_ends {c : Context F} {s : Thread F}
    (base : s.vars "base" = some (.word (UInt32.ofNat (t * l.heads * l.headDim + h * l.headDim))))
    (trig : s.vars "trig" = some (.word (UInt32.ofNat (t * l.headDim))))
    (first : s.vars "a_pos" = some (.word (UInt32.ofNat (l.member u 0 w))))
    (second : s.vars "b_pos" = some (.word (UInt32.ofNat (l.member u 1 w))))
    (held : s.arrays = arrays) (silent : s.accesses = []) :
    Stmt.Ends c rotate .next s fun v => v.accesses = l.accesses t h u w := by
  subst held
  obtain ⟨smallFirst, readFirst, writeFirst⟩ :=
    element_inside inTokens inHeads inGroups inChunk sized small (v := 0) (by decide)
  obtain ⟨smallSecond, readSecond, writeSecond⟩ :=
    element_inside inTokens inHeads inGroups inChunk sized small (v := 1) (by decide)
  obtain ⟨smallAngle, cosFirst, sinFirst⟩ :=
    angle_inside inTokens inHeads inGroups inChunk sized small (v := 0) (by decide)
  obtain ⟨smallOther, cosSecond, sinSecond⟩ :=
    angle_inside inTokens inHeads inGroups inChunk sized small (v := 1) (by decide)
  refine .bindReal (.tensor (element_isWord first base) smallFirst readFirst
    (reals 1 (by decide) _ readFirst)) fun x => ?_
  refine .bindReal (.tensor (element_isWord (by simp [second]) (by simp [base])) smallSecond
    readSecond (reals 1 (by decide) _ readSecond)) fun y => ?_
  refine .storeReal (element_isWord (by simp [first]) (by simp [base])) smallFirst writeFirst
    (.sub (.mul (.var ⟨x, by simp⟩) (.tensor (angle_isWord (by simp [first]) (by simp [trig]))
      smallAngle cosFirst (reals 2 (by decide) _ cosFirst))) (.mul (.var ⟨y, by simp⟩)
        (.tensor (angle_isWord (by simp [first]) (by simp [trig])) smallAngle sinFirst
          (reals 3 (by decide) _ sinFirst)))) fun z => ?_
  refine .storeReal (element_isWord (by simp [second]) (by simp [base])) smallSecond writeSecond
    (.add (.mul (.var ⟨y, by simp⟩) (.tensor (angle_isWord (by simp [second]) (by simp [trig]))
      smallOther cosSecond (by simpa [Arrays.cell_store] using reals 2 (by decide) _ cosSecond)))
      (.mul (.var ⟨x, by simp⟩) (.tensor (angle_isWord (by simp [second]) (by simp [trig]))
        smallOther sinSecond (by simpa [Arrays.cell_store] using reals 3 (by decide) _ sinSecond))))
    fun z' => .nil ?_
  simp [silent, accesses]

variable {k : Kernel} {info : List UInt32} (informs : l.Informs info) (m : Arithmetic F)
include informs

/-- The thread of a pair rotates it. -/
theorem body_ends : Stmt.Ends (k.context m info) body .next
    (Thread.fresh arrays (position l.addressing.grid [t, h, u, w])) fun v =>
      v.accesses = l.accesses t h u w := by
  obtain ⟨token, rem, head, place⟩ := split_thread inHeads inGroups inChunk
  obtain ⟨threads, smallRows, smallHalf, smallDim, -⟩ := bounds inTokens inHeads small
  have inGrid : Inside [t, h, u, w] l.addressing.grid :=
    .cons inTokens (.cons inHeads (.cons inGroups (.cons inChunk .nil)))
  have thread : position l.addressing.grid [t, h, u, w] < 2 ^ 32 :=
    Nat.lt_trans (grid_prod l ▸ position_lt inGrid) threads
  have halved : l.headDim / 2 = l.groups * l.chunk :=
    l.headDim_eq ▸ Nat.mul_div_cancel_left _ (by decide)
  obtain ⟨chunkPos, halfPos, rowPos⟩ := divisors_pos inHeads inGroups inChunk
  have smallRem : h * (l.groups * l.chunk) + (u * l.chunk + w) < 2 ^ 32 :=
    rem ▸ Nat.lt_of_le_of_lt (Nat.mod_le _ _) thread
  have smallPlace : u * l.chunk + w < 2 ^ 32 := by omega
  have smallChunk : l.chunk < 2 ^ 32 :=
    Nat.lt_of_le_of_lt (Nat.le_mul_of_pos_left _ (Nat.zero_lt_of_lt inGroups)) smallHalf
  generalize position l.addressing.grid [t, h, u, w] = n at *
  refine .bindWord l.heads (.info informs.heads) ?_
  refine .bindWord l.headDim (.info informs.headDim) ?_
  refine .bindWord l.chunk (.info informs.chunk) ?_
  refine .bindWord (l.groups * l.chunk) (.eq (.div (.var (n := l.headDim) (by simp)) (.word 2)
    smallDim (by decide) (by decide)) halved) ?_
  have divisor {s : Thread F} (heads : s.vars "heads" = some (.word (UInt32.ofNat l.heads)))
      (half : s.vars "half" = some (.word (UInt32.ofNat (l.groups * l.chunk)))) :
      (Expr.group (.var "heads" * .var "half")).IsWord (k.context m info) s
        (l.heads * (l.groups * l.chunk)) := .group (.mul (.var heads) (.var half))
  refine .bindWord t (.eq (.div (.var (n := n) (by simp)) (divisor (by simp) (by simp)) thread
    smallRows rowPos) token) ?_
  refine .bindWord (h * (l.groups * l.chunk) + (u * l.chunk + w)) (.eq (.mod
    (.var (n := n) (by simp)) (divisor (by simp) (by simp)) thread smallRows rowPos) rem) ?_
  refine .bindWord (u * l.chunk + w) (.eq (.mod (.var (n := h * (l.groups * l.chunk) + _) (by simp))
    (.var (n := l.groups * l.chunk) (by simp)) smallRem smallHalf halfPos) place) ?_
  refine .bindWord (l.member u 0 w) (member_isWord inChunk smallChunk
    smallPlace (by simp) (by simp)) ?_
  refine .bindWord (l.member u 1 w) (.eq (.add (.var (n := l.member u 0 w) (by simp))
    (.var (n := l.chunk) (by simp))) (l.member_one u w).symm) ?_
  refine .bindWord (t * l.heads * l.headDim + h * l.headDim) (.add (.mul (.mul (.var (by simp))
    (.var (by simp))) (.var (by simp))) (.mul (.group (.eq (.div (.var
      (n := h * (l.groups * l.chunk) + _) (by simp)) (.var (n := l.groups * l.chunk) (by simp))
        smallRem smallHalf halfPos) head)) (.var (by simp)))) ?_
  refine .bindWord (t * l.headDim) (.mul (.var (by simp)) (.var (by simp))) ?_
  exact rotate_ends inTokens inHeads inGroups inChunk sized reals small (by simp) (by simp)
    (by simp) (by simp) rfl rfl

end

/-- The dispatch that a rotation is planned as. -/
def dispatched (kernel : Kernel) (x cos sin out : Binding) : Dispatch :=
  ⟨kernel.withBody body, [l.tokens * (l.heads * (l.groups * l.chunk)), l.heads, l.headDim,
    l.chunk].map UInt32.ofNat, [x, cos, sin, out].map Binding.span⟩

/-- A tensor of the rows, with fewer elements than there are words. -/
structure Fits (x : TensorDesc) : Prop where
  resolved : x.shape.Resolved
  fits : x.overflows = false
  dims : x.shape.dims = [(l.tokens : Int), (l.headDim : Int) * l.heads]
  divided : Bounded.div ((l.headDim : Int) * l.heads) l.headDim = .ok l.heads
  tokens : 0 < l.tokens
  headDim : 0 < l.headDim
  rows : l.tokens * (l.heads * l.headDim) < 2 ^ 32
  tables : l.tokens * l.headDim < 2 ^ 32

theorem dispatch_answers {l : Sizes} {x : Binding} (fits : l.Fits x.desc) (cos sin out : Binding) :
    ∃ kernel, kernel.tensors = List.replicate 4 "f32" ∧
      dispatch l.headDim l.chunk x cos sin out = .ok (l.dispatched kernel x cos sin out) := by
  have half : l.groups * l.chunk ≤ l.headDim :=
    l.headDim_eq ▸ Nat.le_mul_of_pos_left _ (by decide)
  have threads := threads_ok (Int.natCast_pos.mpr fits.headDim) fits.resolved fits.fits fits.dims
  have count : (l.tokens : Int) * l.heads * (l.headDim : Int).tdiv 2 =
      (l.tokens * (l.heads * (l.groups * l.chunk)) : Nat) := by
    have halved : (l.headDim : Int).tdiv 2 = (l.groups * l.chunk : Nat) := by
      rw [headDim_eq, Nat.cast_mul, Nat.cast_ofNat, Int.mul_tdiv_cancel_left _ (by decide)]
    rw [halved, ← Nat.cast_mul, ← Nat.cast_mul, Nat.mul_assoc]
  rw [count] at threads
  have info : words ([l.tokens * (l.heads * (l.groups * l.chunk)), l.heads, l.headDim, l.chunk].map
      Nat.cast) = .ok (l.dispatched .empty x cos sin out).info := by
    refine words_natCast fun n member => ?_
    have rows := fits.rows
    have some := fits.tokens
    have dim := fits.headDim
    have heads : l.heads ≤ l.heads * l.headDim := Nat.le_mul_of_pos_right _ dim
    have whole : l.heads * l.headDim ≤ l.tokens * (l.heads * l.headDim) :=
      Nat.le_mul_of_pos_left _ some
    have dims : l.headDim ≤ l.tokens * l.headDim := Nat.le_mul_of_pos_left _ some
    have chunk : l.chunk ≤ l.groups * l.chunk :=
      Nat.le_mul_of_pos_left _ (Nat.pos_of_mul_pos_right dim)
    have pairs := Nat.mul_le_mul_left l.tokens (Nat.mul_le_mul_left l.heads half)
    have tables := fits.tables
    simp only [List.mem_cons, List.not_mem_nil, or_false] at member
    omega
  obtain ⟨kernel, bound, typed⟩ : ∃ kernel, floatKernel 4 = .ok kernel ∧
    kernel.tensors = List.replicate 4 "f32" := ⟨_, rfl, rfl⟩
  refine ⟨kernel, typed, ?_⟩
  exact Answer.bind_eq_ok.mpr ⟨_, dim_eq_ok.mpr (by rw [fits.dims]; rfl), Answer.bind_eq_ok.mpr
    ⟨_, dim_eq_ok.mpr (by rw [fits.dims]; rfl), Answer.bind_eq_ok.mpr
      ⟨_, exactly_eq_ok.mpr fits.divided, Answer.bind_eq_ok.mpr ⟨_, exactly_eq_ok.mpr threads,
        Answer.bind_eq_ok.mpr ⟨_, info, Answer.bind_eq_ok.mpr ⟨_, bound, rfl⟩⟩⟩⟩⟩⟩

/-- The threads of the dispatch make the accesses of their pairs. -/
theorem dispatched_follows {l : Sizes} {kernel : Kernel} {x cos sin out : Binding}
    (typed : kernel.tensors = List.replicate 4 "f32")
    (sized : l.Sized (Span.elementsAt ([x, cos, sin, out].map Binding.span)))
    (small : l.tokens * (l.heads * l.headDim) < 2 ^ 32) (integers : Nat → Nat → Int32) :
    (l.dispatched kernel x cos sin out).Follows integers 3 l.addressing := by
  have half : l.groups * l.chunk ≤ l.headDim :=
    Nat.mul_le_mul_left _ (Nat.le_mul_of_pos_left _ (by decide))
  have pairs := Nat.mul_le_mul_left l.tokens (Nat.mul_le_mul_left l.heads half)
  refine Dispatch.follows_of_covers body rfl ?_ ?_ (covers sized) ?_
  · rw [grid_prod]
    rfl
  · rw [grid_prod]
    omega
  · intro F m arrays given coords inside
    obtain ⟨t, h, u, w, rfl, inTokens, inHeads, inGroups, inChunk⟩ := inside_grid inside
    have float (binding : Nat) (listed : binding < 4) :
        kernel.tensors[binding]? = some "f32" := by
      rw [typed, List.getElem?_replicate_of_lt listed]
    have reals : ∀ binding ∈ [1, 2, 3], ∀ i < arrays.size binding,
        ∃ x, arrays.cell binding i = .real x := by
      simp only [List.forall_mem_cons, List.not_mem_nil, false_imp_iff, implies_true, and_true]
      exact ⟨given.reals 0 (float 0 (by decide)), given.reals 1 (float 1 (by decide)),
        given.reals 2 (float 2 (by decide))⟩
    exact ⟨.next, body_ends inTokens inHeads inGroups inChunk (given.size ▸ sized) reals small
      ⟨rfl, rfl, rfl⟩ m⟩

/-- A pair is two elements, which its thread writes. -/
theorem pair_below {l : Sizes} {n : Nat} (below : n < l.addressing.grid.prod) :
    (l.pair n).Nodup ∧
      ∀ k, k ∈ l.pair n ↔ .write 4 k ∈ l.addressing.trace (coordinate l.addressing.grid n) := by
  obtain ⟨t, h, u, w, coords, -, -, -, inChunk⟩ := inside_grid (inside_coordinate below)
  have members : l.pair n = [l.element t h (l.member u 0 w), l.element t h (l.member u 1 w)] := by
    rw [pair, coords]
  have trace : l.addressing.trace [t, h, u, w] = l.accesses t h u w := rfl
  rw [members, coords, trace]
  refine ⟨?_, fun k => ?_⟩
  · refine List.pairwise_pair.mpr ?_
    rw [element_eq, element_eq, member_one]
    omega
  · rw [write_accesses, List.mem_pair]
    constructor
    · rintro (rfl | rfl)
      · exact ⟨rfl, 0, by decide, rfl⟩
      · exact ⟨rfl, 1, by decide, rfl⟩
    · rintro ⟨-, v, half, rfl⟩
      rcases (by omega : v = 0 ∨ v = 1) with rfl | rfl
      · exact .inl rfl
      · exact .inr rfl

/-- Pairs have every element of the rows, each of them once. -/
theorem pairs_perm {l : Sizes} {d : Dispatch} {integers : Nat → Nat → Int32}
    (follows : d.Follows integers 3 l.addressing) :
    ((List.range d.threads).flatMap l.pair).Perm (List.range (Span.elementsAt d.tensors 4)) := by
  have written {n : Nat} (below : n < d.threads) := pair_below (follows.threads ▸ below)
  have inside {n k : Nat} (below : n < d.threads) (member : k ∈ l.pair n) :
      k < Span.elementsAt d.tensors 4 :=
    follows.inside n below _ (((written below).2 k).mp member)
  have distinct : ((List.range d.threads).flatMap l.pair).Nodup := by
    refine List.nodup_flatMap.mpr ⟨fun n member => ?_, ?_⟩
    · exact (written (List.mem_range.mp member)).1
    · refine List.nodup_range.pairwise_of_forall_ne fun n atN m atM other => ?_
      refine List.disjoint_left.mpr fun k here there => ?_
      rw [List.mem_range] at atN atM
      obtain ⟨_, -, only⟩ := follows.once 4 k (by decide) (inside atN here)
      have first := only n ⟨atN, ((written atN).2 k).mp here⟩
      have second := only m ⟨atM, ((written atM).2 k).mp there⟩
      exact other (first.trans second.symm)
  rw [List.perm_ext_iff_of_nodup distinct List.nodup_range]
  intro k
  simp only [List.mem_flatMap, List.mem_range]
  constructor
  · rintro ⟨n, below, member⟩
    exact inside below member
  · intro below
    obtain ⟨n, ⟨inThreads, writes⟩, -⟩ := follows.once 4 k (by decide) below
    exact ⟨n, inThreads, ((written inThreads).2 k).mpr writes⟩

end Sizes

end Rope

end OperatorGraph
