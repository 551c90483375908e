import OperatorGraph.Proofs.Dispatch.Attending

set_option autoImplicit false

namespace OperatorGraph.SelfAttention

open Shader

namespace View

/-- The accesses that a view lists. -/
inductive Makes (v : View) : Access → Prop where
  | query {j e : Nat} (seen : j < v.visible) (inside : e < v.headDim) :
      Makes v (.read (.tensor 1) (v.query + e))
  | key {j e : Nat} (seen : j < v.visible) (inside : e < v.headDim) :
      Makes v (.read (.tensor 2) (v.keyRow j + e))
  | score {j : Nat} (seen : j < v.visible) : Makes v (.write 5 (v.slots + j))
  | slot {j : Nat} (seen : j < v.visible) : Makes v (.read (.tensor 5) (v.slots + j))
  | value {j e : Nat} (seen : j < v.visible) (inside : e < v.headDim) :
      Makes v (.read (.tensor 3) (v.keyRow j + e))
  | output {e : Nat} (inside : e < v.headDim) : Makes v (.write 4 (v.query + e))

theorem mem_accesses {v : View} {access : Access} : access ∈ v.accesses ↔ v.Makes access := by
  simp only [accesses, scoreAccesses, weighAccesses, mixAccesses, List.mem_append, List.mem_flatMap,
    List.mem_range, List.mem_cons, List.not_mem_nil, or_false]
  constructor
  · rintro ((⟨j, seen, ⟨e, inside, rfl | rfl⟩ | rfl⟩ | ⟨j, seen, rfl | rfl⟩) |
      ⟨e, inside, ⟨j, seen, rfl | rfl⟩ | rfl⟩)
    · exact .query seen inside
    · exact .key seen inside
    · exact .score seen
    · exact .slot seen
    · exact .score seen
    · exact .slot seen
    · exact .value seen inside
    · exact .output inside
  · rintro (⟨seen, inside⟩ | ⟨seen, inside⟩ | seen | seen | ⟨seen, inside⟩ | inside)
    · exact .inl (.inl ⟨_, seen, .inl ⟨_, inside, .inl rfl⟩⟩)
    · exact .inl (.inl ⟨_, seen, .inl ⟨_, inside, .inr rfl⟩⟩)
    · exact .inl (.inl ⟨_, seen, .inr rfl⟩)
    · exact .inl (.inr ⟨_, seen, .inl rfl⟩)
    · exact .inr ⟨_, inside, .inl ⟨_, seen, .inr rfl⟩⟩
    · exact .inr ⟨_, inside, .inr rfl⟩

variable {v : View} {k : Nat}

theorem read_query (seen : 0 < v.visible) : .read (.tensor 1) k ∈ v.accesses ↔
    ∃ e < v.headDim, k = v.query + e := by
  rw [mem_accesses]
  constructor
  · intro made
    cases made with
    | query _ inside => exact ⟨_, inside, rfl⟩
  · rintro ⟨e, inside, rfl⟩
    exact .query seen inside

theorem read_key : .read (.tensor 2) k ∈ v.accesses ↔
    ∃ j < v.visible, ∃ e < v.headDim, k = v.keyRow j + e := by
  rw [mem_accesses]
  constructor
  · intro made
    cases made with
    | key seen inside => exact ⟨_, seen, _, inside, rfl⟩
  · rintro ⟨j, seen, e, inside, rfl⟩
    exact .key seen inside

theorem read_value : .read (.tensor 3) k ∈ v.accesses ↔
    ∃ j < v.visible, ∃ e < v.headDim, k = v.keyRow j + e := by
  rw [mem_accesses]
  constructor
  · intro made
    cases made with
    | value seen inside => exact ⟨_, seen, _, inside, rfl⟩
  · rintro ⟨j, seen, e, inside, rfl⟩
    exact .value seen inside

theorem write_output : .write 4 k ∈ v.accesses ↔ ∃ e < v.headDim, k = v.query + e := by
  rw [mem_accesses]
  constructor
  · intro made
    cases made with
    | output inside => exact ⟨_, inside, rfl⟩
  · rintro ⟨e, inside, rfl⟩
    exact .output inside

theorem touch_slot (touched : .read (.tensor 5) k ∈ v.accesses ∨ .write 5 k ∈ v.accesses) :
    ∃ j < v.visible, k = v.slots + j := by
  rw [mem_accesses, mem_accesses] at touched
  rcases touched with read | wrote
  · cases read with
    | slot seen => exact ⟨_, seen, rfl⟩
  · cases wrote with
    | score seen => exact ⟨_, seen, rfl⟩

/-- All accesses are inside the tensors that the view fits. -/
theorem Fits.inside {size : Nat → Nat} (fits : v.Fits size) {binding : Nat}
    (touched : .read (.tensor binding) k ∈ v.accesses ∨ .write binding k ∈ v.accesses) :
    k < size binding := by
  rw [mem_accesses, mem_accesses] at touched
  have query := fits.query.1
  have output := fits.output.1
  have slots := fits.slots.1
  rcases touched with read | wrote
  · cases read with
    | query seen inside => omega
    | key seen inside =>
      have keys := (fits.keys _ seen).1
      omega
    | value seen inside =>
      have values := (fits.values _ seen).1
      omega
    | slot seen => omega
  · cases wrote with
    | score seen => omega
    | output inside => omega

end View

variable {p : SelfAttention} {headDim n b i : Nat}

theorem query_view : (p.view headDim n b i).query = n * headDim := by
  show n / p.headNum.toNat * p.headNum.toNat * headDim + n % p.headNum.toNat * headDim = _
  rw [← Nat.add_mul, Nat.mul_comm (n / _), Nat.div_add_mod]

theorem keyRow_view (j : Nat) : (p.view headDim n b i).keyRow j =
    (((p.rows.take b).sum + j) * p.kvHeadNum.toNat +
      n % p.headNum.toNat / (p.headNum.toNat / p.kvHeadNum.toNat)) * headDim := by
  show ((p.rows.take b).sum + j) * (p.kvHeadNum.toNat * headDim) + _ * headDim = _
  rw [← Nat.mul_assoc, ← Nat.add_mul]
  rfl

namespace BatchOk

variable (ok : p.BatchOk)
include ok

/-- Query heads are grouped evenly over the key heads. -/
theorem heads_eq : p.headNum.toNat = p.kvHeadNum.toNat * (p.headNum.toNat / p.kvHeadNum.toNat) ∧
    0 < p.kvHeadNum.toNat ∧ 0 < p.headNum.toNat / p.kvHeadNum.toNat := by
  have some := ok.heads
  have others := ok.kvHeads
  have fewer : p.kvHeadNum.toNat ≤ p.headNum.toNat :=
    Int.toNat_le_toNat (Int.le_of_dvd some ok.groups)
  have divides : p.kvHeadNum.toNat ∣ p.headNum.toNat := by
    rw [← Int.natCast_dvd_natCast, Int.toNat_of_nonneg (by omega), Int.toNat_of_nonneg (by omega)]
    exact ok.groups
  exact ⟨(Nat.mul_div_cancel' divides).symm, by omega, Nat.div_pos fewer (by omega)⟩

theorem kvHead_lt (n : Nat) : n % p.headNum.toNat / (p.headNum.toNat / p.kvHeadNum.toNat) <
    p.kvHeadNum.toNat := by
  obtain ⟨heads, others, group⟩ := ok.heads_eq
  rw [Nat.div_lt_iff_lt_mul group, ← heads]
  have some := ok.heads
  exact Nat.mod_lt _ (by omega)

/-- The rows that are seen are those of the entry itself. -/
theorem visible_le (headDim : Nat) (owns : p.Owns b i (n / p.headNum.toNat)) :
    (p.rows.take b).sum + (p.view headDim n b i).visible ≤ (p.rows.take (b + 1)).sum ∧
      (p.rows.take (b + 1)).sum ≤ p.rows.sum ∧
      (p.view headDim n b i).visible ≤ p.maxKvLen.toNat := by
  obtain ⟨len, found, inside⟩ := owns.inside
  have entry := (List.getElem?_eq_some_iff.mp found).1
  rw [fresh, List.length_map] at entry
  obtain ⟨prior, new, atPrior, atNew, atRows, -, -⟩ := ok.entry_rows entry
  obtain rfl := Option.some.inj (found.symm.trans atNew)
  have seen : (p.view headDim n b i).visible = prior + i + 1 := by
    show p.cached.getD b 0 + i + 1 = _
    rw [List.getD_eq_getElem?_getD, atPrior, Option.getD_some]
  have longest := ok.le_maxRows (List.mem_of_getElem? atRows)
  have whole := sum_take_mono p.rows (List.getElem?_eq_some_iff.mp atRows).1
  rw [List.take_length] at whole
  rw [seen, sum_take_succ atRows] at *
  exact ⟨by omega, whole, by omega⟩

theorem keyRow_le (owns : p.Owns b i (n / p.headNum.toNat)) {j : Nat}
    (seen : j < (p.view headDim n b i).visible) :
    (p.view headDim n b i).keyRow j + headDim ≤ p.rows.sum * p.kvHeadNum.toNat * headDim := by
  obtain ⟨own, whole, -⟩ := ok.visible_le headDim owns
  have head := ok.kvHead_lt n
  rw [keyRow_view, ← Nat.succ_mul]
  refine Nat.mul_le_mul_right _ ?_
  generalize n % p.headNum.toNat / (p.headNum.toNat / p.kvHeadNum.toNat) = h at head ⊢
  calc ((p.rows.take b).sum + j) * p.kvHeadNum.toNat + h + 1
    _ ≤ ((p.rows.take b).sum + j) * p.kvHeadNum.toNat + p.kvHeadNum.toNat := by omega
    _ = ((p.rows.take b).sum + j + 1) * p.kvHeadNum.toNat := (Nat.succ_mul _ _).symm
    _ ≤ p.rows.sum * p.kvHeadNum.toNat := Nat.mul_le_mul_right _ (by omega)

end BatchOk

/-- Tensors with the elements of the batch, and score rows as wide as the longest key range. -/
structure Sized (p : SelfAttention) (headDim : Nat) (size : Nat → Nat) : Prop where
  query : size 1 = p.fresh.sum * p.headNum.toNat * headDim
  key : size 2 = p.rows.sum * p.kvHeadNum.toNat * headDim
  value : size 3 = p.rows.sum * p.kvHeadNum.toNat * headDim
  output : size 4 = p.fresh.sum * p.headNum.toNat * headDim
  scores : size 5 = p.fresh.sum * p.headNum.toNat * p.maxKvLen.toNat
  small : ∀ binding ∈ [1, 2, 3, 4, 5], size binding < 2 ^ 32

namespace Sized

variable {size : Nat → Nat} (sized : p.Sized headDim size)
  (below : n < p.fresh.sum * p.headNum.toNat)
include sized below

theorem query_le : (p.view headDim n b i).query + headDim ≤ size 1 := by
  rw [query_view, sized.query, ← Nat.succ_mul]
  exact Nat.mul_le_mul_right _ below

theorem slots_le : (p.view headDim n b i).slots + p.maxKvLen.toNat ≤ size 5 := by
  rw [sized.scores]
  show n * p.maxKvLen.toNat + p.maxKvLen.toNat ≤ _
  rw [← Nat.succ_mul]
  exact Nat.mul_le_mul_right _ below

/-- The rows of every thread lie inside their tensors. -/
theorem view_fits (ok : p.BatchOk) (owns : p.Owns b i (n / p.headNum.toNat)) :
    (p.view headDim n b i).Fits size := by
  obtain ⟨-, -, widest⟩ := ok.visible_le headDim owns
  have query := sized.query_le (b := b) (i := i) below
  have slots := sized.slots_le (b := b) (i := i) below
  have queries := sized.small 1 (by decide)
  have keys := sized.small 2 (by decide)
  have values := sized.small 3 (by decide)
  have outputs := sized.small 4 (by decide)
  have scores := sized.small 5 (by decide)
  have same : size 4 = size 1 := sized.output.trans sized.query.symm
  refine ⟨?_, by omega, ⟨query, by omega⟩, fun j seen => ⟨?_, by omega⟩,
    fun j seen => ⟨?_, by omega⟩, ⟨same ▸ query, by omega⟩, by omega, by omega⟩
  · show headDim < 2 ^ 32
    omega
  · rw [sized.key]
    exact ok.keyRow_le owns seen
  · rw [sized.value]
    exact ok.keyRow_le owns seen

end Sized

end OperatorGraph.SelfAttention
