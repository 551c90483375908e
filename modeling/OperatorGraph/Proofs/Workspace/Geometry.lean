import Mathlib.Data.List.Pairwise
import OperatorGraph.Proofs.Workspace.Alignment
import OperatorGraph.Proofs.Workspace.Checked

set_option autoImplicit false

namespace OperatorGraph

/-- Byte ranges, each given by its offset and its size, that do not overlap. -/
def Apart (a bytesA b bytesB : Nat) : Prop :=
  a + bytesA ≤ b ∨ b + bytesB ≤ a

namespace Workspace

/-- Offsets for tensors, such that those whose live ranges meet lie apart. With the linear strategy
all of them do. -/
structure Laid (strategy : Strategy) (align : Nat) (tensors : List Lifetime) (offsets : List Nat) :
    Prop where
  length : offsets.length = tensors.length
  aligned : ∀ offset ∈ offsets, align ∣ offset
  apart : ∀ (i j : Nat) (s t : Lifetime) (a b : Nat), i ≠ j →
    tensors[i]? = some s → tensors[j]? = some t → offsets[i]? = some a → offsets[j]? = some b →
    strategy = .linear ∨ s.Meets t → Apart a s.bytes b t.bytes

section

variable {align : Nat} (power : Config.IsPowerOfTwo align)
include power

theorem positive_of_power : 0 < align :=
  Nat.pos_of_ne_zero power.1

/-- A tensor of a linear layout starts behind the cursor and behind every tensor before it. -/
theorem linearFrom?_spec {tensors : List Lifetime} {cursor : Nat} {offsets : List Nat}
    (checked : linearFrom? align cursor tensors = some offsets) :
    offsets.length = tensors.length ∧ (∀ offset ∈ offsets, align ∣ offset ∧ cursor ≤ offset) ∧
      ∀ (i j : Nat) (s : Lifetime) (a b : Nat), i < j → tensors[i]? = some s →
        offsets[i]? = some a → offsets[j]? = some b → a + s.bytes ≤ b := by
  induction tensors generalizing cursor offsets with
  | nil =>
    simp only [linearFrom?, Option.some.injEq] at checked
    simp [← checked]
  | cons t rest ih =>
    simp only [linearFrom?, Option.bind_eq_bind, Option.bind_eq_some_iff, alignUp?_eq_some,
      sum?_eq_some, Option.pure_def, Option.some.injEq] at checked
    obtain ⟨start, ⟨fits, rfl⟩, stop, ⟨-, rfl⟩, later, checked, rfl⟩ := checked
    obtain ⟨length, behind, ordered⟩ := ih checked
    rw [alignUp_eq power fits] at behind ⊢
    have above := le_nextMultiple cursor (positive_of_power power)
    refine ⟨by simp [length], ?_, ?_⟩
    · intro offset member
      rcases List.mem_cons.mp member with rfl | member
      · exact ⟨dvd_nextMultiple cursor, above⟩
      · obtain ⟨aligned, after⟩ := behind offset member
        exact ⟨aligned, by omega⟩
    · intro i j s a b before atI offsetI offsetJ
      obtain ⟨j, rfl⟩ : ∃ k, j = k + 1 := ⟨j - 1, by omega⟩
      rw [List.getElem?_cons_succ] at offsetJ
      cases i with
      | zero =>
        simp only [List.getElem?_cons_zero, Option.some.injEq] at atI offsetI
        obtain ⟨-, after⟩ := behind b (List.mem_of_getElem? offsetJ)
        rw [← atI, ← offsetI]
        exact after
      | succ i =>
        rw [List.getElem?_cons_succ] at atI offsetI
        exact ordered i j s a b (by omega) atI offsetI offsetJ

theorem laid_linear {tensors : List Lifetime} {offsets : List Nat}
    (checked : linearFrom? align 0 tensors = some offsets) :
    Laid .linear align tensors offsets := by
  obtain ⟨length, behind, ordered⟩ := linearFrom?_spec power checked
  refine ⟨length, fun offset member => (behind offset member).1, ?_⟩
  intro i j s t a b different atI atJ offsetI offsetJ _
  rcases Nat.lt_or_gt_of_ne different with before | after
  · exact .inl (ordered i j s a b before atI offsetI offsetJ)
  · exact .inr (ordered j i t b a after atJ offsetJ offsetI)

/-- A first fit overlaps none of the ranges that are taken. The ranges have to be in order, as the
search stops at the first that starts behind it. -/
theorem firstFit?_spec {bytes : Nat} {taken : List (Nat × Nat)} {candidate offset : Nat}
    (sorted : taken.Pairwise fun r s => r.1 ≤ s.1)
    (checked : firstFit? align bytes candidate taken = some offset) (aligned : align ∣ candidate) :
    align ∣ offset ∧ candidate ≤ offset ∧
      ∀ range ∈ taken, offset + bytes ≤ range.1 ∨ range.2 ≤ offset := by
  induction taken generalizing candidate with
  | nil =>
    simp only [firstFit?, Option.some.injEq] at checked
    simp [← checked, aligned]
  | cons range rest ih =>
    obtain ⟨start, stop⟩ := range
    obtain ⟨later, sorted⟩ := List.pairwise_cons.mp sorted
    simp only [firstFit?, Option.bind_eq_bind, Option.bind_eq_some_iff, sum?_eq_some] at checked
    obtain ⟨_, ⟨-, rfl⟩, checked⟩ := checked
    split at checked
    · rename_i before
      obtain rfl : candidate = offset := by simpa using checked
      refine ⟨aligned, by omega, fun range member => .inl ?_⟩
      rcases List.mem_cons.mp member with rfl | member
      · exact before
      · have behind : start ≤ range.1 := later range member
        omega
    · simp only [Option.bind_eq_some_iff, alignUp?_eq_some] at checked
      obtain ⟨_, ⟨fits, rfl⟩, checked⟩ := checked
      rw [alignUp_eq power fits] at checked
      have above := le_nextMultiple stop (positive_of_power power)
      have next : align ∣ max candidate (nextMultiple stop align) := by
        rcases Nat.le_total candidate (nextMultiple stop align) with le | le
        · rw [Nat.max_eq_right le]
          exact dvd_nextMultiple stop
        · rwa [Nat.max_eq_left le]
      obtain ⟨aligned, beyond, free⟩ := ih sorted checked next
      refine ⟨aligned, by omega, fun range member => ?_⟩
      rcases List.mem_cons.mp member with rfl | member
      · exact .inr (by simp only; omega)
      · exact free range member

/-- Placed tensors: aligned, inside the 64-bit range, and apart where their live ranges meet. -/
structure Settled (align : Nat) (placed : List Placement) : Prop where
  aligned : ∀ p ∈ placed, align ∣ p.offset
  bounded : ∀ p ∈ placed, p.offset + p.lifetime.bytes < 2 ^ 64
  apart : placed.Pairwise fun p q => p.lifetime.Meets q.lifetime →
    Apart p.offset p.lifetime.bytes q.offset q.lifetime.bytes

omit power in
theorem rangeLe_sorted (ranges : List (Nat × Nat)) :
    (ranges.mergeSort rangeLe).Pairwise fun r s => r.1 ≤ s.1 := by
  have trans (r s t : Nat × Nat) (rs : rangeLe r s) (st : rangeLe s t) : rangeLe r t := by
    simp only [rangeLe, Bool.or_eq_true, Bool.and_eq_true, decide_eq_true_eq] at rs st ⊢
    omega
  have total (r s : Nat × Nat) : rangeLe r s || rangeLe s r := by
    simp only [rangeLe, Bool.or_eq_true, Bool.and_eq_true, decide_eq_true_eq]
    omega
  refine (List.pairwise_mergeSort trans total ranges).imp fun {r s} le => ?_
  simp only [rangeLe, Bool.or_eq_true, Bool.and_eq_true, decide_eq_true_eq] at le
  omega

theorem place?_spec {placed after : List Placement} {t : Lifetime × Nat}
    (settled : Settled align placed) (checked : place? align placed t = some after) :
    Settled align after ∧ ∃ offset, after = placed ++ [⟨t.2, t.1, offset⟩] := by
  simp only [place?, Option.bind_eq_bind, Option.bind_eq_some_iff, Option.pure_def,
    Option.some.injEq, sum?_eq_some] at checked
  obtain ⟨offset, fit, _, ⟨bounded, -⟩, rfl⟩ := checked
  obtain ⟨aligned, -, free⟩ := firstFit?_spec power (rangeLe_sorted _) fit (Nat.dvd_zero _)
  refine ⟨⟨?_, ?_, ?_⟩, offset, rfl⟩
  · intro p member
    rcases List.mem_append.mp member with old | new
    · exact settled.aligned p old
    · obtain rfl := List.mem_singleton.mp new
      exact aligned
  · intro p member
    rcases List.mem_append.mp member with old | new
    · exact settled.bounded p old
    · obtain rfl := List.mem_singleton.mp new
      exact bounded
  · refine List.pairwise_append.mpr ⟨settled.apart, List.pairwise_singleton _ _, ?_⟩
    intro p old q new meets
    obtain rfl := List.mem_singleton.mp new
    have taken : p.range ∈ ((placed.filter fun q => q.lifetime.Meets t.1).map
        Placement.range).mergeSort rangeLe := by
      rw [List.mem_mergeSort]
      exact List.mem_map_of_mem (List.mem_filter.mpr ⟨old, decide_eq_true meets⟩)
    have clear := free p.range taken
    rw [Placement.range, Bounded.word_of_lt (settled.bounded p old)] at clear
    exact clear.symm

theorem placeAll?_spec {order : List (Lifetime × Nat)} {placed after : List Placement}
    (settled : Settled align placed) (checked : order.foldlM (place? align) placed = some after) :
    Settled align after ∧ after.map (fun p => (p.lifetime, p.index)) =
      placed.map (fun p => (p.lifetime, p.index)) ++ order := by
  induction order generalizing placed with
  | nil =>
    obtain rfl : placed = after := by simpa using checked
    simp [settled]
  | cons t rest ih =>
    simp only [List.foldlM_cons, Option.bind_eq_bind, Option.bind_eq_some_iff] at checked
    obtain ⟨next, first, later⟩ := checked
    obtain ⟨stillSettled, offset, rfl⟩ := place?_spec power settled first
    obtain ⟨allSettled, order⟩ := ih stillSettled later
    exact ⟨allSettled, by simp [order]⟩

/-- Every tensor is placed once, under its slot index. -/
theorem reusePlacements?_spec {tensors : List Lifetime} {placements : List Placement}
    (checked : reusePlacements? align tensors = some placements) :
    Settled align placements ∧
      (placements.map fun p => (p.lifetime, p.index)).Perm tensors.zipIdx := by
  have start : Settled align [] := ⟨by simp, by simp, List.Pairwise.nil⟩
  obtain ⟨settled, order⟩ := placeAll?_spec power start checked
  refine ⟨settled, ?_⟩
  rw [order]
  exact List.mergeSort_perm _ _

omit power in
/-- The offset of a slot is that of the placement with its index. -/
theorem mem_of_slotOffsets {tensors : List Lifetime} {placements : List Placement}
    (perm : (placements.map fun p => (p.lifetime, p.index)).Perm tensors.zipIdx) {i : Nat}
    {t : Lifetime} {offset : Nat} (found : tensors[i]? = some t)
    (assigned : (slotOffsets tensors.length placements)[i]? = some offset) :
    ⟨i, t, offset⟩ ∈ placements := by
  have placed (p : Placement) (member : p ∈ placements) : tensors[p.index]? = some p.lifetime := by
    rw [← List.mk_mem_zipIdx_iff_getElem?]
    exact perm.mem_iff.mp (List.mem_map_of_mem member)
  have inside : i < tensors.length := (List.getElem?_eq_some_iff.mp found).1
  simp only [slotOffsets, List.getElem?_map, List.getElem?_range inside, Option.map_some,
    Option.some.injEq] at assigned
  cases search : placements.find? (·.index = i) with
  | none =>
    -- The tensor is placed, so the search cannot fail.
    have listed : (t, i) ∈ tensors.zipIdx := List.mk_mem_zipIdx_iff_getElem?.mpr found
    obtain ⟨p, member, same⟩ := List.mem_map.mp (perm.mem_iff.mpr listed)
    have other := List.find?_eq_none.mp search p member
    simp only [Prod.mk.injEq] at same
    simp [same.2] at other
  | some p =>
    have member := List.mem_of_find?_eq_some search
    have index : p.index = i := by simpa using List.find?_some search
    have lifetime := placed p member
    rw [index, found, Option.some.injEq] at lifetime
    have offset : p.offset = offset := by simpa [search] using assigned
    rwa [← index, lifetime, ← offset]

theorem laid_reuse {tensors : List Lifetime} {placements : List Placement}
    (checked : reusePlacements? align tensors = some placements) :
    Laid .reuse align tensors (slotOffsets tensors.length placements) := by
  obtain ⟨settled, perm⟩ := reusePlacements?_spec power checked
  refine ⟨by simp [slotOffsets], ?_, ?_⟩
  · intro offset member
    obtain ⟨i, assigned⟩ := List.getElem?_of_mem member
    have inside : i < tensors.length := by
      simpa [slotOffsets] using (List.getElem?_eq_some_iff.mp assigned).1
    exact settled.aligned _
      (mem_of_slotOffsets perm (List.getElem?_eq_getElem inside) assigned)
  · intro i j s t a b different atI atJ offsetI offsetJ shared
    have meets : s.Meets t := by simpa using shared
    have first := mem_of_slotOffsets perm atI offsetI
    have second := mem_of_slotOffsets perm atJ offsetJ
    have symmetric : Std.Symm fun p q : Placement => p.lifetime.Meets q.lifetime →
        Apart p.offset p.lifetime.bytes q.offset q.lifetime.bytes :=
      ⟨fun p q apart meets => (apart ⟨meets.2, meets.1⟩).symm⟩
    exact settled.apart.forall first second (by simp [different]) meets

theorem laid_of_checked {strategy : Strategy} {tensors : List Lifetime} {offsets : List Nat}
    (checked : WorkspacePlan.offsetsFor? strategy align tensors = some offsets) :
    Laid strategy align tensors offsets := by
  cases strategy with
  | linear => exact laid_linear power checked
  | reuse =>
    obtain ⟨placements, placed, rfl⟩ := Option.map_eq_some_iff.mp checked
    exact laid_reuse power placed

end

end Workspace

namespace WorkspacePlan

open Workspace

theorem length_offsetsFor (strategy : Strategy) (align : Nat) (tensors : List Lifetime) :
    (offsetsFor strategy align tensors).length = tensors.length := by
  have linear (cursor : Nat) : (linearFrom align cursor tensors).length = tensors.length := by
    induction tensors generalizing cursor with
    | nil => rfl
    | cons t rest ih => simp only [linearFrom, List.length_cons, ih]
  cases strategy with
  | linear => exact linear 0
  | reuse => simp only [offsetsFor, reuseOffsets, slotOffsets, List.length_map, List.length_range]

/-- A plan for tensors and scratch: the tensors laid out, the scratch region behind them, and the
whole inside the 64-bit range. -/
structure Sound (plan : WorkspacePlan) (strategy : Strategy) (align : Nat)
    (tensors : List Lifetime) (scratchBytes : Nat) : Prop where
  laid : Laid strategy align tensors plan.offsets
  inside : ∀ (i : Nat) (t : Lifetime) (offset : Nat), tensors[i]? = some t →
    plan.offsets[i]? = some offset → offset + t.bytes ≤ plan.scratchOffset
  scratch : plan.scratchBytes = scratchBytes
  scratchAligned : align ∣ plan.scratchOffset
  scratchInside : plan.scratchOffset + plan.scratchBytes ≤ plan.totalBytes
  totalAligned : align ∣ plan.totalBytes
  bounded : plan.totalBytes < 2 ^ 64

theorem total?_spec {align scratchOffset scratchBytes total : Nat}
    (power : Config.IsPowerOfTwo align) (aligned : align ∣ scratchOffset)
    (small : scratchOffset < 2 ^ 64)
    (checked : total? scratchOffset scratchBytes align = some total) :
    scratchOffset + scratchBytes ≤ total ∧ align ∣ total ∧ total < 2 ^ 64 := by
  unfold total? at checked
  split at checked
  · simp only [Option.bind_eq_some_iff, sum?_eq_some, alignUp?_eq_some] at checked
    obtain ⟨_, ⟨-, rfl⟩, fits, rfl⟩ := checked
    rw [alignUp_eq power fits]
    have above := le_nextMultiple (scratchOffset + scratchBytes) (positive_of_power power)
    have below := nextMultiple_lt (scratchOffset + scratchBytes) (positive_of_power power)
    exact ⟨above, dvd_nextMultiple _, by omega⟩
  · obtain rfl : scratchOffset = total := Option.some.inj checked
    exact ⟨by omega, aligned, small⟩

/-- A plan that checked arithmetic arrives at is sound. -/
theorem sound_of_checked {strategy : Strategy} {align : Nat} {tensors : List Lifetime}
    {scratchBytes : Nat} {plan : WorkspacePlan} (power : Config.IsPowerOfTwo align)
    (checked : build? tensors scratchBytes align strategy = some plan) :
    plan.Sound strategy align tensors scratchBytes := by
  obtain ⟨placed, ⟨ends, sums, -, rounded⟩, scratch, totalled⟩ := build?_eq_some checked
  obtain ⟨fits, rounded⟩ := alignUp?_eq_some.mp rounded
  rw [alignUp_eq power fits] at rounded
  have positive := positive_of_power power
  have above := le_nextMultiple (ends.max?.getD 0) positive
  have below := nextMultiple_lt (ends.max?.getD 0) positive
  have scratchAligned : align ∣ plan.scratchOffset := by
    rw [← rounded]
    exact dvd_nextMultiple _
  obtain ⟨scratchInside, totalAligned, bounded⟩ :=
    total?_spec power scratchAligned (by omega) totalled
  refine ⟨laid_of_checked power placed, ?_, scratch, scratchAligned, by omega, totalAligned,
    bounded⟩
  intro i t offset atI offsetI
  have listed : offset + t.bytes ∈ ends := by
    rw [sums]
    refine List.mem_map.mpr ⟨(offset, t), List.mem_of_getElem? (i := i) ?_, rfl⟩
    rw [List.getElem?_zip_eq_some]
    exact ⟨offsetI, atI⟩
  have furthest : offset + t.bytes ≤ ends.max?.getD 0 := List.le_max?_getD_of_mem listed
  omega

end WorkspacePlan

end OperatorGraph
