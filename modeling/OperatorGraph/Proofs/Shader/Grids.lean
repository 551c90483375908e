import Mathlib.Data.Int.CardIntervalMod
import OperatorGraph.Proofs.Shader.Threads

set_option autoImplicit false

namespace OperatorGraph.Shader.Kernel

/-- The greatest thread count whose grid has no more invocations than there are words. -/
def lastUnwrapped : Nat := maxWorkgroups * 65536

/-- The invocations that a grid has past the last word, when its rows are as many as they can be. -/
def wrapped : Nat := maxWorkgroups * blockSize * 257 - 2 ^ 32

theorem lastUnwrapped_eq : lastUnwrapped = 4294901760 := rfl

theorem wrapped_eq : wrapped = 16711424 := rfl

theorem ofNat_eq_iff_modEq (n m : Nat) :
    UInt32.ofNat n = UInt32.ofNat m ↔ n ≡ m [MOD 2 ^ 32] := by
  rw [← UInt32.toNat_inj, UInt32.toNat_ofNat', UInt32.toNat_ofNat', Nat.ModEq]

theorem count_words (total index : Nat) :
    ((List.range total).map UInt32.ofNat).count (UInt32.ofNat index) =
      total / 2 ^ 32 + if index % 2 ^ 32 < total % 2 ^ 32 then 1 else 0 := by
  rw [← Nat.count_modEq_card total (by decide) index]
  induction total with
  | zero => rfl
  | succ total ih =>
    rw [List.range_succ, List.map_append, List.count_append, ih, Nat.count_succ, List.map_cons,
      List.map_nil, List.count_singleton]
    simp only [beq_iff_eq, ofNat_eq_iff_modEq]

theorem invocations_lt {threads : Nat} (few : threads ≤ lastUnwrapped) :
    (workgroups threads).1 * blockSize * (workgroups threads).2 < 2 ^ 32 := by
  rw [lastUnwrapped_eq] at few
  rw [blockSize]
  obtain ⟨row, grid⟩ | ⟨rows, grid⟩ := workgroups_cases threads <;> simp only [grid] <;> omega

/-- Past `lastUnwrapped` threads a grid has 257 rows. -/
theorem invocations_wrap {threads : Nat} (many : lastUnwrapped < threads)
    (small : threads < 2 ^ 32) :
    (workgroups threads).1 * blockSize * (workgroups threads).2 = 2 ^ 32 + wrapped := by
  rw [lastUnwrapped_eq] at many
  rw [blockSize, wrapped_eq]
  obtain ⟨row, grid⟩ | ⟨rows, grid⟩ := workgroups_cases threads <;> simp only [grid] <;> omega

theorem workgroups_within {threads : Nat} (positive : 0 < threads) (small : threads < 2 ^ 32) :
    (workgroups threads).1 ∈ Set.Icc 1 maxWorkgroups ∧
      (workgroups threads).2 ∈ Set.Icc 1 maxWorkgroups := by
  simp only [maxWorkgroups, Set.mem_Icc]
  obtain ⟨row, grid⟩ | ⟨rows, grid⟩ := workgroups_cases threads <;> simp only [grid] <;> omega

/-- How often a grid runs a thread: the first ones twice once it has wrapped. -/
theorem count_invocations {threads index : Nat} (small : threads < 2 ^ 32)
    (below : index < threads) :
    (invocations (workgroups threads)).count (UInt32.ofNat index) =
      if lastUnwrapped < threads ∧ index < wrapped then 2 else 1 := by
  rw [invocations_eq, count_words, Nat.mod_eq_of_lt (Nat.lt_trans below small)]
  by_cases many : lastUnwrapped < threads
  · have room : wrapped < 2 ^ 32 := by decide
    rw [invocations_wrap many small, Nat.add_div_left _ (by decide), Nat.div_eq_of_lt room,
      Nat.add_mod_left, Nat.mod_eq_of_lt room]
    by_cases first : index < wrapped <;> simp [many, first]
  · have few := invocations_lt (Nat.not_lt.mp many)
    have reached := Nat.lt_of_lt_of_le below (le_invocations threads)
    rw [Nat.div_eq_of_lt few, Nat.mod_eq_of_lt few, if_pos reached,
      if_neg fun both => many both.1]

/-- A grid has between one and 65535 workgroups in both dimensions and runs every thread. It runs
each of them once exactly if there are no more than `lastUnwrapped`; with more threads it runs the
first `wrapped` of them twice, since the row that is started last counts past the last word. -/
theorem grid_runs {threads : Nat} (positive : 0 < threads) (small : threads < 2 ^ 32) :
    ((workgroups threads).1 ∈ Set.Icc 1 maxWorkgroups ∧
      (workgroups threads).2 ∈ Set.Icc 1 maxWorkgroups) ∧
    (∀ index < threads, (invocations (workgroups threads)).count (UInt32.ofNat index) =
      if lastUnwrapped < threads ∧ index < wrapped then 2 else 1) ∧
    ((∀ index < threads, (invocations (workgroups threads)).count (UInt32.ofNat index) = 1) ↔
      threads ≤ lastUnwrapped) := by
  refine ⟨workgroups_within positive small, fun index below => count_invocations small below, ?_⟩
  constructor
  · intro once
    by_contra many
    have twice := count_invocations small positive
    rw [once 0 positive, if_pos ⟨Nat.not_le.mp many, by decide⟩] at twice
    exact absurd twice (by decide)
  · intro few index below
    rw [count_invocations small below, if_neg fun both => Nat.not_lt.mpr few both.1]

/-- The first thread count whose grid wraps. -/
theorem grid_runs_past_last :
    0 < lastUnwrapped + 1 ∧ lastUnwrapped + 1 < 2 ^ 32 ∧
    workgroups (lastUnwrapped + 1) = (65535, 257) ∧
    (invocations (workgroups (lastUnwrapped + 1))).count (UInt32.ofNat 16711423) = 2 ∧
    (invocations (workgroups (lastUnwrapped + 1))).count (UInt32.ofNat 16711424) = 1 :=
  have runs := (grid_runs (Nat.succ_pos lastUnwrapped) (by decide)).2.1
  ⟨by decide, by decide, by decide, runs 16711423 (by decide), runs 16711424 (by decide)⟩

/-- Not every grid runs each thread once: of 4294901761 threads the first is run twice. -/
theorem first_thread_runs_twice :
    ¬ ∀ threads : Nat, 0 < threads → threads < 2 ^ 32 →
      ∀ index < threads, (invocations (workgroups threads)).count (UInt32.ofNat index) = 1 := by
  intro once
  have one := once 4294901761 (by decide) (by decide) 0 (by decide)
  rw [count_invocations (by decide) (by decide), if_pos (by decide)] at one
  exact absurd one (by decide)

end OperatorGraph.Shader.Kernel
