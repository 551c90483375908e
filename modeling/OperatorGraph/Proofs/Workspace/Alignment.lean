import Mathlib.Data.Nat.Bitwise
import OperatorGraph.Config

set_option autoImplicit false

namespace OperatorGraph

theorem Config.IsPowerOfTwo.exists_exponent {n : Nat} (power : Config.IsPowerOfTwo n) :
    ∃ exponent, n = 2 ^ exponent := by
  refine ⟨n.log2, ?_⟩
  rw [← Nat.one_shiftLeft]
  exact power.right.symm

/-- The next multiple of an alignment. -/
def nextMultiple (n align : Nat) : Nat :=
  (n + align - 1) / align * align

section

variable (n : Nat) {align : Nat} (positive : 0 < align)
include positive

theorem le_nextMultiple : n ≤ nextMultiple n align := by
  have division := Nat.div_add_mod (n + align - 1) align
  have remainder := Nat.mod_lt (n + align - 1) positive
  rw [Nat.mul_comm] at division
  unfold nextMultiple
  omega

theorem nextMultiple_lt : nextMultiple n align < n + align := by
  have below := Nat.div_mul_le_self (n + align - 1) align
  unfold nextMultiple
  omega

omit positive in
theorem dvd_nextMultiple : align ∣ nextMultiple n align :=
  Nat.dvd_mul_left _ _

theorem nextMultiple_le {bound : Nat} (above : n ≤ bound) (multiple : align ∣ bound) :
    nextMultiple n align ≤ bound := by
  obtain ⟨factor, rfl⟩ := multiple
  by_contra beyond
  have small := nextMultiple_lt n positive
  obtain ⟨count, exact⟩ : align ∣ nextMultiple n align := dvd_nextMultiple n
  have ordered : align * factor < align * count := by omega
  have next : factor + 1 ≤ count := Nat.lt_of_mul_lt_mul_left ordered
  have step := Nat.mul_le_mul_left align next
  rw [Nat.mul_add, Nat.mul_one] at step
  omega

end

/-- Clearing the low bits of a word leaves the multiple below it. -/
theorem and_highBits {word exponent : Nat} (fits : word < 2 ^ 64) (small : exponent ≤ 64) :
    word &&& (2 ^ 64 - 2 ^ exponent) = word / 2 ^ exponent * 2 ^ exponent := by
  have mask : 2 ^ 64 - 2 ^ exponent = (2 ^ (64 - exponent) - 1) * 2 ^ exponent := by
    rw [Nat.sub_mul, ← Nat.pow_add, Nat.sub_add_cancel small, Nat.one_mul]
  apply Nat.eq_of_testBit_eq
  intro i
  rw [mask, Nat.testBit_and, Nat.testBit_mul_two_pow, Nat.testBit_mul_two_pow,
    Nat.testBit_div_two_pow, Nat.testBit_two_pow_sub_one]
  by_cases low : exponent ≤ i
  · have shifted : i - exponent + exponent = i := by omega
    rw [shifted]
    by_cases high : i < 64
    · simp [low, show i - exponent < 64 - exponent by omega]
    · have bound : 2 ^ 64 ≤ 2 ^ i := Nat.pow_le_pow_right (by omega) (by omega)
      simp [Nat.testBit_lt_two_pow (Nat.lt_of_lt_of_le fits bound)]
  · simp [low]

/-- Rounding a word up gives the next multiple, as far as a word holds it. -/
theorem alignUp_eq_word {n align : Nat} (power : Config.IsPowerOfTwo align) (fits : n < 2 ^ 64) :
    alignUp n align = Bounded.word (nextMultiple n align) := by
  obtain ⟨exponent, rfl⟩ := power.exists_exponent
  have one : (1 : UInt64).toNat = 1 := rfl
  simp only [alignUp, UInt64.toNat_and]
  by_cases small : exponent < 64
  · have below : 2 ^ exponent < 2 ^ 64 := Nat.pow_lt_pow_right (by omega) small
    have positive : 0 < 2 ^ exponent := Nat.two_pow_pos exponent
    have sum : (n.toUInt64 + (2 ^ exponent).toUInt64 - 1).toNat =
        (n + 2 ^ exponent - 1) % 2 ^ 64 := by
      rw [UInt64.toNat_sub, UInt64.toNat_add, Nat.toUInt64_eq, Nat.toUInt64_eq,
        UInt64.toNat_ofNat', UInt64.toNat_ofNat', one]
      omega
    have mask : (~~~((2 ^ exponent).toUInt64 - 1)).toNat = 2 ^ 64 - 2 ^ exponent := by
      rw [UInt64.toNat_not, UInt64.toNat_sub, Nat.toUInt64_eq, UInt64.toNat_ofNat', one,
        UInt64.size]
      omega
    have split : (2 ^ 64 : Nat) = 2 ^ exponent * 2 ^ (64 - exponent) := by
      rw [← Nat.pow_add, Nat.add_sub_of_le (Nat.le_of_lt small)]
    rw [sum, mask, and_highBits (Nat.mod_lt _ (by omega)) (by omega)]
    show _ = nextMultiple n (2 ^ exponent) % 2 ^ 64
    rw [nextMultiple, split, Nat.mod_mul_right_div_self, Nat.mul_comm (2 ^ exponent),
      Nat.mul_mod_mul_right]
  · -- No word but zero is a multiple of so large an alignment.
    have whole : 2 ^ 64 ∣ 2 ^ exponent := Nat.pow_dvd_pow 2 (by omega)
    have none : (2 ^ exponent).toUInt64 = 0 := by
      apply UInt64.toNat_inj.mp
      rw [Nat.toUInt64_eq, UInt64.toNat_ofNat', Nat.mod_eq_zero_of_dvd whole]
      rfl
    have multiple : 2 ^ 64 ∣ nextMultiple n (2 ^ exponent) :=
      Nat.dvd_trans whole (dvd_nextMultiple n)
    have mask : (~~~((0 : UInt64) - 1)).toNat = 0 := by decide
    show _ = nextMultiple n (2 ^ exponent) % 2 ^ 64
    rw [none, mask, Nat.and_zero, Nat.mod_eq_zero_of_dvd multiple]

/-- Rounding a word up gives the next multiple, while the sum is a word. -/
theorem alignUp_eq {n align : Nat} (power : Config.IsPowerOfTwo align)
    (fits : n + align < 2 ^ 64) : alignUp n align = nextMultiple n align := by
  have below := nextMultiple_lt n (Nat.pos_of_ne_zero power.1)
  rw [alignUp_eq_word power (by omega)]
  exact Bounded.word_of_lt (by omega)

end OperatorGraph
