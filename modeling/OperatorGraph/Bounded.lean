set_option autoImplicit false

/-!
Signed 64-bit quantities as integers with a range, and unsigned 64-bit quantities as naturals.
An operation either saturates at the ends of the range, answers `none` when it leaves the range,
or wraps around; which of them applies is part of each rule that uses it.
-/
namespace OperatorGraph

/-- Why a computation has no answer at all, as opposed to an answer that refuses its input. -/
inductive Fault where
  | indexOutOfRange
  | divisionByZero
  | overflow
  /-- A list with more entries than can be held. -/
  | capacity
  /-- A kernel whose operations do not take the types of its tensors. -/
  | illTyped
  /-- A buffer that is larger than the device admits. -/
  | bufferSize
  /-- A binding of no element, or of more bytes than the device admits. -/
  | bindingSize
  deriving DecidableEq, Repr

def Fault.message : Fault → String
  | .indexOutOfRange => "index out of range"
  | .divisionByZero => "division by zero"
  | .overflow => "arithmetic overflow"
  | .capacity => "capacity exceeded"
  | .illTyped => "kernel is not well typed"
  | .bufferSize => "buffer size out of range"
  | .bindingSize => "binding size out of range"

namespace Bounded

def least : Int := -0x8000_0000_0000_0000

def greatest : Int := 0x7fff_ffff_ffff_ffff

/-- The integers that a signed 64-bit word holds. -/
def Fits (x : Int) : Prop :=
  least ≤ x ∧ x ≤ greatest

instance (x : Int) : Decidable (Fits x) :=
  inferInstanceAs (Decidable (_ ∧ _))

/-- The nearest integer of the range. -/
def clamp (x : Int) : Int :=
  max least (min x greatest)

def satMul (a b : Int) : Int :=
  clamp (a * b)

def mul? (a b : Int) : Option Int :=
  if Fits (a * b) then some (a * b) else none

def add? (a b : Int) : Option Int :=
  if Fits (a + b) then some (a + b) else none

/-- Products saturate at every step, from the left. -/
def satProduct (xs : List Int) : Int :=
  xs.foldl satMul 1

/-- The product from the left, unless some step leaves the range. -/
def product? (xs : List Int) : Option Int :=
  xs.foldlM mul? 1

def product (xs : List Int) : Except Fault Int :=
  (product? xs).elim (.error .overflow) .ok

def mul (a b : Int) : Except Fault Int :=
  (mul? a b).elim (.error .overflow) .ok

def add (a b : Int) : Except Fault Int :=
  (add? a b).elim (.error .overflow) .ok

/-- Division toward zero. Its only quotient outside the range is `least / -1`. -/
def div (a b : Int) : Except Fault Int :=
  if b = 0 then .error .divisionByZero
  else if Fits (a.tdiv b) then .ok (a.tdiv b)
  else .error .overflow

/-- Remainder of the division toward zero, defined where the quotient is. -/
def rem (a b : Int) : Except Fault Int :=
  if b = 0 then .error .divisionByZero
  else if Fits (a.tdiv b) then .ok (a.tmod b)
  else .error .overflow

/-- As many entries as no list holds. -/
def capacity : Nat := 0x100_0000_0000_0000

/-- Room for a number of entries. -/
def reserve (count : Nat) : Except Fault Unit :=
  if count < capacity then .ok () else .error .capacity

/-- A 64-bit word read as a signed integer. -/
def signed (n : Nat) : Int :=
  (n : Int).bmod 0x1_0000_0000_0000_0000

/-- The 64-bit word that an unsigned result is stored in. -/
def word (n : Nat) : Nat :=
  n % 0x1_0000_0000_0000_0000

/-- Unsigned products saturate at the greatest 64-bit word. -/
def satMulWord (a b : Nat) : Nat :=
  min (a * b) 0xffff_ffff_ffff_ffff

@[simp] theorem mul?_eq_some {a b c : Int} : mul? a b = some c ↔ Fits (a * b) ∧ a * b = c := by
  unfold mul?; split <;> simp_all

@[simp] theorem add?_eq_some {a b c : Int} : add? a b = some c ↔ Fits (a + b) ∧ a + b = c := by
  unfold add?; split <;> simp_all

theorem clamp_of_fits {x : Int} (inside : Fits x) : clamp x = x := by
  unfold Fits at inside; unfold clamp; omega

theorem fits_clamp (x : Int) : Fits (clamp x) := by
  unfold Fits clamp least greatest; omega

theorem word_of_lt {n : Nat} (small : n < 0x1_0000_0000_0000_0000) : word n = n :=
  Nat.mod_eq_of_lt small

end Bounded

end OperatorGraph
