import Mathlib.Algebra.Order.Ring.Nat
import OperatorGraph.Proofs.Shader.Asking

set_option autoImplicit false

namespace OperatorGraph.Shader

variable {F : Type}

/-- The value is a word below a limit. -/
def Value.Below (limit : Nat) : Value F → Prop
  | word n => n.toNat < limit
  | int _ | literal _ | real _ | flag _ => False

theorem Value.Below.indexes {limit words : Nat} (enough : limit ≤ words) {value : Value F}
    (below : value.Below limit) : value.Indexes words := by
  intro position stands
  cases value with
  | word n => exact Option.some.inj stands ▸ Nat.lt_of_lt_of_le below enough
  | int _ | literal _ | real _ | flag _ => exact below.elim

namespace Facts

/-- Nothing is known. -/
def none : Facts F :=
  fun _ _ => True

@[simp] theorem none_apply (name : String) : (none name : Value F → Prop) = fun _ => True := rfl

theorem counts_free {facts : Facts F} {counter : String}
    (free : facts counter = fun _ => True) : facts.Counts counter = fun _ => True := by
  funext limit
  simp [Counts, free]

@[simp] theorem counts_none (counter : String) : (none : Facts F).Counts counter = fun _ => True :=
  counts_free rfl

/-- One variable holds a size, and some others hold words below it. -/
def counting (total : String) (places : List String) (size : Nat) : Facts F :=
  fun name value =>
    (name = total → value = .word (UInt32.ofNat size)) ∧ (name ∈ places → value.Below size)

@[simp] theorem counting_other {total : String} {places : List String} {size : Nat} {name : String}
    (notTotal : name ≠ total) (notPlace : name ∉ places) :
    (counting total places size name : Value F → Prop) = fun _ => True := by
  funext value
  simp [counting, notTotal, notPlace]

@[simp] theorem counts_other {total : String} {places : List String} {size : Nat} {counter : String}
    (notTotal : counter ≠ total) (notPlace : counter ∉ places) :
    (counting total places size : Facts F).Counts counter = fun _ => True :=
  counts_free (counting_other notTotal notPlace)

end Facts

namespace Expr

variable {c : Context F} {facts : Facts F} {words : Nat} {a b : Expr}

@[simp] theorem yields_true (e : Expr) : e.Yields c facts (fun _ => True) :=
  fun _ _ _ _ _ => trivial

namespace Yields

theorem fixed {position : Nat} (inside : position < words) :
    (Expr.int position).Yields c facts (Value.Indexes words) := by
  refine (int position).mono ?_
  rintro _ rfl other stands
  exact Option.some.inj stands ▸ inside

variable {j k : Nat}

theorem indexes (below : a.Yields c facts (Value.Below k)) (enough : k ≤ words) :
    a.Yields c facts (Value.Indexes words) :=
  below.mono fun _ => Value.Below.indexes enough

theorem literal (n : Nat) : (Expr.word n).Yields c facts (Value.Below (n + 1)) := by
  refine (word n).mono ?_
  rintro _ rfl
  exact Nat.lt_succ_of_le (Nat.mod_le n _)

theorem add (lhs : a.Yields c facts (Value.Below (j + 1)))
    (rhs : b.Yields c facts (Value.Below k)) : (a + b).Yields c facts (Value.Below (j + k)) := by
  refine binary (by decide) lhs rhs fun x y z left right applied => ?_
  cases x with
  | word m =>
    cases y with
    | word n =>
      obtain rfl := Option.some.inj applied
      -- Wrapping around only makes a sum smaller.
      have sum : (m + n).toNat ≤ m.toNat + n.toNat := by
        rw [UInt32.toNat_add]
        exact Nat.mod_le _ _
      have first : m.toNat < j + 1 := left
      have second : n.toNat < k := right
      show (m + n).toNat < j + k
      omega
    | int _ | literal _ | real _ | flag _ => exact right.elim
  | int _ | literal _ | real _ | flag _ => exact left.elim

theorem mul (lhs : a.Yields c facts (Value.Below (j + 1)))
    (rhs : b.Yields c facts (Value.Below (k + 1))) :
    (a * b).Yields c facts (Value.Below (j * k + 1)) := by
  refine binary (by decide) lhs rhs fun x y z left right applied => ?_
  cases x with
  | word m =>
    cases y with
    | word n =>
      obtain rfl := Option.some.inj applied
      apply Nat.lt_succ_of_le
      rw [UInt32.toNat_mul]
      exact Nat.le_trans (Nat.mod_le _ _)
        (Nat.mul_le_mul (Nat.le_of_lt_succ left) (Nat.le_of_lt_succ right))
    | int _ | literal _ | real _ | flag _ => exact right.elim
  | int _ | literal _ | real _ | flag _ => exact left.elim

section

variable {total : String} {places : List String} {size : Nat}

theorem isTotal : (Expr.var total).Yields c (.counting total places size)
    (· = .word (UInt32.ofNat size)) :=
  (var total).mono fun _ fact => fact.1 rfl

theorem totalBelow : (Expr.var total).Yields c (.counting total places size)
    (Value.Below (size + 1)) := by
  refine isTotal.mono ?_
  rintro _ rfl
  exact Nat.lt_succ_of_le (Nat.mod_le size _)

theorem place {name : String} (listed : name ∈ places) :
    (Expr.var name).Yields c (.counting total places size) (Value.Below size) :=
  (var name).mono fun _ fact => fact.2 listed

theorem toPlace (below : a.Yields c (.counting total places size) (Value.Below size))
    {name : String} (other : name ≠ total) :
    a.Yields c (.counting total places size) (Facts.counting total places size name) :=
  below.mono fun _ holds => ⟨fun same => absurd same other, fun _ => holds⟩

theorem toTotal (equals : a.Yields c (.counting total places size) (· = .word (UInt32.ofNat size)))
    (apart : total ∉ places) :
    a.Yields c (.counting total places size) (Facts.counting total places size total) :=
  equals.mono fun _ same => ⟨fun _ => same, fun listed => absurd listed apart⟩

theorem counts {counter : String} (other : counter ≠ total) :
    (Expr.var total).Yields c (.counting total places size)
      (Facts.Counts (.counting total places size) counter) := by
  refine isTotal.mono ?_
  rintro _ rfl finish same n below
  obtain rfl := Value.word.inj same
  refine ⟨fun equal => absurd equal other, fun _ => ?_⟩
  exact Nat.lt_of_lt_of_le (UInt32.lt_iff_toNat_lt.mp below) (Nat.mod_le size _)

/-- Counting down from the last of so many. -/
theorem reversed (small : size < 2 ^ 32) {name : String} (listed : name ∈ places) :
    (Expr.var total - 1 - .var name).Yields c (.counting total places size)
      (Value.Below size) := by
  have last : (Expr.var total - 1).Yields c (.counting total places size)
      (· = .word (UInt32.ofNat size - 1)) := by
    refine binary (by decide) isTotal (word 1) ?_
    rintro _ _ z rfl rfl applied
    exact (Option.some.inj applied).symm
  refine binary (by decide) last (place listed) ?_
  rintro _ y z rfl below applied
  cases y with
  | word n =>
    obtain rfl := Option.some.inj applied
    have inside : n.toNat < size := below
    have whole : (UInt32.ofNat size).toNat = size := UInt32.toNat_ofNat_of_lt' small
    have one : (1 : UInt32) ≤ UInt32.ofNat size := by
      rw [UInt32.le_iff_toNat_le, whole]
      show 1 ≤ size
      omega
    show (UInt32.ofNat size - 1 - n).toNat < size
    have before : (UInt32.ofNat size - 1).toNat = size - 1 := by
      rw [UInt32.toNat_sub_of_le _ _ one, whole]
      rfl
    rw [UInt32.toNat_sub_of_le, before]
    · omega
    · rw [UInt32.le_iff_toNat_le, before]
      omega
  | int _ | literal _ | real _ | flag _ => exact below.elim

end

end Yields

@[simp] theorem confined_info {position : Nat} (inside : position < words) :
    (Expr.info position).Confined c facts words :=
  ⟨trivial, .fixed inside⟩

theorem confined_infoAt {place : Expr} : (Expr.infoAt place).Confined c facts words ↔
    place.Confined c facts words ∧ place.Yields c facts (Value.Indexes words) :=
  Iff.rfl

@[simp] theorem confined_sub : (a - b).Confined c facts words ↔
    a.Confined c facts words ∧ b.Confined c facts words :=
  Iff.rfl

@[simp] theorem confined_div : (a / b).Confined c facts words ↔
    a.Confined c facts words ∧ b.Confined c facts words :=
  Iff.rfl

end Expr

end OperatorGraph.Shader
