import Mathlib.Algebra.Order.Ring.Nat
import OperatorGraph.Shader.Run

set_option autoImplicit false

namespace OperatorGraph.Shader

variable {F : Type}

-- The rules below are read off the equations of the evaluator.
attribute [local simp] Expr.eval Expr.evalArgs

/-- An access to a tensor rather than to the launch parameters. -/
def Access.onTensor : Access → Bool
  | .read .info _ => false
  | .read (.tensor _) _ | .write _ _ => true

namespace Thread

/-- The thread without its readings of the launch parameters. -/
def bare (t : Thread F) : Thread F :=
  { t with accesses := t.accesses.filter Access.onTensor }

@[simp] theorem vars_bare (t : Thread F) : t.bare.vars = t.vars := rfl

@[simp] theorem arrays_bare (t : Thread F) : t.bare.arrays = t.arrays := rfl

@[simp] theorem bare_set (t : Thread F) (name : String) (value : Value F) :
    (t.set name value).bare = t.bare.set name value := rfl

theorem bare_after (t : Thread F) (accesses : List Access) :
    (t.after accesses).bare = t.bare.after (accesses.filter Access.onTensor) := by
  simp only [bare, after, List.filter_append]

@[simp] theorem after_nil (t : Thread F) : t.after [] = t := by
  simp only [after, List.append_nil]

@[simp] theorem vars_after (t : Thread F) (accesses : List Access) :
    (t.after accesses).vars = t.vars := rfl

@[simp] theorem arrays_after (t : Thread F) (accesses : List Access) :
    (t.after accesses).arrays = t.arrays := rfl

@[simp] theorem arrays_set (t : Thread F) (name : String) (value : Value F) :
    (t.set name value).arrays = t.arrays := rfl

@[simp] theorem accesses_set (t : Thread F) (name : String) (value : Value F) :
    (t.set name value).accesses = t.accesses := rfl

@[simp] theorem accesses_after (t : Thread F) (accesses : List Access) :
    (t.after accesses).accesses = t.accesses ++ accesses := rfl

@[simp] theorem vars_set (t : Thread F) (name : String) (value : Value F) (other : String) :
    (t.set name value).vars other = if other = name then some value else t.vars other := rfl

end Thread

namespace Expr

/-- In every thread that is bare so, the expression has this value, found by these readings of
tensors. -/
def Evaluates (c : Context F) (s : Thread F) (e : Expr) (value : Value F) (trace : List Access) :
    Prop :=
  ∀ t : Thread F, t.bare = s →
    ∃ reads, e.eval c t = .ok (value, reads) ∧ reads.filter Access.onTensor = trace

/-- The expression is a natural number of 32 bits, or one that has wrapped around. -/
abbrev IsWord (c : Context F) (s : Thread F) (e : Expr) (n : Nat) : Prop :=
  e.Evaluates c s (.word (UInt32.ofNat n)) []

/-- The expression is a floating point number. -/
def IsReal (c : Context F) (s : Thread F) (e : Expr) (trace : List Access) : Prop :=
  ∃ x, e.Evaluates c s (.real x) trace

variable {c : Context F} {s : Thread F}

namespace Evaluates

theorem var {name : String} {value : Value F} (known : s.vars name = some value) :
    (Expr.var name).Evaluates c s value [] := by
  rintro t rfl
  refine ⟨[], ?_, rfl⟩
  have found : t.lookup name = .ok value := by
    rw [Thread.vars_bare] at known
    rw [Thread.lookup, known]
  rw [eval, found]
  rfl

theorem group {e : Expr} {value : Value F} {trace : List Access}
    (inner : e.Evaluates c s value trace) : (Expr.group e).Evaluates c s value trace := by
  intro t bare
  rw [eval]
  exact inner t bare

theorem binary {a b : Expr} {x y z : Value F} {first second : List Access}
    (lhs : a.Evaluates c s x first) (rhs : b.Evaluates c s y second) {op : BinaryOp}
    (strict : op ≠ .or) (applied : op.apply c.arithmetic x y = some z) :
    (Expr.binary op a b).Evaluates c s z (first ++ second) := by
  intro t bare
  obtain ⟨before, left, rfl⟩ := lhs t bare
  obtain ⟨after, right, rfl⟩ := rhs t bare
  refine ⟨before ++ after, ?_, List.filter_append ..⟩
  have value : typed (op.apply c.arithmetic x y) = .ok z := by
    rw [applied]
    rfl
  cases op with
  | or => exact absurd rfl strict
  | add | sub | mul | div | mod | less | atLeast =>
    simp only [eval, left, right, value, bind, Except.bind, pure, Except.pure]

theorem int (value : Nat) : (Expr.int value).Evaluates c s (.literal value) [] :=
  fun _ _ => ⟨[], rfl, rfl⟩

/-- A disjunction of conditions that read no tensors. -/
theorem or {a b : Expr} {x y : Bool} (lhs : a.Evaluates c s (.flag x) [])
    (rhs : b.Evaluates c s (.flag y) []) :
    (Expr.binary .or a b).Evaluates c s (.flag (x || y)) [] := by
  intro t bare
  obtain ⟨before, left, silent⟩ := lhs t bare
  obtain ⟨after, right, quiet⟩ := rhs t bare
  cases x with
  | true =>
    refine ⟨before, ?_, silent⟩
    simp only [eval, left, bind, Except.bind, pure, Except.pure, Bool.true_or]
  | false =>
    refine ⟨before ++ after, ?_, ?_⟩
    · simp only [eval, left, right, bind, Except.bind, pure, Except.pure, Bool.false_or]
    · rw [List.filter_append, silent, quiet]
      rfl

theorem call {function : String} {e : Expr} {x y : Value F} {trace : List Access}
    (found : e.Evaluates c s x trace) (answers : c.call function [x] = .ok y) :
    (Expr.call function [e]).Evaluates c s y trace := by
  intro t bare
  obtain ⟨reads, value, rfl⟩ := found t bare
  refine ⟨reads, ?_, rfl⟩
  simp only [eval, evalArgs, value, answers, bind, Except.bind, pure, Except.pure, List.append_nil]

/-- An element of a tensor, at an index that has not wrapped around. -/
theorem tensor {index : Expr} {n binding : Nat} (place : index.IsWord c s n) (small : n < 2 ^ 32)
    (inside : n < s.arrays.size binding) :
    (Expr.tensor binding index).Evaluates c s (s.arrays.cell binding n)
      [.read (.tensor binding) n] := by
  rintro t rfl
  obtain ⟨reads, value, silent⟩ := place t rfl
  refine ⟨reads ++ [.read (.tensor binding) n], ?_, ?_⟩
  · have position : typed (Value.word (F := F) (UInt32.ofNat n)).position? = .ok n := by
      rw [Value.position?, UInt32.toNat_ofNat_of_lt' small]
      rfl
    have found : t.load c.info (.tensor binding) n = .ok (t.arrays.cell binding n) :=
      if_pos inside
    simp only [Expr.tensor, eval, value, position, found, bind, Except.bind, pure, Except.pure,
      Thread.arrays_bare]
  · rw [List.filter_append, silent]
    rfl

end Evaluates

theorem ofNat_ne_zero {n : Nat} (positive : 0 < n) (small : n < 2 ^ 32) : UInt32.ofNat n ≠ 0 := by
  intro zero
  have value := congrArg UInt32.toNat zero
  rw [UInt32.toNat_ofNat_of_lt' small, UInt32.toNat_zero] at value
  omega

namespace IsWord

theorem eq {e : Expr} {m n : Nat} (found : e.IsWord c s m) (same : m = n) : e.IsWord c s n :=
  same ▸ found

theorem word (n : Nat) : (Expr.word n).IsWord c s n := by
  intro t _
  exact ⟨[], rfl, rfl⟩

theorem var {name : String} {n : Nat} (known : s.vars name = some (.word (UInt32.ofNat n))) :
    (Expr.var name).IsWord c s n :=
  Evaluates.var known

theorem group {e : Expr} {n : Nat} (inner : e.IsWord c s n) : (Expr.group e).IsWord c s n :=
  Evaluates.group inner

theorem info {position n : Nat} (found : c.info[position]? = some (UInt32.ofNat n)) :
    (Expr.info position).IsWord c s n := by
  intro t _
  refine ⟨[.read .info position], ?_, rfl⟩
  simp only [Expr.info, eval, Value.position?, typed, Thread.load, found, Option.elim_some, bind,
    Except.bind, pure, Except.pure, List.nil_append]

theorem infoAt {index : Expr} {position n : Nat} (place : index.IsWord c s position)
    (small : position < 2 ^ 32) (found : c.info[position]? = some (UInt32.ofNat n)) :
    (Expr.infoAt index).IsWord c s n := by
  intro t bare
  obtain ⟨reads, value, silent⟩ := place t bare
  refine ⟨reads ++ [.read .info position], ?_, ?_⟩
  · have number : (UInt32.ofNat position).toNat = position := UInt32.toNat_ofNat_of_lt' small
    simp only [Expr.infoAt, eval, value, Value.position?, number, typed, Thread.load, found,
      Option.elim_some, bind, Except.bind, pure, Except.pure]
  · rw [List.filter_append, silent]
    rfl

section

variable {a b : Expr} {m n : Nat} (lhs : a.IsWord c s m) (rhs : b.IsWord c s n)
include lhs rhs

theorem add : (a + b).IsWord c s (m + n) := by
  have sum : BinaryOp.add.apply c.arithmetic (.word (UInt32.ofNat m)) (.word (UInt32.ofNat n)) =
      some (.word (UInt32.ofNat (m + n))) := by
    rw [UInt32.ofNat_add]
    rfl
  exact Evaluates.binary lhs rhs (by decide) sum

theorem mul : (a * b).IsWord c s (m * n) := by
  have product : BinaryOp.mul.apply c.arithmetic (.word (UInt32.ofNat m)) (.word (UInt32.ofNat n)) =
      some (.word (UInt32.ofNat (m * n))) := by
    rw [UInt32.ofNat_mul]
    rfl
  exact Evaluates.binary lhs rhs (by decide) product

theorem sub (most : n ≤ m) : (a - b).IsWord c s (m - n) := by
  have rest : BinaryOp.sub.apply c.arithmetic (.word (UInt32.ofNat m)) (.word (UInt32.ofNat n)) =
      some (.word (UInt32.ofNat (m - n))) := by
    rw [UInt32.ofNat_sub most]
    rfl
  exact Evaluates.binary lhs rhs (by decide) rest

variable (smallLeft : m < 2 ^ 32) (smallRight : n < 2 ^ 32)
include smallLeft smallRight

theorem less : (Expr.binary .less a b).Evaluates c s (.flag (m < n)) [] := by
  have compared : BinaryOp.less.apply c.arithmetic (.word (UInt32.ofNat m))
      (.word (UInt32.ofNat n)) = some (.flag (m < n)) := by
    show some (Value.flag (UInt32.ofNat m < UInt32.ofNat n)) = _
    simp only [UInt32.lt_iff_toNat_lt, UInt32.toNat_ofNat_of_lt' smallLeft,
      UInt32.toNat_ofNat_of_lt' smallRight]
  exact Evaluates.binary lhs rhs (by decide) compared

theorem atLeast : (Expr.binary .atLeast a b).Evaluates c s (.flag (n ≤ m)) [] := by
  have compared : BinaryOp.atLeast.apply c.arithmetic (.word (UInt32.ofNat m))
      (.word (UInt32.ofNat n)) = some (.flag (n ≤ m)) := by
    show some (Value.flag (UInt32.ofNat n ≤ UInt32.ofNat m)) = _
    simp only [UInt32.le_iff_toNat_le, UInt32.toNat_ofNat_of_lt' smallLeft,
      UInt32.toNat_ofNat_of_lt' smallRight]
  exact Evaluates.binary lhs rhs (by decide) compared

variable (positive : 0 < n)
include positive

theorem div : (a / b).IsWord c s (m / n) := by
  have quotient : BinaryOp.div.apply c.arithmetic (.word (UInt32.ofNat m))
      (.word (UInt32.ofNat n)) = some (.word (UInt32.ofNat (m / n))) := by
    show some (Value.word (if UInt32.ofNat n = 0 then _ else _)) = _
    rw [if_neg (ofNat_ne_zero positive smallRight), UInt32.ofNat_div smallLeft smallRight]
  exact Evaluates.binary lhs rhs (by decide) quotient

theorem mod : (a % b).IsWord c s (m % n) := by
  have remainder : BinaryOp.mod.apply c.arithmetic (.word (UInt32.ofNat m))
      (.word (UInt32.ofNat n)) = some (.word (UInt32.ofNat (m % n))) := by
    show some (Value.word (if UInt32.ofNat n = 0 then _ else _)) = _
    rw [if_neg (ofNat_ne_zero positive smallRight), UInt32.ofNat_mod smallLeft smallRight]
  exact Evaluates.binary lhs rhs (by decide) remainder

end

end IsWord

namespace IsReal

theorem real (text : String) : (Expr.real text).IsReal c s [] :=
  ⟨c.arithmetic.ofText text, fun _ _ => ⟨[], rfl, rfl⟩⟩

theorem var {name : String} (known : ∃ x, s.vars name = some (.real x)) :
    (Expr.var name).IsReal c s [] := by
  obtain ⟨x, known⟩ := known
  exact ⟨x, .var known⟩

theorem group {e : Expr} {trace : List Access} (inner : e.IsReal c s trace) :
    (Expr.group e).IsReal c s trace := by
  obtain ⟨x, inner⟩ := inner
  exact ⟨x, .group inner⟩

theorem tensor {index : Expr} {n binding : Nat} (place : index.IsWord c s n) (small : n < 2 ^ 32)
    (inside : n < s.arrays.size binding) (typed : ∃ x, s.arrays.cell binding n = .real x) :
    (Expr.tensor binding index).IsReal c s [.read (.tensor binding) n] := by
  obtain ⟨x, cell⟩ := typed
  exact ⟨x, cell ▸ Evaluates.tensor place small inside⟩

section

variable {a b : Expr} {first second : List Access} (lhs : a.IsReal c s first)
  (rhs : b.IsReal c s second)
include lhs rhs

theorem add : (a + b).IsReal c s (first ++ second) := by
  obtain ⟨x, lhs⟩ := lhs
  obtain ⟨y, rhs⟩ := rhs
  exact ⟨c.arithmetic.add x y, .binary lhs rhs (by decide) rfl⟩

theorem mul : (a * b).IsReal c s (first ++ second) := by
  obtain ⟨x, lhs⟩ := lhs
  obtain ⟨y, rhs⟩ := rhs
  exact ⟨c.arithmetic.mul x y, .binary lhs rhs (by decide) rfl⟩

theorem sub : (a - b).IsReal c s (first ++ second) := by
  obtain ⟨x, lhs⟩ := lhs
  obtain ⟨y, rhs⟩ := rhs
  exact ⟨c.arithmetic.sub x y, .binary lhs rhs (by decide) rfl⟩

theorem div : (a / b).IsReal c s (first ++ second) := by
  obtain ⟨x, lhs⟩ := lhs
  obtain ⟨y, rhs⟩ := rhs
  exact ⟨c.arithmetic.div x y, .binary lhs rhs (by decide) rfl⟩

theorem max : (Expr.call "max" [a, b]).IsReal c s (first ++ second) := by
  obtain ⟨x, lhs⟩ := lhs
  obtain ⟨y, rhs⟩ := rhs
  refine ⟨c.arithmetic.max x y, fun t bare => ?_⟩
  obtain ⟨before, left, rfl⟩ := lhs t bare
  obtain ⟨after, right, rfl⟩ := rhs t bare
  refine ⟨before ++ after, ?_, List.filter_append ..⟩
  simp only [eval, evalArgs, left, right, bind, Except.bind, pure, Except.pure, List.append_nil]
  rfl

omit rhs in
theorem exp : (Expr.call "exp" [a]).IsReal c s first := by
  obtain ⟨x, lhs⟩ := lhs
  exact ⟨c.arithmetic.exp x, .call lhs rfl⟩

omit rhs in
theorem inverseSqrt : (Expr.call "inverseSqrt" [a]).IsReal c s first := by
  obtain ⟨x, lhs⟩ := lhs
  exact ⟨c.arithmetic.inverseSqrt x, .call lhs rfl⟩

end

theorem call {function : String} {e : Expr} {trace : List Access} (found : e.IsReal c s trace)
    (answers : ∀ x, ∃ y, c.call function [.real x] = .ok (.real y)) :
    (Expr.call function [e]).IsReal c s trace := by
  obtain ⟨x, found⟩ := found
  obtain ⟨y, answer⟩ := answers x
  exact ⟨y, .call found answer⟩

theorem asFloat {word : Expr} {n : Nat} (bits : word.IsWord c s n) :
    (Expr.asFloat word).IsReal c s [] :=
  ⟨c.arithmetic.ofBits (UInt32.ofNat n), .call bits rfl⟩

theorem ofWord {word : Expr} {n : Nat} (count : word.IsWord c s n) :
    (Expr.call "f32" [word]).IsReal c s [] :=
  ⟨c.arithmetic.ofWord (UInt32.ofNat n), .call count rfl⟩

end IsReal

end Expr

end OperatorGraph.Shader
