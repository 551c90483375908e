import OperatorGraph.Proofs.Shader.Threads

set_option autoImplicit false

namespace OperatorGraph.Shader

variable {F : Type}

/-- Rounds of a loop that fall through keep an invariant, and the round that is stopped stops it. -/
theorem rounds_of_trap (body : Thread F → Except Trap (Flow × Thread F)) (counter : String)
    (invariant : Nat → Thread F → Prop) {last total : Nat} (within : last < total) (start : UInt32)
    {t : Thread F} (first : invariant 0 t)
    (kept : ∀ round t, round < last → invariant round t →
      ∃ after, body (t.set counter (.word (start + UInt32.ofNat round))) = .ok (.next, after) ∧
        invariant (round + 1) after)
    {trap : Trap}
    (stuck : ∀ t, invariant last t →
      body (t.set counter (.word (start + UInt32.ofNat last))) = .error trap) :
    rounds body counter total start t = .error trap := by
  -- On the rounds before the last one; the rest of the loop counts on from the next word.
  induction last generalizing invariant total start t with
  | zero =>
    obtain ⟨total, rfl⟩ := Nat.exists_eq_succ_of_ne_zero (Nat.ne_of_gt within)
    have stopped := stuck t first
    have begins : start + UInt32.ofNat 0 = start := UInt32.add_zero start
    rw [begins] at stopped
    simp only [rounds, stopped, bind, Except.bind]
  | succ last ih =>
    obtain ⟨total, rfl⟩ := Nat.exists_eq_succ_of_ne_zero (Nat.ne_of_gt (Nat.lt_of_le_of_lt
      (Nat.zero_le _) within))
    obtain ⟨middle, ran, next⟩ := kept 0 t (Nat.succ_pos _) first
    have begins : start + UInt32.ofNat 0 = start := UInt32.add_zero start
    rw [begins] at ran
    have rest := ih (fun round => invariant (round + 1)) (Nat.lt_of_succ_lt_succ within) (start + 1)
      next
      (fun round t before holds => by
        rw [← start_succ]
        exact kept (round + 1) t (Nat.succ_lt_succ before) holds)
      (fun t holds => by
        rw [← start_succ]
        exact stuck t holds)
    simp only [rounds, ran, bind, Except.bind]
    exact rest

/-- From every thread that is bare so, the expression is stopped by a trap. -/
def Expr.Stops (c : Context F) (s : Thread F) (e : Expr) (trap : Trap) : Prop :=
  ∀ t : Thread F, t.bare = s → e.eval c t = .error trap

namespace Expr.Stops

variable {c : Context F} {s : Thread F} {trap : Trap}

theorem infoAt {index : Expr} {position : Nat} (place : index.IsWord c s position)
    (small : position < 2 ^ 32) (absent : c.info[position]? = none) :
    (Expr.infoAt index).Stops c s (.outside .info position) := by
  intro t bare
  obtain ⟨reads, value, -⟩ := place t bare
  have number : (UInt32.ofNat position).toNat = position := UInt32.toNat_ofNat_of_lt' small
  simp only [Expr.infoAt, eval, value, Value.position?, number, typed, Thread.load, absent,
    Option.elim_some, bind, Except.bind]

theorem mul {a b : Expr} {value : Value F} {trace : List Access}
    (lhs : a.Evaluates c s value trace) (rhs : b.Stops c s trap) : (a * b).Stops c s trap := by
  intro t bare
  obtain ⟨reads, left, -⟩ := lhs t bare
  show (Expr.binary .mul a b).eval c t = _
  simp only [eval, left, rhs t bare, bind, Except.bind]

end Expr.Stops

namespace Stmt

/-- From every thread that is bare so, the statements are stopped by a trap. -/
def Stuck (c : Context F) (body : List Stmt) (s : Thread F) (trap : Trap) : Prop :=
  ∀ t : Thread F, t.bare = s → runAll c body t = .error trap

namespace Stuck

variable {c : Context F} {body : List Stmt} {s : Thread F} {trap : Trap}

theorem append {front back : List Stmt} {middle : Thread F → Prop}
    (ends : Ends c front .next s middle) (rest : ∀ u, middle u → Stuck c back u trap) :
    Stuck c (front ++ back) s trap := by
  intro t bare
  obtain ⟨between, ran, holds⟩ := ends t bare
  rw [runAll_append, ran]
  exact rest _ holds between rfl

theorem cons {first : Stmt} {u : Thread F} (ends : Ends c [first] .next s (· = u))
    (rest : Stuck c body u trap) : Stuck c (first :: body) s trap :=
  append ends fun _ same => same ▸ rest

theorem first {first : Stmt} (stopped : ∀ t : Thread F, t.bare = s → first.run c t = .error trap) :
    Stuck c (first :: body) s trap := by
  intro t bare
  rw [runAll, stopped t bare]
  rfl

section

variable {name : String} {e : Expr} (stops : e.Stops c s trap)
include stops

theorem bind : Stuck c (.bind name e :: body) s trap :=
  first fun t bare => by
    rw [run, define, stops t bare]
    rfl

theorem addTo : Stuck c (.addTo name e :: body) s trap :=
  first fun t bare => by
    rw [run, update, stops t bare]
    rfl

end

/-- The rounds before the last one keep the invariant, and the last one is stopped. -/
theorem count {layout : Layout} {counter : String} {bound : Expr} {inner : List Stmt} (n : Nat)
    (invariant : Nat → Thread F → Prop) (limit : bound.IsWord c s n) (small : n < 2 ^ 32)
    (initially : invariant 0 s) {last : Nat} (within : last < n)
    (kept : ∀ k < last, ∀ u, invariant k u → Ends.Between counter inner s u →
      Ends c inner .next (u.set counter (.word (UInt32.ofNat k))) (invariant (k + 1)))
    (stuck : ∀ u, invariant last u → Ends.Between counter inner s u →
      Stuck c inner (u.set counter (.word (UInt32.ofNat last))) trap) :
    Stuck c (.count layout counter 0 bound inner :: body) s trap := by
  refine first fun t bare => ?_
  have zero : (0 : Expr).IsWord c s 0 := .word 0
  obtain ⟨entered, same, ran⟩ :=
    Ends.run_count layout counter inner zero limit (by decide) small bare
  rw [ran]
  refine rounds_of_trap _ counter
    (fun k u => invariant k u.bare ∧ Ends.Between counter inner s u.bare) within _ ?_ ?_ ?_
  · rw [same]
    exact ⟨initially, .refl _ _ _⟩
  · intro k u below holds
    exact Ends.round holds.2 (by
      rw [Nat.zero_add]
      exact kept k below u.bare holds.1 holds.2)
  · intro u holds
    rw [← UInt32.ofNat_add, Nat.zero_add]
    exact stuck u.bare holds.1 holds.2 _ (Thread.bare_set u counter _)

end Stuck

end Stmt

namespace Kernel

/-- A thread below the thread count is stopped where its body is. -/
theorem runThread_of_stuck {k : Kernel} {body : List Stmt} {info : List UInt32}
    (threads index : Nat) (program : k.body = .program body)
    (count : info[0]? = some (UInt32.ofNat threads)) (small : threads < 2 ^ 32)
    (below : index < threads) (m : Arithmetic F) {arrays : Arrays F} {trap : Trap}
    (stuck : Stmt.Stuck (k.context m info) body (Thread.fresh arrays index) trap) :
    k.runThread m info arrays (UInt32.ofNat index) = .error trap := by
  have limit := threadLimit_evaluates count small m k arrays (Nat.lt_trans below small)
  rw [decide_eq_false (Nat.not_le.mpr below)] at limit
  have stopped : Stmt.Stuck (k.context m info) (threadLimit :: body) (Thread.fresh arrays index)
      trap := .cons (.whenFalse limit (.nil rfl)) stuck
  have ran := stopped (Thread.fresh arrays index) rfl
  unfold Thread.fresh at ran
  simp only [runThread, program, ran, Bind.bind, Except.bind]

end Kernel

end OperatorGraph.Shader
