import OperatorGraph.Proofs.Shader.Evaluation
import OperatorGraph.Proofs.Shader.Frames

set_option autoImplicit false

namespace OperatorGraph.Shader

variable {F : Type}

namespace Thread

/-- The thread after an element of a tensor was replaced. -/
def write (t : Thread F) (binding index : Nat) (value : Value F) : Thread F :=
  { t with
    arrays := t.arrays.store binding index value
    accesses := t.accesses ++ [.write binding index] }

@[simp] theorem vars_write (t : Thread F) (binding index : Nat) (value : Value F) :
    (t.write binding index value).vars = t.vars := rfl

@[simp] theorem arrays_write (t : Thread F) (binding index : Nat) (value : Value F) :
    (t.write binding index value).arrays = t.arrays.store binding index value := rfl

@[simp] theorem accesses_write (t : Thread F) (binding index : Nat) (value : Value F) :
    (t.write binding index value).accesses = t.accesses ++ [.write binding index] := rfl

theorem store_tensor {t : Thread F} {binding index : Nat} (inside : index < t.arrays.size binding)
    (value : Value F) : t.store (.tensor binding) index value = .ok (t.write binding index value) :=
  if_pos inside

theorem bare_write (t : Thread F) (binding index : Nat) (value : Value F) :
    (t.write binding index value).bare = t.bare.write binding index value := by
  simp only [bare, write, List.filter_append, List.filter_cons, Access.onTensor, if_true,
    List.filter_nil]

end Thread

theorem start_succ (start : UInt32) (round : Nat) :
    start + UInt32.ofNat (round + 1) = start + 1 + UInt32.ofNat round := by
  rw [UInt32.ofNat_add, UInt32.add_comm (UInt32.ofNat round), ← UInt32.add_assoc]
  rfl

/-- Rounds of a loop that fall through keep an invariant, and the round that leaves it ends it. -/
theorem rounds_of_leave (body : Thread F → Except Trap (Flow × Thread F)) (counter : String)
    (invariant : Nat → Thread F → Prop) {last total : Nat} (within : last < total) (start : UInt32)
    {t : Thread F} (first : invariant 0 t)
    (kept : ∀ round t, round < last → invariant round t →
      ∃ after, body (t.set counter (.word (start + UInt32.ofNat round))) = .ok (.next, after) ∧
        invariant (round + 1) after)
    {post : Thread F → Prop}
    (left : ∀ t, invariant last t →
      ∃ after, body (t.set counter (.word (start + UInt32.ofNat last))) = .ok (.leave, after) ∧
        post after) :
    ∃ after, rounds body counter total start t = .ok (.next, after) ∧ post after := by
  induction last generalizing invariant total start t with
  | zero =>
    obtain ⟨total, rfl⟩ := Nat.exists_eq_succ_of_ne_zero (Nat.ne_of_gt within)
    obtain ⟨after, ran, ends⟩ := left t first
    have begins : start + UInt32.ofNat 0 = start := UInt32.add_zero start
    rw [begins] at ran
    refine ⟨after, ?_, ends⟩
    simp only [rounds, ran, bind, Except.bind]
    rfl
  | succ last ih =>
    obtain ⟨total, rfl⟩ := Nat.exists_eq_succ_of_ne_zero (Nat.ne_of_gt (Nat.lt_of_le_of_lt
      (Nat.zero_le _) within))
    obtain ⟨middle, ran, next⟩ := kept 0 t (Nat.succ_pos _) first
    have begins : start + UInt32.ofNat 0 = start := UInt32.add_zero start
    rw [begins] at ran
    obtain ⟨after, rest, ends⟩ := ih (fun round => invariant (round + 1))
      (Nat.lt_of_succ_lt_succ within) (start + 1) next
      (fun round t before holds => by
        rw [← start_succ]
        exact kept (round + 1) t (Nat.succ_lt_succ before) holds)
      (fun t holds => by
        rw [← start_succ]
        exact left t holds)
    refine ⟨after, ?_, ends⟩
    simp only [rounds, ran, bind, Except.bind]
    exact rest

namespace Stmt

/-- From every thread that is bare so, the statements end so, in a thread with this property. -/
def Ends (c : Context F) (body : List Stmt) (flow : Flow) (s : Thread F)
    (post : Thread F → Prop) : Prop :=
  ∀ t : Thread F, t.bare = s → ∃ after, runAll c body t = .ok (flow, after) ∧ post after.bare

namespace Ends

open OperatorGraph.Shader.Expr

variable {c : Context F} {body : List Stmt} {flow : Flow} {s : Thread F} {post : Thread F → Prop}

theorem nil (holds : post s) : Ends c [] .next s post := by
  rintro t rfl
  exact ⟨t, rfl, holds⟩

theorem mono (ends : Ends c body flow s post) {weaker : Thread F → Prop}
    (implies : ∀ u, post u → weaker u) : Ends c body flow s weaker := by
  intro t bare
  obtain ⟨after, ran, holds⟩ := ends t bare
  exact ⟨after, ran, implies _ holds⟩

/-- The end of a program differs from its start in what its text changes. -/
theorem keeps (ends : Ends c body flow s post) :
    Ends c body flow s fun u => post u ∧ s.Keeps (assignedAll body) (storedAll body) u := by
  rintro t rfl
  obtain ⟨after, ran, holds⟩ := ends t rfl
  have kept := runAll_keeps c body t ran
  exact ⟨after, ran, holds, kept.vars, kept.size, kept.cell⟩

theorem append {front back : List Stmt} {middle : Thread F → Prop}
    (first : Ends c front .next s middle)
    (second : ∀ u, middle u → Ends c back flow u post) : Ends c (front ++ back) flow s post := by
  intro t bare
  obtain ⟨between, ran, holds⟩ := first t bare
  obtain ⟨after, rest, ends⟩ := second _ holds between rfl
  refine ⟨after, ?_, ends⟩
  rw [runAll_append, ran]
  exact rest

/-- The first statement falls through, and the others go on from there. -/
theorem cons {first : Stmt} {middle : Thread F → Prop}
    (once : ∀ t : Thread F, t.bare = s →
      ∃ between, first.run c t = .ok (.next, between) ∧ middle between.bare)
    (rest : ∀ u, middle u → Ends c body flow u post) : Ends c (first :: body) flow s post := by
  intro t bare
  obtain ⟨between, ran, holds⟩ := once t bare
  obtain ⟨after, later, ends⟩ := rest _ holds between rfl
  refine ⟨after, ?_, ends⟩
  rw [runAll, ran]
  exact later

theorem step {first : Stmt} {u : Thread F}
    (once : ∀ t : Thread F, t.bare = s →
      ∃ between, first.run c t = .ok (.next, between) ∧ between.bare = u)
    (rest : Ends c body flow u post) : Ends c (first :: body) flow s post := by
  have next : ∀ v, v = u → Ends c body flow v post := by
    rintro _ rfl
    exact rest
  exact cons once next

section

variable {name : String} {e : Expr}

theorem define {value : Value F} {trace : List Access} (found : e.Evaluates c s value trace)
    {t : Thread F} (bare : t.bare = s) : ∃ between,
      Stmt.define c t name e = .ok (.next, between) ∧
        between.bare = (s.after trace).set name value := by
  obtain ⟨reads, ran, rfl⟩ := found t bare
  refine ⟨(t.after reads).set name value, ?_, ?_⟩
  · rw [Stmt.define, ran]
    rfl
  · rw [Thread.bare_set, Thread.bare_after, bare]

section

variable {value : Value F} {trace : List Access} (found : e.Evaluates c s value trace)
  (rest : Ends c body flow ((s.after trace).set name value) post)
include found rest

theorem bind : Ends c (.bind name e :: body) flow s post :=
  step (fun _ bare => define found bare) rest

theorem declare : Ends c (.declare name e :: body) flow s post :=
  step (fun _ bare => define found bare) rest

theorem assign : Ends c (.assign name e :: body) flow s post :=
  step (fun _ bare => define found bare) rest

end

section

variable (n : Nat) (found : e.IsWord c s n)
  (rest : Ends c body flow (s.set name (.word (UInt32.ofNat n))) post)
include found rest

theorem bindWord : Ends c (.bind name e :: body) flow s post := by
  rw [← s.after_nil] at rest
  exact bind found rest

theorem declareWord : Ends c (.declare name e :: body) flow s post := by
  rw [← s.after_nil] at rest
  exact declare found rest

theorem assignWord : Ends c (.assign name e :: body) flow s post := by
  rw [← s.after_nil] at rest
  exact assign found rest

end

theorem update {op : BinaryOp} {old operand value : Value F} {trace : List Access}
    (found : e.Evaluates c s operand trace) (known : s.vars name = some old)
    (applied : op.apply c.arithmetic old operand = some value) {t : Thread F} (bare : t.bare = s) :
    ∃ between, Stmt.update c t op name e = .ok (.next, between) ∧
      between.bare = (s.after trace).set name value := by
  obtain ⟨reads, ran, rfl⟩ := found t bare
  have lookup : t.lookup name = .ok old := by
    rw [← bare, Thread.vars_bare] at known
    rw [Thread.lookup, known]
  refine ⟨(t.after reads).set name value, ?_, ?_⟩
  · simp only [Stmt.update, ran, lookup, applied, typed, Option.elim_some, Bind.bind, Except.bind,
      pure, Except.pure]
  · rw [Thread.bare_set, Thread.bare_after, bare]

/-- A sum of natural numbers goes on. -/
theorem addWord (m n : Nat) (found : e.IsWord c s n)
    (known : s.vars name = some (.word (UInt32.ofNat m)))
    (rest : Ends c body flow (s.set name (.word (UInt32.ofNat (m + n)))) post) :
    Ends c (.addTo name e :: body) flow s post := by
  have sum : BinaryOp.add.apply c.arithmetic (.word (UInt32.ofNat m)) (.word (UInt32.ofNat n)) =
      some (.word (UInt32.ofNat (m + n))) := by
    rw [UInt32.ofNat_add]
    rfl
  rw [← s.after_nil] at rest
  exact step (fun _ bare => update found known sum bare) rest

section

variable {trace : List Access} (found : e.IsReal c s trace)
include found

theorem bindReal (rest : ∀ x, Ends c body flow ((s.after trace).set name (.real x)) post) :
    Ends c (.bind name e :: body) flow s post := by
  obtain ⟨x, found⟩ := found
  exact bind found (rest x)

theorem declareReal (rest : ∀ x, Ends c body flow ((s.after trace).set name (.real x)) post) :
    Ends c (.declare name e :: body) flow s post := by
  obtain ⟨x, found⟩ := found
  exact declare found (rest x)

theorem assignReal (rest : ∀ x, Ends c body flow ((s.after trace).set name (.real x)) post) :
    Ends c (.assign name e :: body) flow s post := by
  obtain ⟨x, found⟩ := found
  exact assign found (rest x)

variable (known : ∃ x, s.vars name = some (.real x))
  (rest : ∀ x, Ends c body flow ((s.after trace).set name (.real x)) post)
include known rest

theorem addReal : Ends c (.addTo name e :: body) flow s post := by
  obtain ⟨x, found⟩ := found
  obtain ⟨old, known⟩ := known
  exact step (fun _ bare => update found known rfl bare) (rest _)

theorem mulReal : Ends c (.mulBy name e :: body) flow s post := by
  obtain ⟨x, found⟩ := found
  obtain ⟨old, known⟩ := known
  exact step (fun _ bare => update found known rfl bare) (rest _)

end

end

/-- An element of a tensor is replaced, at an index that has not wrapped around. -/
theorem store {place e : Expr} {binding n : Nat} {value : Value F} {trace : List Access}
    (index : place.IsWord c s n) (small : n < 2 ^ 32) (inside : n < s.arrays.size binding)
    (found : e.Evaluates c s value trace)
    (rest : Ends c body flow ((s.after trace).write binding n value) post) :
    Ends c (.store (.tensor binding) place e :: body) flow s post := by
  refine step ?_ rest
  rintro t rfl
  obtain ⟨reads, placed, silent⟩ := index t rfl
  obtain ⟨more, ran, rfl⟩ := found t rfl
  refine ⟨(t.after (reads ++ more)).write binding n value, ?_, ?_⟩
  · have position : typed (Value.word (F := F) (UInt32.ofNat n)).position? = .ok n := by
      rw [Value.position?, UInt32.toNat_ofNat_of_lt' small]
      rfl
    have stored := (t.after (reads ++ more)).store_tensor inside value
    simp only [run, placed, ran, position, stored, Bind.bind, Except.bind, pure, Except.pure]
  · rw [Thread.bare_write, Thread.bare_after, List.filter_append, silent, List.nil_append]

/-- A floating point number is stored. -/
theorem storeReal {place e : Expr} {binding n : Nat} {trace : List Access}
    (index : place.IsWord c s n) (small : n < 2 ^ 32) (inside : n < s.arrays.size binding)
    (found : e.IsReal c s trace)
    (rest : ∀ x, Ends c body flow ((s.after trace).write binding n (.real x)) post) :
    Ends c (.store (.tensor binding) place e :: body) flow s post := by
  obtain ⟨x, found⟩ := found
  exact store index small inside found (rest x)

theorem blank (rest : Ends c body flow s post) : Ends c (.blank :: body) flow s post :=
  step (fun t bare => ⟨t, rfl, bare⟩) rest

theorem stop (holds : post s) : Ends c (.stop :: body) .stop s post := by
  rintro t rfl
  exact ⟨t, rfl, holds⟩

theorem leave (holds : post s) : Ends c (.leave :: body) .leave s post := by
  rintro t rfl
  exact ⟨t, rfl, holds⟩

section

variable {condition : Expr} {inner : List Stmt}

theorem whenFalse (fails : condition.Evaluates c s (.flag false) [])
    (rest : Ends c body flow s post) : Ends c (.when condition inner :: body) flow s post := by
  refine step ?_ rest
  intro t bare
  obtain ⟨reads, ran, silent⟩ := fails t bare
  refine ⟨t.after reads, ?_, ?_⟩
  · rw [run, ran]
    rfl
  · rw [Thread.bare_after, silent, Thread.after_nil, bare]

/-- A branch that is taken and does not fall through ends the program it stands in. -/
theorem whenTrue (succeeds : condition.Evaluates c s (.flag true) []) (exits : flow ≠ .next)
    (taken : Ends c inner flow s post) : Ends c (.when condition inner :: body) flow s post := by
  intro t bare
  obtain ⟨reads, ran, silent⟩ := succeeds t bare
  have same : (t.after reads).bare = s := by
    rw [Thread.bare_after, silent, Thread.after_nil, bare]
  obtain ⟨after, branch, ends⟩ := taken _ same
  refine ⟨after, ?_, ends⟩
  have once : (Stmt.when condition inner).run c t = .ok (flow, after) := by
    rw [run, ran]
    exact branch
  rw [runAll, once]
  cases flow with
  | next => exact absurd rfl exits
  | leave | stop => rfl

end

section

variable {layout : Layout} {counter : String} {bound : Expr} {inner : List Stmt}

/-- The threads that a loop can be in between two rounds. -/
def Between (counter : String) (inner : List Stmt) (s u : Thread F) : Prop :=
  s.Keeps (counter :: assignedAll inner) (storedAll inner) u

theorem Between.round {counter : String} {inner : List Stmt} {s u v : Thread F} {value : Value F}
    (between : Between counter inner s u)
    (kept : (u.set counter value).Keeps (assignedAll inner) (storedAll inner) v) :
    Between counter inner s v := by
  have begins : u.Keeps (counter :: assignedAll inner) (storedAll inner) (u.set counter value) :=
    (Thread.Keeps.counter counter value u).mono (by simp) (by simp)
  exact (Thread.Keeps.trans between begins).trans (kept.mono (by simp) (by simp))

/-- A loop over a counter. -/
theorem run_count (layout : Layout) (counter : String) (inner : List Stmt) {first : Expr}
    {start n : Nat} (begins : first.IsWord c s start) (limit : bound.IsWord c s n)
    (early : start < 2 ^ 32) (small : n < 2 ^ 32) {t : Thread F} (bare : t.bare = s) :
    ∃ entered : Thread F, entered.bare = s ∧
      (Stmt.count layout counter first bound inner).run c t =
        rounds (fun inside => runAll c inner inside) counter (n - start) (UInt32.ofNat start)
          entered := by
  obtain ⟨reads, ran, silent⟩ := begins t bare
  obtain ⟨more, ranBound, silentBound⟩ := limit t bare
  refine ⟨t.after (reads ++ more), ?_, ?_⟩
  · rw [Thread.bare_after, List.filter_append, silent, silentBound, List.nil_append,
      Thread.after_nil, bare]
  · simp only [run, ran, ranBound, Bind.bind, Except.bind, UInt32.toNat_ofNat_of_lt' small,
      UInt32.toNat_ofNat_of_lt' early]

/-- One round, seen from the thread that runs it. -/
theorem round {start k : Nat} {t : Thread F} (between : Between counter inner s t.bare)
    {exit : Flow} {ended : Thread F → Prop}
    (ends : Ends c inner exit (t.bare.set counter (.word (UInt32.ofNat (start + k)))) ended) :
    ∃ after, runAll c inner (t.set counter (.word (UInt32.ofNat start + UInt32.ofNat k))) =
        .ok (exit, after) ∧
      ended after.bare ∧ Between counter inner s after.bare := by
  rw [← UInt32.ofNat_add]
  obtain ⟨after, ran, holds, kept⟩ := ends.keeps _ (Thread.bare_set t counter _)
  exact ⟨after, ran, holds, between.round kept⟩

variable (n : Nat) (invariant : Nat → Thread F → Prop)

/-- Every round keeps the invariant, and the rest goes on from the last one. -/
theorem countFrom {first : Expr} (start : Nat) (begins : first.IsWord c s start)
    (limit : bound.IsWord c s n) (early : start < 2 ^ 32) (small : n < 2 ^ 32)
    (initially : invariant 0 s)
    (kept : ∀ k < n - start, ∀ u, invariant k u → Between counter inner s u →
      Ends c inner .next (u.set counter (.word (UInt32.ofNat (start + k)))) (invariant (k + 1)))
    (rest : ∀ u, invariant (n - start) u → Between counter inner s u →
      Ends c body flow u post) :
    Ends c (.count layout counter first bound inner :: body) flow s post := by
  have middle : ∀ u, invariant (n - start) u ∧ Between counter inner s u →
      Ends c body flow u post :=
    fun u holds => rest u holds.1 holds.2
  refine cons ?_ middle
  intro t bare
  obtain ⟨entered, same, ran⟩ := run_count layout counter inner begins limit early small bare
  rw [ran]
  refine rounds_of_invariant _ counter
    (fun k u => invariant k u.bare ∧ Between counter inner s u.bare) (n - start) _ entered ?_ ?_
  · rw [same]
    exact ⟨initially, .refl _ _ _⟩
  · intro k u below holds
    exact round holds.2 (kept k below u.bare holds.1 holds.2)

/-- A loop from zero on. -/
theorem count (limit : bound.IsWord c s n) (small : n < 2 ^ 32) (first : invariant 0 s)
    (kept : ∀ k < n, ∀ u, invariant k u → Between counter inner s u →
      Ends c inner .next (u.set counter (.word (UInt32.ofNat k))) (invariant (k + 1)))
    (rest : ∀ u, invariant n u → Between counter inner s u → Ends c body flow u post) :
    Ends c (.count layout counter 0 bound inner :: body) flow s post := by
  refine countFrom n invariant 0 (.word 0) limit (by decide) small first ?_ rest
  intro k below u holds between
  rw [Nat.zero_add]
  exact kept k below u holds between

section

variable (trace : Nat → List Access) (holds : Thread F → Prop)

/-- Every round makes the accesses of its counter, and keeps what else holds. -/
theorem tallyFrom {first : Expr} (start : Nat) (begins : first.IsWord c s start)
    (limit : bound.IsWord c s n) (early : start < 2 ^ 32) (small : n < 2 ^ 32) (initially : holds s)
    (kept : ∀ k, start ≤ k → k < n → ∀ u, holds u →
      Ends c inner .next (u.set counter (.word (UInt32.ofNat k)))
        fun v => v.accesses = u.accesses ++ trace k ∧ holds v)
    (rest : ∀ u, holds u → u.accesses = s.accesses ++ (List.range' start (n - start)).flatMap trace →
      Ends c body flow u post) :
    Ends c (.count layout counter first bound inner :: body) flow s post := by
  refine countFrom n (fun k u => u.accesses =
    s.accesses ++ (List.range' start k).flatMap trace ∧ holds u) start begins limit early small
    ⟨(List.append_nil _).symm, initially⟩ (fun k below u reached _ => ?_)
    fun u reached _ => rest u reached.2 reached.1
  refine (kept (start + k) (by omega) (by omega) u reached.2).mono fun v ended => ⟨?_, ended.2⟩
  rw [ended.1, reached.1, List.append_assoc, List.range'_concat, List.flatMap_append, Nat.one_mul,
    List.flatMap_singleton]

theorem tally (limit : bound.IsWord c s n) (small : n < 2 ^ 32) (initially : holds s)
    (kept : ∀ k < n, ∀ u, holds u → Ends c inner .next (u.set counter (.word (UInt32.ofNat k)))
      fun v => v.accesses = u.accesses ++ trace k ∧ holds v)
    (rest : ∀ u, holds u → u.accesses = s.accesses ++ (List.range n).flatMap trace →
      Ends c body flow u post) :
    Ends c (.count layout counter 0 bound inner :: body) flow s post := by
  refine tallyFrom n trace holds 0 (.word 0) limit (by decide) small initially
    (fun k _ below => kept k below) fun u ended made => rest u ended ?_
  rw [made, Nat.sub_zero, List.range_eq_range']

end

/-- The rounds before the last one keep the invariant, and the last one leaves the loop. -/
theorem countLeave (limit : bound.IsWord c s n) (small : n < 2 ^ 32) (first : invariant 0 s)
    {last : Nat} (within : last < n)
    (kept : ∀ k < last, ∀ u, invariant k u → Between counter inner s u →
      Ends c inner .next (u.set counter (.word (UInt32.ofNat k))) (invariant (k + 1)))
    {left : Thread F → Prop}
    (leaves : ∀ u, invariant last u → Between counter inner s u →
      Ends c inner .leave (u.set counter (.word (UInt32.ofNat last))) left)
    (rest : ∀ u, left u → Between counter inner s u → Ends c body flow u post) :
    Ends c (.count layout counter 0 bound inner :: body) flow s post := by
  have middle : ∀ u, left u ∧ Between counter inner s u → Ends c body flow u post :=
    fun u holds => rest u holds.1 holds.2
  refine cons ?_ middle
  intro t bare
  have zero : (0 : Expr).IsWord c s 0 := .word 0
  obtain ⟨entered, same, ran⟩ := run_count layout counter inner zero limit (by decide) small bare
  rw [ran]
  refine rounds_of_leave _ counter
    (fun k u => invariant k u.bare ∧ Between counter inner s u.bare) within _ ?_ ?_ ?_
  · rw [same]
    exact ⟨first, .refl _ _ _⟩
  · intro k u below holds
    exact round holds.2 (by
      rw [Nat.zero_add]
      exact kept k below u.bare holds.1 holds.2)
  · intro u holds
    exact round holds.2 (by
      rw [Nat.zero_add]
      exact leaves u.bare holds.1 holds.2)

end

end Ends

end Stmt

end OperatorGraph.Shader
