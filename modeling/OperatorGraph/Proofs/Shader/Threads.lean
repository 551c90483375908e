import OperatorGraph.Proofs.Shader.Triples
import OperatorGraph.Shader.Grid

set_option autoImplicit false

namespace OperatorGraph.Shader

variable {F : Type}

/-- A thread that knows nothing but its number. -/
def Thread.fresh (arrays : Arrays F) (index : Nat) : Thread F :=
  (⟨fun _ => none, arrays, []⟩ : Thread F).set "index" (.word (UInt32.ofNat index))

@[simp] theorem Thread.arrays_fresh (arrays : Arrays F) (index : Nat) :
    (Thread.fresh arrays index).arrays = arrays := rfl

@[simp] theorem Thread.accesses_fresh (arrays : Arrays F) (index : Nat) :
    (Thread.fresh arrays index).accesses = [] := rfl

@[simp] theorem Thread.vars_fresh (arrays : Arrays F) (index : Nat) :
    (Thread.fresh arrays index).vars "index" = some (.word (UInt32.ofNat index)) := rfl

theorem Arrays.ext_of {a b : Arrays F} (size : a.size = b.size) (cell : a.cell = b.cell) :
    a = b := by
  cases a
  cases b
  simp_all

theorem Thread.Keeps.arrays_eq {names : List String} {s u : Thread F}
    (kept : s.Keeps names [] u) : u.arrays = s.arrays :=
  Arrays.ext_of kept.size (funext fun binding => kept.cell binding (List.not_mem_nil))

namespace Kernel

section

variable {k : Kernel} {body : List Stmt} {info : List UInt32} {threads index : Nat}
  (program : k.body = .program body) (count : info[0]? = some (UInt32.ofNat threads))
  (small : threads < 2 ^ 32) (m : Arithmetic F) {arrays : Arrays F}
include program count small

omit count small in
theorem runThread_of_ends {flow : Flow} {post : Thread F → Prop}
    (ends : Stmt.Ends (k.context m info) (threadLimit :: body) flow (Thread.fresh arrays index)
      post) :
    ∃ t, k.runThread m info arrays (UInt32.ofNat index) = .ok t ∧ post t.bare := by
  obtain ⟨t, ran, holds⟩ := ends (Thread.fresh arrays index) rfl
  refine ⟨t, ?_, holds⟩
  unfold Thread.fresh at ran
  simp only [runThread, program, ran, Bind.bind, Except.bind, pure, Except.pure]

omit program in
theorem threadLimit_evaluates (k : Kernel) (arrays : Arrays F) (first : index < 2 ^ 32) :
    (Expr.binary .atLeast .thread (.info 0)).Evaluates (k.context m info)
      (Thread.fresh arrays index) (.flag (threads ≤ index)) [] :=
  Expr.IsWord.atLeast (.var (Thread.vars_fresh arrays index)) (.info count) first small

theorem runThread_below (below : index < threads) {flow : Flow} {post : Thread F → Prop}
    (ends : Stmt.Ends (k.context m info) body flow (Thread.fresh arrays index) post) :
    ∃ t, k.runThread m info arrays (UInt32.ofNat index) = .ok t ∧ post t.bare := by
  refine runThread_of_ends program m (Stmt.Ends.whenFalse ?_ ends)
  have limit := threadLimit_evaluates count small m k arrays (Nat.lt_trans below small)
  rwa [decide_eq_false (Nat.not_le.mpr below)] at limit

theorem runThread_past (past : threads ≤ index) (first : index < 2 ^ 32) :
    ∃ t, k.runThread m info arrays (UInt32.ofNat index) = .ok t ∧ t.arrays = arrays := by
  have limit := threadLimit_evaluates count small m k arrays first
  rw [decide_eq_true past] at limit
  have ends : Stmt.Ends (k.context m info) (threadLimit :: body) .stop (Thread.fresh arrays index)
      fun u => u.arrays = arrays := .whenTrue limit (by decide) (.stop rfl)
  exact runThread_of_ends program m ends

end

/-- A grid of one row while the device allows it, of full rows past that. -/
theorem workgroups_cases (threads : Nat) :
    (threads + 255) / 256 ≤ 65535 ∧ workgroups threads = ((threads + 255) / 256, 1) ∨
      65535 < (threads + 255) / 256 ∧
        workgroups threads = (65535, ((threads + 255) / 256 + 65534) / 65535) := by
  by_cases few : (threads + 255) / 256 ≤ 65535
  · exact .inl ⟨few, if_pos few⟩
  · exact .inr ⟨Nat.not_le.mp few, if_neg few⟩

theorem threadAt_eq (groups : Nat × Nat) (x y : Nat) :
    threadAt groups x y = UInt32.ofNat (groups.1 * blockSize * y + x) := by
  rw [threadAt, ← UInt32.ofNat_mul, ← UInt32.ofNat_mul, ← UInt32.ofNat_add, Nat.mul_comm y,
    Nat.mul_right_comm, Nat.add_comm]

theorem flatMap_rows (row rows : Nat) :
    (List.range rows).flatMap (fun y => (List.range row).map (row * y + ·)) =
      List.range (row * rows) := by
  induction rows with
  | zero => rfl
  | succ rows ih =>
    rw [List.range_succ, List.flatMap_append, ih, List.flatMap_singleton, Nat.mul_succ,
      List.range_add]

/-- The invocations of a grid count upwards in words, row by row. -/
theorem invocations_eq (groups : Nat × Nat) :
    invocations groups =
      (List.range (groups.1 * blockSize * groups.2)).map UInt32.ofNat := by
  rw [← flatMap_rows, List.map_flatMap, invocations]
  simp only [threadAt_eq, List.map_map, Function.comp_def]

theorem le_invocations (threads : Nat) :
    threads ≤ (workgroups threads).1 * blockSize * (workgroups threads).2 := by
  simp only [blockSize]
  obtain ⟨few, grid⟩ | ⟨many, grid⟩ := workgroups_cases threads <;> simp only [grid] <;> omega

theorem mem_invocations {threads index : Nat} (below : index < threads) :
    UInt32.ofNat index ∈ invocations (workgroups threads) := by
  rw [invocations_eq]
  exact List.mem_map_of_mem
    (List.mem_range.mpr (Nat.lt_of_lt_of_le below (le_invocations threads)))

end Kernel

end OperatorGraph.Shader
