import Mathlib.Data.List.Induction
import OperatorGraph.Proofs.Runner.Calls
import OperatorGraph.Proofs.Runner.History

set_option autoImplicit false

namespace OperatorGraph

def Call.isExecution : Call → Bool
  | .execute .. => true
  | .setUp _ | .update _ => false

namespace Runner

/-- The most recent setup in a list of calls was given this pack and succeeded, and only executions
came after it. -/
def StandsOn (r : Runner) (calls : List Call) (pack : Pack) (bytes : Nat) : Prop :=
  ∃ before after, calls = before ++ .setUp pack :: after ∧ (∀ call ∈ after, call.isExecution) ∧
    ((r.afterAll before).setup pack).result = .ok bytes

/-- What a successful setup leaves to the executions that follow it. -/
structure SetUpFor (r : Runner) (pack : Pack) (bytes : Nat) : Prop where
  planned : r.state.isPlanned
  complete : r.Complete
  bound : ∀ side, (pack.tensors side).length = (r.graph.slots side).length ∧
    ∀ (index : Nat) (tensor : Tensor), (pack.tensors side)[index]? = some tensor →
      r.graph.desc? (side.tensorId index) = some tensor.desc
  total : r.plan.totalBytes = bytes

theorem afterAll_append (r : Runner) (first second : List Call) :
    r.afterAll (first ++ second) = (r.afterAll first).afterAll second :=
  List.foldl_append

theorem setUpFor_setup {r : Runner} (formed : r.graph.topology.WellFormed) {pack : Pack}
    {bytes : Nat} (success : (r.setup pack).result = .ok bytes) :
    (r.setup pack).state.SetUpFor pack bytes := by
  obtain ⟨sizes, -, -, state, -, total⟩ := planned_setup success
  exact ⟨by rw [state]; rfl, complete_setup formed success, bound_setup success formed, total.symm⟩

theorem isPlanned_execute (r : Runner) (pack : Pack) {State : Type} (registry : Registry State)
    (stream : State) :
    (r.execute registry stream pack).state.1.state.isPlanned = r.state.isPlanned := by
  rw [runner_execute]
  cases ran : (r.execute registry stream pack).result with
  | error refusal => rfl
  | ok _ =>
    cases planned : r.state.isPlanned with
    | true => rfl
    | false =>
      -- Without a plan the call is refused.
      simp [execute, callMemory_of_unplanned planned, Outcome.failed] at ran

theorem SetUpFor.after {r : Runner} {pack : Pack} {bytes : Nat} (ready : r.SetUpFor pack bytes)
    {call : Call} (execution : call.isExecution) : (r.after call).SetUpFor pack bytes := by
  cases call with
  | setUp _ | update _ => simp [Call.isExecution] at execution
  | execute registry stream other =>
    have planned := r.isPlanned_execute other registry stream
    have kept := r.execute_keeps other registry stream
    simp only [Runner.after]
    generalize (r.execute registry stream other).state.1 = next at planned kept
    rw [kept]
    exact ⟨planned.trans ready.planned, ⟨ready.complete.formed, ready.complete.bound,
      ready.complete.reads, ready.complete.planned⟩, ready.bound, ready.total⟩

theorem SetUpFor.afterAll {pack : Pack} {bytes : Nat} {calls : List Call}
    (executions : ∀ call ∈ calls, call.isExecution) {r : Runner} (ready : r.SetUpFor pack bytes) :
    (r.afterAll calls).SetUpFor pack bytes := by
  induction calls generalizing r with
  | nil => exact ready
  | cons call rest ih =>
    exact ih (fun later member => executions later (by simp [member]))
      (ready.after (executions call (by simp)))

/-- Where a setup stands, the runner is as that setup left it. -/
theorem setUpFor_of_standsOn {r : Runner} (formed : r.graph.topology.WellFormed)
    {calls : List Call} {pack : Pack} {bytes : Nat} (stands : r.StandsOn calls pack bytes) :
    (r.afterAll calls).SetUpFor pack bytes := by
  obtain ⟨before, after, rfl, executions, success⟩ := stands
  obtain ⟨topology, -⟩ := r.topology_afterAll before
  rw [afterAll_append]
  exact (setUpFor_setup (topology ▸ formed) success).afterAll executions

/-- A runner is planned only where a setup stands. -/
theorem standsOn_of_planned {r : Runner} (fresh : r.state.isPlanned = false) {calls : List Call}
    (planned : (r.afterAll calls).state.isPlanned) :
    ∃ pack bytes, r.StandsOn calls pack bytes := by
  induction calls using List.reverseRecOn with
  | nil =>
    rw [afterAll, List.foldl_nil, fresh] at planned
    simp at planned
  | append_singleton calls call ih =>
    rw [afterAll_append] at planned
    cases call with
    | setUp pack =>
      cases result : ((r.afterAll calls).setup pack).result with
      | error refusal =>
        have unplanned := not_planned_of_failed result
        simp only [afterAll, List.foldl_cons, List.foldl_nil, after] at planned unplanned
        simp [unplanned] at planned
      | ok bytes => exact ⟨pack, bytes, calls, [], rfl, by simp, result⟩
    | update edits => simp [afterAll, after, update, reset, RunnerState.isPlanned] at planned
    | execute registry stream other =>
      have same := (r.afterAll calls).isPlanned_execute other registry stream
      obtain ⟨pack, bytes, before, executions, rfl, only, success⟩ := ih (same ▸ planned)
      refine ⟨pack, bytes, before, executions ++ [.execute registry stream other], ?_, ?_, success⟩
      · simp
      · intro call member
        rcases List.mem_append.mp member with earlier | last
        · exact only call earlier
        · rw [List.mem_singleton.mp last]
          rfl

end Runner

end OperatorGraph
