import Mathlib.Data.List.Perm.Basic
import OperatorGraph.Pool.Session
import OperatorGraph.Proofs.Runner.History

set_option autoImplicit false

namespace OperatorGraph

variable {Key : Type} {operation : Key → Operation}

/-- A pool, with the runners that are checked out of it. -/
structure Session (operation : Key → Operation) where
  pool : Pool operation
  loans : List (Loan Key)

inductive Request (operation : Key → Operation) : Type 1 where
  | checkOut (key : Key) (param : (operation key).Param)
  | setUp (key : Key) (param : (operation key).Param) (pack : Pack)
  | run {State : Type} (registry : Registry State) (stream : State) (key : Key)
      (param : (operation key).Param) (pack : Pack)
  | setUpLoan (index : Nat) (pack : Pack)
  | executeLoan {State : Type} (registry : Registry State) (stream : State) (index : Nat)
      (pack : Pack)
  | checkIn (index : Nat)

namespace Session

variable [DecidableEq Key]

/-- Uses a runner that is out on loan. -/
def useLoan (s : Session operation) (index : Nat) (change : Runner → Runner) : Session operation :=
  match s.loans[index]? with
  | none => s
  | some loan => { s with loans := s.loans.set index { loan with runner := change loan.runner } }

/-- The session after a request, however the request ended. -/
def after (s : Session operation) : Request operation → Session operation
  | .checkOut key param =>
    let out := s.pool.checkOut key param
    ⟨out.state, out.result.toOption.toList ++ s.loans⟩
  | .setUp key param pack =>
    let out := s.pool.setUp key param pack
    ⟨out.state, (out.result.toOption.map Prod.fst).toList ++ s.loans⟩
  | .run registry stream key param pack =>
    { s with pool := (s.pool.run registry stream key param pack).state.1 }
  | .setUpLoan index pack => s.useLoan index fun runner => (runner.setup pack).state
  | .executeLoan registry stream index pack =>
    s.useLoan index fun runner => (runner.execute registry stream pack).state.1
  | .checkIn index => match s.loans[index]? with
    | none => s
    | some loan => ⟨(s.pool.checkIn loan).1, s.loans.eraseIdx index⟩

def afterAll (s : Session operation) (requests : List (Request operation)) : Session operation :=
  requests.foldl after s

/-- The ids of the entries whose runners a request hands out. -/
def grants (s : Session operation) : Request operation → List Nat
  | .checkOut key param | .setUp key param _ | .run _ _ key param _ =>
    (s.pool.checkOut key param).result.toOption.toList.map Loan.id
  | .setUpLoan _ _ | .executeLoan _ _ _ _ | .checkIn _ => []

/-- The ids of all entries whose runners are handed out, in order. -/
def history (s : Session operation) : List (Request operation) → List Nat
  | [] => []
  | request :: rest => s.grants request ++ (s.after request).history rest

/-- What each step keeps of a pool, the loans that are out of it, and the ids that it has handed
out. -/
structure Invariant (holds : Pool operation → List (Loan Key) → List Nat → Prop) : Prop where
  perm : ∀ {p loans others handed}, loans.Perm others → holds p loans handed → holds p others handed
  checkOut : ∀ {p loans handed} (key : Key) (param : (operation key).Param), holds p loans handed →
    holds (p.checkOut key param).state ((p.checkOut key param).result.toOption.toList ++ loans)
      (handed ++ (p.checkOut key param).result.toOption.toList.map Loan.id)
  use : ∀ {p loan loans handed} (runner : Runner),
    runner.graph.blank = loan.runner.graph.blank → runner.config = loan.runner.config →
    holds p (loan :: loans) handed → holds p ({ loan with runner } :: loans) handed
  checkIn : ∀ {p loan loans handed}, holds p (loan :: loans) handed →
    holds (p.checkIn loan).1 loans handed

namespace Invariant

variable {holds : Pool operation → List (Loan Key) → List Nat → Prop} (inv : Invariant holds)
  {p : Pool operation} {loan : Loan Key} {loans : List (Loan Key)} {handed : List Nat}
include inv

theorem setUpLoan (start : holds p (loan :: loans) handed) (pack : Pack) :
    holds (p.setUpLoan loan pack).state
      (((p.setUpLoan loan pack).result.toOption.map Prod.fst).toList ++ loans) handed := by
  obtain ⟨graph, config⟩ := loan.runner.blank_setup pack
  have ready := inv.use (loan.runner.setup pack).state graph config start
  simp only [Pool.setUpLoan]
  cases (loan.runner.setup pack).result with
  | error refusal => exact inv.checkIn ready
  | ok bytes => exact ready

theorem setUp (start : holds p loans handed) (key : Key) (param : (operation key).Param)
    (pack : Pack) : holds (p.setUp key param pack).state
      (((p.setUp key param pack).result.toOption.map Prod.fst).toList ++ loans)
      (handed ++ (p.checkOut key param).result.toOption.toList.map Loan.id) := by
  have out := inv.checkOut key param start
  simp only [Pool.setUp]
  cases result : (p.checkOut key param).result with
  | error refusal =>
    rw [result] at out
    simp only [Outcome.andThen_of_error _ result]
    exact out
  | ok loan =>
    rw [result] at out
    simp only [Outcome.andThen_of_ok _ result]
    exact inv.setUpLoan out pack

theorem runLoan {State : Type} (start : holds p (loan :: loans) handed) (registry : Registry State)
    (stream : State) (pack : Pack) :
    holds (p.runLoan registry stream loan pack).state.1 loans handed := by
  have ran := loan.runner.execute_keeps pack registry stream
  exact inv.checkIn (inv.use (loan.runner.execute registry stream pack).state.1 (by rw [ran])
    (by rw [ran]) start)

theorem useLoan {s : Session operation} (start : holds s.pool s.loans handed) (index : Nat)
    {change : Runner → Runner} (keeps : ∀ r, (change r).graph.blank = r.graph.blank ∧
      (change r).config = r.config) :
    holds (s.useLoan index change).pool (s.useLoan index change).loans handed := by
  unfold Session.useLoan
  split
  · exact start
  · rename_i loan found
    obtain ⟨inside, rfl⟩ := List.getElem?_eq_some_iff.mp found
    obtain ⟨graph, config⟩ := keeps s.loans[index].runner
    have taken := inv.perm (List.getElem_cons_eraseIdx_perm inside).symm start
    exact inv.perm (List.set_perm_cons_eraseIdx inside _).symm (inv.use _ graph config taken)

/-- A request keeps what each of its steps keeps. -/
theorem after {s : Session operation} (start : holds s.pool s.loans handed)
    (request : Request operation) :
    holds (s.after request).pool (s.after request).loans (handed ++ s.grants request) := by
  cases request with
  | checkOut key param => exact inv.checkOut key param start
  | setUp key param pack => exact inv.setUp start key param pack
  | run registry stream key param pack =>
    have out := inv.setUp start key param pack
    simp only [Session.after, Pool.run, grants]
    cases result : (s.pool.setUp key param pack).result with
    | error refusal =>
      rw [result] at out
      simp only [Outcome.andThen, Outcome.within, result]
      exact out
    | ok ready =>
      rw [result] at out
      simp only [Outcome.andThen, Outcome.within, result]
      exact inv.runLoan out registry stream pack
  | setUpLoan index pack =>
    rw [grants, List.append_nil]
    exact inv.useLoan start index fun r => r.blank_setup pack
  | executeLoan registry stream index pack =>
    rw [grants, List.append_nil]
    refine inv.useLoan start index fun r => ?_
    rw [r.execute_keeps pack registry stream]
    exact ⟨rfl, rfl⟩
  | checkIn index =>
    rw [grants, List.append_nil]
    simp only [Session.after]
    split
    · exact start
    · rename_i loan found
      obtain ⟨inside, rfl⟩ := List.getElem?_eq_some_iff.mp found
      exact inv.checkIn (inv.perm (List.getElem_cons_eraseIdx_perm inside).symm start)

/-- Any requests, in any order, keep what each of their steps keeps. -/
theorem afterAll (handed : List Nat) {s : Session operation} (start : holds s.pool s.loans handed)
    (requests : List (Request operation)) :
    holds (s.afterAll requests).pool (s.afterAll requests).loans
      (handed ++ s.history requests) := by
  induction requests generalizing s handed with
  | nil =>
    rw [history, List.append_nil]
    exact start
  | cons request rest ih =>
    have later := ih _ (inv.after start request)
    rwa [List.append_assoc] at later

end Invariant

end Session

end OperatorGraph
