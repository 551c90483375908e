import OperatorGraph.Proofs.Pool.Faithful
import OperatorGraph.Proofs.Pool.Shelves

set_option autoImplicit false

namespace OperatorGraph

namespace Graph

theorem Like.refl (g : Graph) : g.Like g :=
  ⟨rfl, rfl⟩

end Graph

namespace Operation

variable {op : Operation}

/-- The runner was built for the parameter under a configuration, or updated for it since. -/
def Fits (op : Operation) (config : Config) (r : Runner) (p : op.Param) : Prop :=
  op.Serves r.graph p ∧ r.config = config

theorem Serves.of_blank {g h : Graph} {p : op.Param} (same : h.blank = g.blank)
    (serves : op.Serves g p) : op.Serves h p := by
  obtain ⟨built, build, alike⟩ := serves
  exact ⟨built, build, (Graph.like_of_blank same).trans alike⟩

theorem Faithful.maintains (faithful : op.Faithful) (config : Config) :
    op.Maintains config (op.Fits config) where
  created := by
    intro p built runner build created
    obtain ⟨rfl, -⟩ := Runner.new_ok created
    exact ⟨⟨built, build, .refl built⟩, rfl⟩
  patched := by
    rintro r p q patch topology ⟨serves, sameConfig⟩ patched
    have cleared : op.Serves r.reset.graph p := serves.of_blank r.graph.blank_clear
    obtain ⟨patch', patched', served⟩ := faithful.patches r.reset.graph p q topology cleared
    obtain rfl : patch = patch' := congrArg Prod.fst (patched.symm.trans patched')
    exact ⟨served, sameConfig⟩
  used := by
    rintro r s p graph config ⟨serves, sameConfig⟩
    exact ⟨serves.of_blank graph, config.trans sameConfig⟩

/-- What a faithful operation builds is accepted by any runner of a valid configuration. -/
theorem Faithful.new_ok (faithful : op.Faithful) {config : Config}
    (valid : config.validate = .ok ()) (p : op.Param) :
    ∃ built, op.build p = .ok built ∧ built.topology.FoldsZeros ∧
      Runner.new built config = .ok ⟨built, config, .unbound, .empty⟩ := by
  obtain ⟨built, build, formed, -, folds⟩ := faithful.builds p
  refine ⟨built, build, folds, ?_⟩
  simp only [Runner.new, valid, formed, Except.mapError]
  rfl

end Operation

namespace Pool

variable {Key : Type} [DecidableEq Key] {operation : Key → Operation} {key : Key}

section

variable (faithful : (operation key).Faithful) {p : Pool operation} {loans : List (Loan Key)}
  (kept : p.Kept key ((operation key).Fits p.config) loans)
include faithful kept

theorem fits_checkOut {param : (operation key).Param} {loan : Loan Key}
    (success : (p.checkOut key param).result = .ok loan) :
    (operation key).Fits p.config loan.runner param := by
  have maintains := faithful.maintains p.config
  cases p.checkOut_spec key param with
  | refused result => simp [result] at success
  | unbuilt result => simp [result] at success
  | lost result => simp [result] at success
  | @hit entry runner result found idle equal =>
    obtain rfl := Except.ok.inj (result.symm.trans success)
    obtain ⟨⟨serves, config⟩, -⟩ :=
      Shelved.idle kept entry (find?_spec found).1 runner idle
    exact ⟨faithful.keeps _ _ _ equal serves, config⟩
  | @updated entry runner patch result found idle patched =>
    obtain rfl := Except.ok.inj (result.symm.trans success)
    obtain ⟨present, topology⟩ := find?_spec found
    exact maintains.patched topology (Shelved.idle kept entry present runner idle).1 patched
  | built keep result build created =>
    obtain rfl := Except.ok.inj (result.symm.trans success)
    exact maintains.created build created

/-- No update of a faithful operation fails. -/
theorem checkOut_ne_update (valid : p.config.validate = .ok ()) (param : (operation key).Param)
    (name node : String) (reason : PatchFailure) :
    (p.checkOut key param).result ≠ .error (.pool (.update name node reason)) := by
  intro failed
  cases p.checkOut_spec key param with
  | @refused refusal result noUpdate =>
    have update : refusal = .update name node reason := by simpa [result] using failed
    exact noUpdate name node reason update
  | unbuilt result cause =>
    obtain ⟨built, build, -, created⟩ := faithful.new_ok valid param
    rcases cause with unbuilt | ⟨other, build', refused⟩
    · simp [build] at unbuilt
    · obtain rfl : built = other := Except.ok.inj (build.symm.trans build')
      simp [created] at refused
  | @lost entry runner patch refusal result found idle lost =>
    obtain ⟨present, topology⟩ := find?_spec found
    have serves := (Shelved.idle kept entry present runner idle).1.1
    obtain ⟨patch', patched, -⟩ := faithful.patches runner.reset.graph entry.param param topology
      (serves.of_blank runner.graph.blank_clear)
    simp [patched] at lost
  | hit result => simp [result] at failed
  | updated result => simp [result] at failed
  | built _ result => simp [result] at failed

end

/-- Whatever requests a pool has served, what it hands out for a parameter of an operation of the
library is as good as built for it: the graph is the one that is built from the parameter, up to
the sign of zeros, and no packs tell its runner from a new one. No update fails. -/
theorem reused_as_built {b : Builtin} (known : operation key = b.operation) {config : Config}
    {registered : List Key} {pool : Pool operation}
    (created : Pool.new operation config registered = .ok pool)
    (requests : List (Request operation)) (param : (operation key).Param) :
    let reached := ((⟨pool, []⟩ : Session operation).afterAll requests).pool
    (∀ name node reason,
      (reached.checkOut key param).result ≠ .error (.pool (.update name node reason))) ∧
    ∀ loan, (reached.checkOut key param).result = .ok loan →
      ∃ built fresh, (operation key).build param = .ok built ∧
        Runner.new built config = .ok fresh ∧ loan.runner.graph.Like built ∧
        loan.runner.Indistinguishable fresh := by
  intro reached
  have faithful : (operation key).Faithful := known ▸ b.faithful
  obtain ⟨valid, start, ofConfig⟩ : config.validate = .ok () ∧
      pool.Kept key ((operation key).Fits config) [] ∧ pool.config = config := by
    simp only [Pool.new, Answer.bind_eq_ok, Answer.mapError_eq_ok, Answer.pure_eq_ok] at created
    obtain ⟨_, valid, rfl⟩ := created
    exact ⟨valid, Shelved.empty, rfl⟩
  subst ofConfig
  let opened : Session operation := ⟨pool, []⟩
  have maintains :
      (operation key).Maintains opened.pool.config ((operation key).Fits pool.config) :=
    faithful.maintains pool.config
  obtain ⟨kept, config⟩ := Session.kept_afterAll maintains start requests
  rw [← config] at kept
  refine ⟨checkOut_ne_update faithful kept (config ▸ valid) param, fun loan success => ?_⟩
  obtain ⟨⟨built, build, alike⟩, sameConfig⟩ := fits_checkOut faithful kept success
  obtain ⟨built', build', folds, accepted⟩ := faithful.new_ok valid param
  obtain rfl : built = built' := Except.ok.inj (build.symm.trans build')
  exact ⟨built, _, build, accepted, alike,
    Runner.indistinguishable_of_like alike (sameConfig.trans config) folds⟩

/-- A runner for a normalized addition is checked out, set up and checked in. -/
def additionServed : List (Request Builtin.operation) :=
  let tensor : Tensor := ⟨.rowMajor .f32 ⟨[2, 4]⟩, .external 4096⟩
  let row : Tensor := ⟨.rowMajor .f32 ⟨[4]⟩, .external 8192⟩
  [.checkOut .addNorm (⟨⟨0⟩, 1⟩ : AddNorm),
    .setUpLoan 0 ⟨[tensor, tensor, row, row], [tensor], none⟩, .checkIn 0]

def additions : Pool Builtin.operation :=
  ⟨.default, [.addNorm], fun _ => [], 0, 0, ⟨0, 0, 0, 0⟩⟩

/-- It is handed out again for an addition with another epsilon. -/
theorem addition_reused :
    let reached := ((⟨additions, []⟩ : Session Builtin.operation).afterAll additionServed).pool
    ∃ loan, (reached.checkOut .addNorm (⟨⟨1⟩, 1⟩ : AddNorm)).result = .ok loan ∧
      ∃ built fresh, AddNorm.operation.build (⟨⟨1⟩, 1⟩ : AddNorm) = .ok built ∧
        Runner.new built .default = .ok fresh ∧ loan.runner.graph.Like built ∧
        loan.runner.Indistinguishable fresh := by
  intro reached
  have answered :
      (reached.checkOut .addNorm (⟨⟨1⟩, 1⟩ : AddNorm)).result.toOption.isSome = true := by
    decide +kernel
  cases success : (reached.checkOut .addNorm (⟨⟨1⟩, 1⟩ : AddNorm)).result with
  | error refusal => simp [success, Except.toOption] at answered
  | ok loan =>
    have created : Pool.new Builtin.operation .default [.addNorm] = .ok additions := rfl
    have known : Builtin.operation .addNorm = Builtin.addNorm.operation := rfl
    obtain ⟨-, asBuilt⟩ := reused_as_built known created additionServed (⟨⟨1⟩, 1⟩ : AddNorm)
    exact ⟨loan, rfl, asBuilt loan success⟩

end Pool

end OperatorGraph
