import OperatorGraph.Proofs.Pool.Decisions
import OperatorGraph.Proofs.Pool.Reuse

set_option autoImplicit false

namespace OperatorGraph

variable {Key : Type} {operation : Key → Operation}

/-- The runner after it was set up and, if that went well, executed. -/
def Runner.afterRun {State : Type} (r : Runner) (registry : Registry State) (stream : State)
    (pack : Pack) : Runner :=
  let ready := r.setup pack
  match ready.result with
  | .error _ => ready.state
  | .ok _ => (ready.state.execute registry stream pack).state.1

/-- The entries whose runners are out on loan. -/
def PoolEntry.vacant {Param : Type} (entries : List (PoolEntry Param)) : List (PoolEntry Param) :=
  entries.filter (·.runner.isNone)

namespace Pool

/-- An entry with its runner out on loan, among the entries of a key that stay as they are. It is
the first of the parameter's topology. -/
structure Lends (p next : Pool operation) (key : Key) (param : (operation key).Param)
    (loan : Loan Key) (before after : List (PoolEntry (operation key).Param))
    (entry : PoolEntry (operation key).Param) : Prop where
  known : key ∈ next.registered
  ofKey : loan.key = key
  ofEntry : entry.id = loan.id
  here : next.shelf key = before ++ entry :: after
  out : entry.runner = none
  apart : ∀ other ∈ before ++ after, ¬ other.id = entry.id
  elsewhere : ∀ other, key ≠ other → next.shelf other = p.shelf other
  others : PoolEntry.vacant (p.shelf key) = PoolEntry.vacant (before ++ after)
  first : ∀ other ∈ before, ¬ (operation key).sameTopology other.param param
  held : entry.param = param ∨
    (operation key).equals entry.param param ∧ (operation key).sameTopology entry.param param

/-- The entry that is found for a parameter, and what stands before it and behind. -/
theorem split_of_found {p : Pool operation} {key : Key} {param : (operation key).Param}
    {entry : PoolEntry (operation key).Param} (found : p.find? key param = some entry) :
    ∃ before after, p.shelf key = before ++ entry :: after ∧
      ∀ other ∈ before, ¬ (operation key).sameTopology other.param param := by
  obtain ⟨-, before, after, shelf, others⟩ := List.find?_eq_some_iff_append.mp found
  exact ⟨before, after, shelf, fun other member => by simpa using others other member⟩

theorem vacant_of_idle {Param : Type} {before after : List (PoolEntry Param)}
    {entry : PoolEntry Param} (idle : entry.runner.isSome) :
    PoolEntry.vacant (before ++ entry :: after) = PoolEntry.vacant (before ++ after) := by
  have here : entry.runner.isNone = false := by simpa using idle
  simp only [PoolEntry.vacant, List.filter_append, List.filter_cons, here, Bool.false_eq_true,
    if_false]

variable [DecidableEq Key]

section

variable {p : Pool operation} {key : Key} {param : (operation key).Param} {loan : Loan Key}
  {loans : List (Loan Key)} {handed : List Nat}

/-- A check-out that succeeds lends the runner of one entry. -/
theorem Consistent.lends (consistent : p.Consistent loans handed)
    (success : (p.checkOut key param).result = .ok loan) : ∃ before after entry,
      p.Lends (p.checkOut key param).state key param loan before after entry := by
  have registered := (p.config_checkOut key param).2
  cases p.checkOut_answers key param with
  | unregistered _ _ result | busy _ _ _ _ result | lost _ _ _ _ _ _ result
  | exhausted _ _ _ _ _ result | unbuilt _ _ _ _ _ result => simp [result] at success
  | @reused entry runner known found idle equal state result =>
    obtain rfl := Except.ok.inj (result.symm.trans success)
    obtain ⟨before, after, shelf, first⟩ := split_of_found found
    have ids := consistent.elsewhere shelf
    have next := state ▸ consistent.reshelved_lend shelf entry.param (p.clock + 1)
      { p.stats with hits := p.stats.hits + 1 }
    refine ⟨before, after, entry.lend entry.param (p.clock + 1), registered ▸ known, rfl, rfl,
      next.here, rfl, ids, next.elsewhere, ?_, first,
      .inr ⟨equal, (find?_spec found).2⟩⟩
    rw [shelf, vacant_of_idle (by rw [idle]; rfl)]
  | @patched entry runner patch known found idle changed update state result =>
    obtain rfl := Except.ok.inj (result.symm.trans success)
    obtain ⟨before, after, shelf, first⟩ := split_of_found found
    have ids := consistent.elsewhere shelf
    have next := state ▸ consistent.reshelved_lend shelf param (p.clock + 1)
      { p.stats with hits := p.stats.hits + 1, updates := p.stats.updates + 1 }
    refine ⟨before, after, entry.lend param (p.clock + 1), registered ▸ known, rfl, rfl,
      next.here, rfl, ids, next.elsewhere, ?_, first, .inl rfl⟩
    rw [shelf, vacant_of_idle (by rw [idle]; rfl)]
  | @built victim graph runner known missing room build created state result =>
    obtain rfl := Except.ok.inj (result.symm.trans success)
    have absent : ∀ entry ∈ p.shelf key, ¬ (operation key).sameTopology entry.param param :=
      fun entry present => by simpa using List.find?_eq_none.mp missing entry present
    have fresh : ∀ entry ∈ p.shelf key, ¬ entry.id = p.nextId := fun entry present =>
      Nat.ne_of_lt (consistent.tabled.issued _ (mem_places known present))
    cases room with
    | free room =>
      have next := state ▸ Consistent.reshelved_shelve p param runner
      refine ⟨p.shelf key, [], ⟨p.nextId, param, none, p.clock + 1⟩, registered ▸ known, rfl, rfl,
        next.here, rfl, ?_, next.elsewhere, ?_, absent, .inl rfl⟩
      · rw [List.append_nil]
        exact fresh
      · rw [List.append_nil]
    | @replacing victim full present idle lowest =>
      obtain ⟨before, after, shelf⟩ := List.append_of_mem present
      have cleared := consistent.reshelved_evict shelf
      have filled := Consistent.reshelved_shelve (p.evict key victim.id) param runner
      rw [cleared.here] at filled
      have within : ∀ entry ∈ before ++ after, entry ∈ p.shelf key := by
        intro entry member
        rw [shelf]
        exact (List.sublist_cons_self victim after).append_left before |>.subset member
      refine ⟨before ++ after, [], ⟨p.nextId, param, none, p.clock + 1⟩, registered ▸ known, rfl,
        rfl, state ▸ filled.here, rfl, ?_, fun other different => ?_, ?_,
        fun entry member => absent entry (within entry member), .inl rfl⟩
      · rw [List.append_nil]
        exact fun entry member => fresh entry (within entry member)
      · rw [state]
        exact (filled.elsewhere other different).trans (cleared.elsewhere other different)
      · rw [shelf, vacant_of_idle idle, List.append_nil]

end

/-- What has become of a runner that was checked out for a parameter: it is back in its entry, after
some use. The next check-out for the parameter is a plain hit, if the parameter is equal to itself
and has its own topology. -/
structure Returns (back : Pool operation) (key : Key) (param : (operation key).Param) (id : Nat)
    (used : Runner) : Prop where
  idle : ∃ entry ∈ back.shelf key, entry.id = id ∧ entry.runner = some used
  again : (operation key).equals param param → (operation key).sameTopology param param →
    (back.checkOut key param).result = .ok ⟨key, id, used⟩ ∧
      (back.checkOut key param).state.stats =
        { back.stats with hits := back.stats.hits + 1 }

/-- The same entries have their runners out on loan. -/
def SameVacancies (p q : Pool operation) : Prop :=
  ∀ key, PoolEntry.vacant (p.shelf key) = PoolEntry.vacant (q.shelf key)

namespace Lends

variable {p next : Pool operation} {key : Key} {param : (operation key).Param} {loan : Loan Key}
  {before after : List (PoolEntry (operation key).Param)}
  {entry : PoolEntry (operation key).Param}
  (lends : p.Lends next key param loan before after entry) (used : Runner)
include lends

theorem reshelved : next.Reshelved (next.checkIn { loan with runner := used }).1 key
    (before ++ entry.giveBack used :: after) next.stats := by
  have listed : (next.shelf loan.key).any (·.id = loan.id) := by
    rw [lends.ofKey, lends.here]
    simp [lends.ofEntry]
  have returned : (next.checkIn { loan with runner := used }).1 =
      next.modifyEntry key entry.id (PoolEntry.giveBack used) := by
    rw [checkIn, if_pos listed, lends.ofKey, lends.ofEntry]
    rfl
  rw [returned]
  refine ⟨?_, fun other different => next.shelf_modifyShelf_of_ne different _, rfl⟩
  rw [modifyEntry, shelf_modifyShelf_self, lends.here]
  exact map_middle (fun other : PoolEntry (operation key).Param => other.id = entry.id) rfl
    lends.apart (PoolEntry.giveBack used)

theorem sameVacancies : p.SameVacancies (next.checkIn { loan with runner := used }).1 := by
  intro other
  have back := lends.reshelved used
  by_cases here : key = other
  · subst here
    rw [back.here, vacant_of_idle rfl, lends.others]
  · rw [back.elsewhere other here, lends.elsewhere other here]

theorem returns : (next.checkIn { loan with runner := used }).1.Returns key param loan.id used := by
  have back := lends.reshelved used
  have known := lends.known
  rw [← (next.config_checkIn { loan with runner := used }).2] at known
  generalize (next.checkIn { loan with runner := used }).1 = returned at back known
  refine ⟨⟨entry.giveBack used, ?_, lends.ofEntry, rfl⟩, fun equal topology => ?_⟩
  · rw [back.here]
    simp
  · have fits : (operation key).equals entry.param param ∧
        (operation key).sameTopology entry.param param := by
      rcases lends.held with same | both
      · rw [same]
        exact ⟨equal, topology⟩
      · exact both
    have found : returned.find? key param = some (entry.giveBack used) := by
      rw [find?, back.here, List.find?_eq_some_iff_append]
      exact ⟨fits.2, before, after, rfl, by simpa using lends.first⟩
    -- Nothing in front of it has the topology, so no other entry can be found.
    have only {other : PoolEntry (operation key).Param}
        (also : returned.find? key param = some other) : other = entry.giveBack used :=
      Option.some.inj (also.symm.trans found)
    cases returned.checkOut_answers key param with
    | unregistered unknown => exact absurd known unknown
    | busy _ also lent =>
      rw [only also] at lent
      cases lent
    | reused _ also idle _ state result =>
      obtain rfl := only also
      obtain rfl := Option.some.inj idle
      rw [result, state, ← lends.ofEntry]
      exact ⟨rfl, rfl⟩
    | patched _ also _ changed | lost _ also _ changed =>
      rw [only also] at changed
      exact absurd fits.1 changed
    | exhausted _ missing | unbuilt _ missing | built _ missing =>
      simp [found] at missing

end Lends

section

variable {p : Pool operation} {key : Key} {param : (operation key).Param}
  {loans : List (Loan Key)} {handed : List Nat}

/-- A call after which the runner that it has checked out for a parameter is back, having been used
in some way. -/
def Restores (p back : Pool operation) (key : Key) (param : (operation key).Param)
    (use : Runner → Runner) : Prop :=
  p.SameVacancies back ∧ ∀ loan, (p.checkOut key param).result = .ok loan →
    back.Returns key param loan.id (use loan.runner)

theorem Consistent.sameVacancies_of_refused (consistent : p.Consistent loans handed)
    {refusal : Error} (failed : (p.checkOut key param).result = .error refusal) :
    p.SameVacancies (p.checkOut key param).state := by
  intro other
  have decided := consistent.decided key param
  rcases decided.kept_or_lost failed with ⟨shelf, -⟩ | ⟨entry, runner, _, _, before, after,
    matched, idle, -, shelf, left⟩
  · rw [shelf]
  · by_cases here : key = other
    · subst here
      rw [shelf, left, vacant_of_idle (by rw [idle]; rfl)]
    · rw [decided.elsewhere here]

/-- A setup that succeeds leaves its runner out on loan. -/
theorem setUp_ok {pack : Pack} {ready : Loan Key × Nat}
    (success : (p.setUp key param pack).result = .ok ready) : ∃ loan bytes,
      (p.checkOut key param).result = .ok loan ∧ (loan.runner.setup pack).result = .ok bytes ∧
        ready = ({ loan with runner := (loan.runner.setup pack).state }, bytes) ∧
          (p.setUp key param pack).state = (p.checkOut key param).state := by
  simp only [setUp] at success ⊢
  obtain ⟨loan, taken, success⟩ := Outcome.andThen_eq_ok.mp success
  rw [Outcome.andThen_of_ok _ taken]
  simp only [setUpLoan] at success ⊢
  split at success
  · simp [returning] at success
  · rename_i bytes answered
    exact ⟨loan, bytes, taken, answered, (Except.ok.inj success).symm, rfl⟩

/-- A setup that fails puts the runner back. -/
theorem Consistent.setUp_restores (consistent : p.Consistent loans handed) {pack : Pack}
    {refusal : Error} (failed : (p.setUp key param pack).result = .error refusal) :
    p.Restores (p.setUp key param pack).state key param fun r => (r.setup pack).state := by
  simp only [setUp] at failed ⊢
  cases taken : (p.checkOut key param).result with
  | error other =>
    rw [Outcome.andThen_of_error _ taken]
    refine ⟨consistent.sameVacancies_of_refused taken, fun loan success => ?_⟩
    simp [taken] at success
  | ok loan =>
    rw [Outcome.andThen_of_ok _ taken] at failed ⊢
    obtain ⟨before, after, entry, lends⟩ := consistent.lends taken
    cases ready : (loan.runner.setup pack).result with
    | ok bytes => simp [setUpLoan, ready] at failed
    | error reason =>
      have left : ((p.checkOut key param).state.setUpLoan loan pack).state =
          ((p.checkOut key param).state.checkIn
            { loan with runner := (loan.runner.setup pack).state }).1 := by
        simp only [setUpLoan, ready, returning]
      dsimp only
      rw [left]
      refine ⟨lends.sameVacancies _, fun other success => ?_⟩
      obtain rfl := Except.ok.inj (taken.symm.trans success)
      exact lends.returns _

/-- A run puts the runner back, however it ends. -/
theorem Consistent.run_restores {State : Type} (consistent : p.Consistent loans handed)
    (registry : Registry State) (stream : State) (pack : Pack) :
    p.Restores (p.run registry stream key param pack).state.1 key param
      fun r => r.afterRun registry stream pack := by
  cases set : (p.setUp key param pack).result with
  | error refusal =>
    have left : (p.run registry stream key param pack).state.1 =
        (p.setUp key param pack).state := by
      simp only [run, Outcome.andThen, Outcome.within, set]
    obtain ⟨vacancies, returns⟩ := consistent.setUp_restores set
    rw [left]
    refine ⟨vacancies, fun loan taken => ?_⟩
    have stopped : loan.runner.afterRun registry stream pack = (loan.runner.setup pack).state := by
      simp only [setUp] at set
      rw [Outcome.andThen_of_ok _ taken] at set
      simp only [setUpLoan] at set
      unfold Runner.afterRun
      split at set
      · rename_i ready
        simp only [ready]
      · simp at set
    dsimp only
    rw [stopped]
    exact returns loan taken
  | ok ready =>
    obtain ⟨loan, bytes, taken, answered, rfl, state⟩ := setUp_ok set
    obtain ⟨before, after, entry, lends⟩ := consistent.lends taken
    have left : (p.run registry stream key param pack).state.1 =
        ((p.checkOut key param).state.checkIn
          { loan with runner := loan.runner.afterRun registry stream pack }).1 := by
      simp only [run, Outcome.andThen, Outcome.within, set, state, runLoan, returning,
        Runner.afterRun, answered]
    rw [left]
    refine ⟨lends.sameVacancies _, fun other success => ?_⟩
    obtain rfl := Except.ok.inj (taken.symm.trans success)
    exact lends.returns _

end

end Pool

/-- No packs tell the runner from one that is built for the parameter. -/
def Operation.AsBuilt (op : Operation) (config : Config) (param : op.Param) (r : Runner) : Prop :=
  ∃ built fresh, op.build param = .ok built ∧ Runner.new built config = .ok fresh ∧
    r.Indistinguishable fresh

theorem Operation.Faithful.asBuilt {op : Operation} (faithful : op.Faithful) {config : Config}
    (valid : config.validate = .ok ()) {param : op.Param} {r : Runner}
    (fits : op.Fits config r param) : op.AsBuilt config param r := by
  obtain ⟨⟨built, build, alike⟩, sameConfig⟩ := fits
  obtain ⟨built', build', folds, accepted⟩ := faithful.new_ok valid param
  obtain rfl : built = built' := Except.ok.inj (build.symm.trans build')
  exact ⟨built, _, build, accepted, Runner.indistinguishable_of_like alike sameConfig folds⟩

theorem Builtin.sameTopology_self (b : Builtin) (param : b.operation.Param) :
    b.operation.sameTopology param param := by
  cases b with
  | addNorm => exact decide_eq_true rfl
  | mlp =>
    show Mlp.sameTopology param param
    simp [Mlp.sameTopology]
  | attention =>
    show Attention.sameTopology param param
    simp [Attention.sameTopology]

/-- A run changes nothing of the graph but what setup leaves behind. -/
theorem Runner.blank_afterRun {State : Type} (r : Runner) (registry : Registry State)
    (stream : State) (pack : Pack) :
    (r.afterRun registry stream pack).graph.blank = r.graph.blank ∧
      (r.afterRun registry stream pack).config = r.config := by
  have ready := r.blank_setup pack
  unfold afterRun
  dsimp only
  split
  · exact ready
  · rw [(r.setup pack).state.execute_keeps pack registry stream]
    exact ready

namespace Pool

variable [DecidableEq Key]

/-- Whatever requests a pool has served, the runner that it hands out for a parameter of a faithful
operation fits the parameter. -/
theorem fits_of_created {config : Config} {registered : List Key} {pool : Pool operation}
    (created : Pool.new operation config registered = .ok pool)
    (requests : List (Request operation)) {key : Key} (faithful : (operation key).Faithful)
    {param : (operation key).Param} {loan : Loan Key}
    (success : (((⟨pool, []⟩ : Session operation).afterAll requests).pool.checkOut key
      param).result = .ok loan) :
    config.validate = .ok () ∧ (operation key).Fits config loan.runner param := by
  obtain ⟨valid, start, rfl⟩ : config.validate = .ok () ∧
      pool.Kept key ((operation key).Fits config) [] ∧ pool.config = config := by
    simp only [Pool.new, Answer.bind_eq_ok, Answer.mapError_eq_ok, Answer.pure_eq_ok] at created
    obtain ⟨_, valid, rfl⟩ := created
    exact ⟨valid, Shelved.empty, rfl⟩
  obtain ⟨kept, config⟩ := Session.kept_afterAll (s := ⟨pool, []⟩)
    (faithful.maintains pool.config) start requests
  rw [← config] at kept
  exact ⟨valid, config ▸ fits_checkOut faithful kept success⟩

/-- Whatever requests a pool has served: a setup that fails and a run that ends, at whatever point,
put back the runner that they have checked out. Those who are out are as before, the next check-out
for the parameter is a plain hit on that runner, and if the operation is one of the library, then no
packs tell the runner from a new one. -/
theorem runner_comes_back {config : Config} {registered : List Key} {pool : Pool operation}
    (created : Pool.new operation config registered = .ok pool)
    (requests : List (Request operation)) (key : Key) (param : (operation key).Param)
    (pack : Pack) :
    let reached := ((⟨pool, []⟩ : Session operation).afterAll requests).pool
    (∀ refusal, (reached.setUp key param pack).result = .error refusal →
      reached.Restores (reached.setUp key param pack).state key param
        fun r => (r.setup pack).state) ∧
    (∀ {State : Type} (registry : Registry State) (stream : State),
      reached.Restores (reached.run registry stream key param pack).state.1 key param
        fun r => r.afterRun registry stream pack) ∧
    ∀ b : Builtin, operation key = b.operation →
      (operation key).sameTopology param param ∧
      ∀ loan, (reached.checkOut key param).result = .ok loan →
        (operation key).AsBuilt config param (loan.runner.setup pack).state ∧
        ∀ {State : Type} (registry : Registry State) (stream : State),
          (operation key).AsBuilt config param (loan.runner.afterRun registry stream pack) := by
  intro reached
  have consistent : reached.Consistent _ _ :=
    invariant_consistent.afterAll [] (consistent_new created) requests
  refine ⟨fun refusal failed => consistent.setUp_restores failed,
    fun registry stream => consistent.run_restores registry stream pack, fun b known => ?_⟩
  have faithful : (operation key).Faithful := known ▸ b.faithful
  have topology : ∀ param : (operation key).Param, (operation key).sameTopology param param := by
    rw [known]
    exact b.sameTopology_self
  refine ⟨topology param, fun loan success => ?_⟩
  obtain ⟨valid, fits⟩ := fits_of_created created requests faithful success
  have asBuilt {used : Runner} (same : used.graph.blank = loan.runner.graph.blank ∧
      used.config = loan.runner.config) : (operation key).AsBuilt config param used :=
    faithful.asBuilt valid ((faithful.maintains config).used same.1 same.2 fits)
  exact ⟨asBuilt (loan.runner.blank_setup pack),
    fun registry stream => asBuilt (loan.runner.blank_afterRun registry stream pack)⟩

/-- A setup without tensors fails, and the runner for the addition is as ready as it was. -/
theorem addition_comes_back :
    let reached := ((⟨additions, []⟩ : Session Builtin.operation).afterAll additionServed).pool
    let failed := reached.setUp .addNorm (⟨⟨1⟩, 1⟩ : AddNorm) ⟨[], [], none⟩
    reached.SameVacancies failed.state ∧
      ∃ loan, (failed.state.checkOut .addNorm (⟨⟨1⟩, 1⟩ : AddNorm)).result = .ok loan ∧
        AddNorm.operation.AsBuilt .default (⟨⟨1⟩, 1⟩ : AddNorm) loan.runner := by
  intro reached failed
  have answers : failed.result.toOption.isNone = true ∧
      (reached.checkOut .addNorm (⟨⟨1⟩, 1⟩ : AddNorm)).result.toOption.isSome = true := by
    decide +kernel
  have created : Pool.new Builtin.operation .default [.addNorm] = .ok additions := rfl
  obtain ⟨refused, -, library⟩ :=
    runner_comes_back created additionServed .addNorm (⟨⟨1⟩, 1⟩ : AddNorm) ⟨[], [], none⟩
  obtain ⟨topology, asBuilt⟩ := library .addNorm rfl
  cases refusal : failed.result with
  | ok ready => simp [refusal, Except.toOption] at answers
  | error reason =>
    cases taken : (reached.checkOut .addNorm (⟨⟨1⟩, 1⟩ : AddNorm)).result with
    | error other => simp [taken, Except.toOption] at answers
    | ok loan =>
      obtain ⟨vacancies, returns⟩ := refused reason refusal
      have equal : AddNorm.operation.equals (⟨⟨1⟩, 1⟩ : AddNorm) ⟨⟨1⟩, 1⟩ = true := by
        decide +kernel
      exact ⟨vacancies, _, ((returns loan taken).again equal topology).1, (asBuilt loan taken).1⟩

end Pool

end OperatorGraph
