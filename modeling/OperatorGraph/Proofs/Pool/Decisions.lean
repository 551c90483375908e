import OperatorGraph.Proofs.Pool.Table

set_option autoImplicit false

namespace OperatorGraph

variable {Key : Type} {operation : Key → Operation}

/-- The operation answers with this error itself, when it builds from a parameter or updates to
it. -/
def Operation.Raises (op : Operation) (param : op.Param) (refusal : Error) : Prop :=
  op.build param = .error refusal ∨
    ∃ patch reason, (op.update param patch).2 = .error reason ∧ refusal = .pool reason

theorem Runner.new_ne_pool (graph : Graph) (config : Config) (cause : PoolError) :
    Runner.new graph config ≠ .error (.pool cause) := by
  intro failed
  simp only [Runner.new, Graph.validate, Answer.bind_eq_error] at failed
  rcases failed with invalid | ⟨_, -, malformed | ⟨_, -, created⟩⟩
  · cases checked : config.validate <;> simp [Except.mapError, checked] at invalid
  · cases checked : graph.check <;> simp [Except.mapError, checked] at malformed
  · simp [pure, Except.pure] at created

namespace Pool

/-- The entry of a parameter: the first that has its topology, and the only one where topologies
are told apart as they should be. -/
structure Matches (p : Pool operation) (key : Key) (param : (operation key).Param)
    (entry : PoolEntry (operation key).Param) : Prop where
  found : p.find? key param = some entry
  present : entry ∈ p.shelf key
  topology : (operation key).sameTopology entry.param param
  only : (operation key).Classifies →
    ∀ other ∈ p.shelf key, (operation key).sameTopology other.param param → other = entry

/-- Nothing but the shelf of one key and the counters has changed on the shelves. -/
structure Reshelved (p next : Pool operation) (key : Key)
    (entries : List (PoolEntry (operation key).Param)) (stats : PoolStats) : Prop where
  here : next.shelf key = entries
  elsewhere : ∀ other, key ≠ other → next.shelf other = p.shelf other
  stats : next.stats = stats

/-- The update of the entry of a parameter fails, and the entry is no longer there. -/
def Loses (p next : Pool operation) (key : Key) (param : (operation key).Param) : Prop :=
  ∃ entry runner patch reason before after, p.Matches key param entry ∧
    entry.runner = some runner ∧
    (operation key).update param (.start runner.reset.graph) = (patch, .error reason) ∧
    p.shelf key = before ++ entry :: after ∧ next.shelf key = before ++ after

/-- The cases of a check-out, with what decides each of them, its answer and what becomes of the
pool. A check-out that fails moves the clock at most, unless an update has failed. -/
inductive Decided (p : Pool operation) (handed : List Nat) (key : Key)
    (param : (operation key).Param) (out : Outcome (Pool operation) Error (Loan Key)) : Prop where
  | unregistered (unknown : key ∉ p.registered)
      (result : out.result = .error (.pool (.unregistered (operation key).name)))
      (kept : out.state = p)
  | busy {entry : PoolEntry (operation key).Param} (known : key ∈ p.registered)
      (matched : p.Matches key param entry) (lent : entry.runner = none)
      (result : out.result = .error (.pool (.busy (operation key).name)))
      (kept : out.state = p.ticked)
  | reused {before after : List (PoolEntry (operation key).Param)}
      {entry : PoolEntry (operation key).Param} {runner : Runner} (known : key ∈ p.registered)
      (matched : p.Matches key param entry) (idle : entry.runner = some runner)
      (equal : (operation key).equals entry.param param)
      (result : out.result = .ok ⟨key, entry.id, runner⟩)
      (shelf : p.shelf key = before ++ entry :: after)
      (next : p.Reshelved out.state key
        (before ++ entry.lend entry.param (p.clock + 1) :: after)
        { p.stats with hits := p.stats.hits + 1 })
  | patched {before after : List (PoolEntry (operation key).Param)}
      {entry : PoolEntry (operation key).Param} {runner : Runner} {patch : Patch}
      (known : key ∈ p.registered) (matched : p.Matches key param entry)
      (idle : entry.runner = some runner) (changed : ¬ (operation key).equals entry.param param)
      (update : (operation key).update param (.start runner.reset.graph) = (patch, .ok ()))
      (result : out.result = .ok ⟨key, entry.id, { runner.reset with graph := patch.graph }⟩)
      (shelf : p.shelf key = before ++ entry :: after)
      (next : p.Reshelved out.state key (before ++ entry.lend param (p.clock + 1) :: after)
        { p.stats with hits := p.stats.hits + 1, updates := p.stats.updates + 1 })
  /-- The update fails, and takes the entry with it. -/
  | lost {before after : List (PoolEntry (operation key).Param)}
      {entry : PoolEntry (operation key).Param} {runner : Runner} {patch : Patch}
      {refusal : PoolError} (known : key ∈ p.registered) (matched : p.Matches key param entry)
      (idle : entry.runner = some runner) (changed : ¬ (operation key).equals entry.param param)
      (update : (operation key).update param (.start runner.reset.graph) = (patch, .error refusal))
      (result : out.result = .error (.pool refusal))
      (shelf : p.shelf key = before ++ entry :: after)
      (next : p.Reshelved out.state key (before ++ after)
        { p.stats with evictions := p.stats.evictions + 1 })
  | exhausted (known : key ∈ p.registered)
      (missing : ∀ entry ∈ p.shelf key, ¬ (operation key).sameTopology entry.param param)
      (full : (p.shelf key).length = p.config.poolCapacity)
      (allOut : ∀ entry ∈ p.shelf key, entry.runner = none)
      (result : out.result =
        .error (.pool (.exhausted (operation key).name p.config.poolCapacity)))
      (kept : out.state = p.ticked)
  | unbuilt {refusal : Error} (known : key ∈ p.registered)
      (missing : ∀ entry ∈ p.shelf key, ¬ (operation key).sameTopology entry.param param)
      (room : (p.shelf key).length < p.config.poolCapacity ∨
        ∃ entry ∈ p.shelf key, entry.runner.isSome)
      (failed : (operation key).build param = .error refusal ∨
        ∃ graph, (operation key).build param = .ok graph ∧
          Runner.new graph p.config = .error refusal)
      (result : out.result = .error refusal) (kept : out.state = p.ticked)
  | added {graph : Graph} {runner : Runner} (known : key ∈ p.registered)
      (missing : ∀ entry ∈ p.shelf key, ¬ (operation key).sameTopology entry.param param)
      (room : (p.shelf key).length < p.config.poolCapacity)
      (build : (operation key).build param = .ok graph)
      (created : Runner.new graph p.config = .ok runner)
      (result : out.result = .ok ⟨key, p.nextId, runner⟩)
      (next : p.Reshelved out.state key
        (p.shelf key ++ [⟨p.nextId, param, none, p.clock + 1⟩])
        { p.stats with builds := p.stats.builds + 1 })
  /-- The idle entry makes room whose last check-out came before those of all other idle ones. -/
  | replaced {before after : List (PoolEntry (operation key).Param)}
      {victim : PoolEntry (operation key).Param} {graph : Graph} {runner : Runner}
      (known : key ∈ p.registered)
      (missing : ∀ entry ∈ p.shelf key, ¬ (operation key).sameTopology entry.param param)
      (full : (p.shelf key).length = p.config.poolCapacity) (idle : victim.runner.isSome)
      (oldest : ∀ other ∈ before ++ after, other.runner.isSome →
        Earlier handed victim.id other.id)
      (build : (operation key).build param = .ok graph)
      (created : Runner.new graph p.config = .ok runner)
      (result : out.result = .ok ⟨key, p.nextId, runner⟩)
      (shelf : p.shelf key = before ++ victim :: after)
      (next : p.Reshelved out.state key
        (before ++ after ++ [⟨p.nextId, param, none, p.clock + 1⟩])
        { p.stats with builds := p.stats.builds + 1, evictions := p.stats.evictions + 1 })

/-- What the answer to a check-out means, and what the check-out leaves alone. -/
structure Verdict (p : Pool operation) (handed : List Nat) (key : Key)
    (param : (operation key).Param) (out : Outcome (Pool operation) Error (Loan Key)) : Prop where
  decided : p.Decided handed key param out
  elsewhere : ∀ other, key ≠ other → out.state.shelf other = p.shelf other
  atomic : ∀ refusal, out.result = .error refusal →
    (out.state.shelf = p.shelf ∧ out.state.stats = p.stats) ∨ p.Loses out.state key param
  unregistered : ¬ (operation key).Raises param (.pool (.unregistered (operation key).name)) →
    (out.result = .error (.pool (.unregistered (operation key).name)) ↔ key ∉ p.registered)
  busy : ¬ (operation key).Raises param (.pool (.busy (operation key).name)) →
    (out.result = .error (.pool (.busy (operation key).name)) ↔
      key ∈ p.registered ∧ ∃ entry, p.Matches key param entry ∧ entry.runner = none)
  exhausted : ¬ (operation key).Raises param
      (.pool (.exhausted (operation key).name p.config.poolCapacity)) →
    (out.result = .error (.pool (.exhausted (operation key).name p.config.poolCapacity)) ↔
      key ∈ p.registered ∧
        (∀ entry ∈ p.shelf key, ¬ (operation key).sameTopology entry.param param) ∧
        (p.shelf key).length = p.config.poolCapacity ∧
        ∀ entry ∈ p.shelf key, entry.runner = none)

namespace Decided

variable {p : Pool operation} {handed : List Nat} {key : Key} {param : (operation key).Param}
  {out : Outcome (Pool operation) Error (Loan Key)} (decided : p.Decided handed key param out)
include decided

theorem elsewhere {other : Key} (different : key ≠ other) :
    out.state.shelf other = p.shelf other := by
  cases decided with
  | unregistered _ _ kept => rw [kept]
  | busy _ _ _ _ kept | exhausted _ _ _ _ _ kept | unbuilt _ _ _ _ _ kept =>
    rw [kept]
    rfl
  | reused _ _ _ _ _ _ next | patched _ _ _ _ _ _ _ next | lost _ _ _ _ _ _ _ next
  | added _ _ _ _ _ _ next | replaced _ _ _ _ _ _ _ _ _ next =>
    exact next.elsewhere other different

/-- A check-out that fails leaves all entries and counters as they were, unless it has lost an
entry. -/
theorem kept_or_lost {refusal : Error} (failed : out.result = .error refusal) :
    (out.state.shelf = p.shelf ∧ out.state.stats = p.stats) ∨ p.Loses out.state key param := by
  cases decided with
  | unregistered _ _ kept => exact .inl (kept ▸ ⟨rfl, rfl⟩)
  | busy _ _ _ _ kept | exhausted _ _ _ _ _ kept | unbuilt _ _ _ _ _ kept =>
    exact .inl (kept ▸ ⟨rfl, rfl⟩)
  | lost _ matched idle _ update _ shelf next =>
    exact .inr ⟨_, _, _, _, _, _, matched, idle, update, shelf, next.here⟩
  | reused _ _ _ _ result | patched _ _ _ _ _ result | added _ _ _ _ _ result
  | replaced _ _ _ _ _ _ _ result => simp [result] at failed

/-- The refusals of a pool, unless the operation itself answers with one of them. -/
theorem of_refused {cause : PoolError} (failed : out.result = .error (.pool cause))
    (own : ¬ (operation key).Raises param (.pool cause)) :
    (cause = .unregistered (operation key).name ∧ key ∉ p.registered) ∨
      (cause = .busy (operation key).name ∧ key ∈ p.registered ∧
        ∃ entry, p.Matches key param entry ∧ entry.runner = none) ∨
      (cause = .exhausted (operation key).name p.config.poolCapacity ∧ key ∈ p.registered ∧
        (∀ entry ∈ p.shelf key, ¬ (operation key).sameTopology entry.param param) ∧
        (p.shelf key).length = p.config.poolCapacity ∧
        ∀ entry ∈ p.shelf key, entry.runner = none) := by
  have same {other : PoolError} (result : out.result = .error (.pool other)) : cause = other := by
    rw [result] at failed
    exact (Error.pool.inj (Except.error.inj failed)).symm
  cases decided with
  | unregistered unknown result =>
    exact .inl ⟨same result, unknown⟩
  | busy known matched lent result =>
    exact .inr (.inl ⟨same result, known, _, matched, lent⟩)
  | exhausted known missing full allOut result =>
    exact .inr (.inr ⟨same result, known, missing, full, allOut⟩)
  | lost _ _ _ _ update result =>
    obtain rfl := same result
    exact absurd (.inr ⟨_, _, congrArg Prod.snd update, rfl⟩) own
  | unbuilt _ _ _ raised result =>
    obtain rfl := Except.error.inj (result.symm.trans failed)
    rcases raised with build | ⟨graph, -, refused⟩
    · exact absurd (.inl build) own
    · exact absurd refused (Runner.new_ne_pool graph p.config cause)
  | reused _ _ _ _ result | patched _ _ _ _ _ result | added _ _ _ _ _ result
  | replaced _ _ _ _ _ _ _ result => simp [result] at failed

theorem unregistered_iff
    (own : ¬ (operation key).Raises param (.pool (.unregistered (operation key).name))) :
    out.result = .error (.pool (.unregistered (operation key).name)) ↔ key ∉ p.registered := by
  constructor
  · intro failed
    rcases decided.of_refused failed own with ⟨-, unknown⟩ | ⟨other, -⟩ | ⟨other, -⟩
    · exact unknown
    · simp at other
    · simp at other
  · intro unknown
    cases decided with
    | unregistered _ result => exact result
    | busy known | reused known | patched known | lost known | exhausted known | unbuilt known
    | added known | replaced known => exact absurd known unknown

theorem busy_iff (own : ¬ (operation key).Raises param (.pool (.busy (operation key).name))) :
    out.result = .error (.pool (.busy (operation key).name)) ↔
      key ∈ p.registered ∧ ∃ entry, p.Matches key param entry ∧ entry.runner = none := by
  constructor
  · intro failed
    rcases decided.of_refused failed own with ⟨other, -⟩ | ⟨-, busy⟩ | ⟨other, -⟩
    · simp at other
    · exact busy
    · simp at other
  · rintro ⟨known, entry, matched, lent⟩
    cases decided with
    | unregistered unknown => exact absurd known unknown
    | busy _ _ _ result => exact result
    | reused _ found idle | patched _ found idle | lost _ found idle =>
      obtain rfl := Option.some.inj (matched.found.symm.trans found.found)
      simp [lent] at idle
    | exhausted _ missing | unbuilt _ missing | added _ missing | replaced _ missing =>
      exact absurd matched.topology (missing entry matched.present)

theorem exhausted_iff (own : ¬ (operation key).Raises param
      (.pool (.exhausted (operation key).name p.config.poolCapacity))) :
    out.result = .error (.pool (.exhausted (operation key).name p.config.poolCapacity)) ↔
      key ∈ p.registered ∧
        (∀ entry ∈ p.shelf key, ¬ (operation key).sameTopology entry.param param) ∧
        (p.shelf key).length = p.config.poolCapacity ∧
        ∀ entry ∈ p.shelf key, entry.runner = none := by
  constructor
  · intro failed
    rcases decided.of_refused failed own with ⟨other, -⟩ | ⟨other, -⟩ | ⟨-, exhausted⟩
    · simp at other
    · simp at other
    · exact exhausted
  · rintro ⟨known, missing, full, allOut⟩
    cases decided with
    | unregistered unknown => exact absurd known unknown
    | exhausted _ _ _ _ result => exact result
    | busy _ matched | reused _ matched | patched _ matched | lost _ matched =>
      exact absurd matched.topology (missing _ matched.present)
    | unbuilt _ _ room =>
      rcases room with room | ⟨entry, present, idle⟩
      · omega
      · simp [allOut entry present] at idle
    | added _ _ room => omega
    | @replaced _ _ victim _ _ _ _ _ idle _ _ _ _ shelf =>
      have present : victim ∈ p.shelf key := by simp [shelf]
      simp [allOut victim present] at idle

theorem verdict : p.Verdict handed key param out :=
  ⟨decided, fun _ => decided.elsewhere, fun _ => decided.kept_or_lost, decided.unregistered_iff,
    decided.busy_iff, decided.exhausted_iff⟩

end Decided

variable [DecidableEq Key]

namespace Consistent

variable {p : Pool operation} {key : Key} {param : (operation key).Param}
  {loans : List (Loan Key)} {handed : List Nat} (consistent : p.Consistent loans handed)
  {before after : List (PoolEntry (operation key).Param)}
  {entry : PoolEntry (operation key).Param}
include consistent

omit [DecidableEq Key] in
theorem matches_of_found (found : p.find? key param = some entry) : p.Matches key param entry := by
  obtain ⟨present, topology⟩ := find?_spec found
  refine ⟨found, present, topology, fun classifies other there same => ?_⟩
  by_contra different
  have symmetric : Std.Symm fun a b : PoolEntry (operation key).Param =>
      ¬ (operation key).sameTopology a.param b.param :=
    ⟨fun _ _ apart same => apart (classifies.symm same)⟩
  exact (consistent.topologies key classifies).forall there present different
    (classifies.trans same (classifies.symm topology))

omit [DecidableEq Key] in
theorem elsewhere (shelf : p.shelf key = before ++ entry :: after) :
    ∀ other ∈ before ++ after, ¬ other.id = entry.id := by
  have apart := consistent.ids_apart key
  rw [shelf, List.pairwise_middle fun {a b} => Ne.symm, List.pairwise_cons] at apart
  exact fun other member same => apart.1 other member same.symm

theorem reshelved_lend (shelf : p.shelf key = before ++ entry :: after)
    (param : (operation key).Param) (now : Nat) (stats : PoolStats) :
    p.Reshelved { p.ticked.modifyEntry key entry.id (PoolEntry.lend param now) with stats } key
      (before ++ entry.lend param now :: after) stats := by
  have here : (p.modifyEntry key entry.id (PoolEntry.lend param now)).shelf key =
      before ++ entry.lend param now :: after := by
    rw [modifyEntry, shelf_modifyShelf_self, shelf]
    exact map_middle (fun other : PoolEntry (operation key).Param => other.id = entry.id) rfl
      (consistent.elsewhere shelf) (PoolEntry.lend param now)
  exact ⟨here, fun other different => p.shelf_modifyShelf_of_ne different _, rfl⟩

theorem reshelved_evict (shelf : p.shelf key = before ++ entry :: after) :
    p.Reshelved (p.evict key entry.id) key (before ++ after)
      { p.stats with evictions := p.stats.evictions + 1 } := by
  have here : (p.evict key entry.id).shelf key = before ++ after := by
    rw [Pool.evict, shelf_modifyShelf_self, shelf]
    exact filter_middle (fun other : PoolEntry (operation key).Param => other.id = entry.id) rfl
      (consistent.elsewhere shelf)
  exact ⟨here, fun other different => p.shelf_modifyShelf_of_ne different _, rfl⟩

omit consistent in
theorem reshelved_shelve (p : Pool operation) (param : (operation key).Param) (runner : Runner) :
    p.Reshelved (p.ticked.shelve key param runner none).1 key
      (p.shelf key ++ [⟨p.nextId, param, none, p.clock + 1⟩])
      { p.stats with builds := p.stats.builds + 1 } := by
  let add (entries : List (PoolEntry (operation key).Param)) :=
    entries ++ [⟨p.nextId, param, none, p.clock + 1⟩]
  exact ⟨p.shelf_modifyShelf_self add,
    fun _ different => p.shelf_modifyShelf_of_ne different add, rfl⟩

/-- The idle entry with the lowest stamp went out for the last time before the others did. -/
theorem oldest_of_lowest (shelf : p.shelf key = before ++ entry :: after)
    (lowest : ∀ other ∈ p.shelf key, other.runner.isSome → entry.lastUsed ≤ other.lastUsed) :
    ∀ other ∈ before ++ after, other.runner.isSome → Earlier handed entry.id other.id := by
  intro other member idle
  have here : entry ∈ p.shelf key := by simp [shelf]
  have there : other ∈ p.shelf key := by
    rw [shelf]
    rcases List.mem_append.mp member with first | second
    · exact List.mem_append.mpr (.inl first)
    · exact List.mem_append.mpr (.inr (List.mem_cons_of_mem _ second))
  have known := consistent.known_of_mem here
  have different := consistent.elsewhere shelf other member
  exact consistent.tabled.earlier_of_le (mem_places known here) (mem_places known there)
    (Ne.symm different) (lowest other there idle)

theorem decided (key : Key) (param : (operation key).Param) :
    p.Decided handed key param (p.checkOut key param) := by
  have capacity := consistent.capacity key
  have absent (missing : p.find? key param = none) :
      ∀ entry ∈ p.shelf key, ¬ (operation key).sameTopology entry.param param :=
    fun entry present => by simpa using List.find?_eq_none.mp missing entry present
  cases p.checkOut_answers key param with
  | unregistered unknown state result => exact .unregistered unknown result state
  | busy known found lent state result =>
    exact .busy known (consistent.matches_of_found found) lent result state
  | reused known found idle equal state result =>
    have matched := consistent.matches_of_found found
    obtain ⟨before, after, shelf⟩ := List.append_of_mem matched.present
    exact .reused known matched idle equal result shelf
      (state ▸ consistent.reshelved_lend shelf _ _ _)
  | patched known found idle changed update state result =>
    have matched := consistent.matches_of_found found
    obtain ⟨before, after, shelf⟩ := List.append_of_mem matched.present
    exact .patched known matched idle changed update result shelf
      (state ▸ consistent.reshelved_lend shelf _ _ _)
  | lost known found idle changed update state result =>
    have matched := consistent.matches_of_found found
    obtain ⟨before, after, shelf⟩ := List.append_of_mem matched.present
    have cleared := consistent.reshelved_evict shelf
    exact .lost known matched idle changed update result shelf
      (state ▸ ⟨cleared.here, cleared.elsewhere, cleared.stats⟩)
  | exhausted known missing full allOut state result =>
    exact .exhausted known (absent missing) (Nat.le_antisymm capacity full) allOut result state
  | unbuilt known missing room failed state result =>
    refine .unbuilt known (absent missing) ?_ failed result state
    cases room with
    | free room => exact .inl room
    | replacing _ present idle _ => exact .inr ⟨_, present, idle⟩
  | @built victim graph runner known missing room build created state result =>
    cases room with
    | free room =>
      exact .added known (absent missing) room build created result
        (state ▸ reshelved_shelve p param runner)
    | @replacing victim full present idle lowest =>
      obtain ⟨before, after, shelf⟩ := List.append_of_mem present
      have cleared := consistent.reshelved_evict shelf
      have filled := reshelved_shelve (p.evict key victim.id) param runner
      rw [cleared.here] at filled
      refine .replaced known (absent missing) (Nat.le_antisymm capacity full) idle
        (consistent.oldest_of_lowest shelf lowest) build created result shelf ?_
      rw [state]
      exact ⟨filled.here, fun other different => (filled.elsewhere other different).trans
        (cleared.elsewhere other different), rfl⟩

end Consistent

/-- Whatever requests a pool has served, a check-out is decided by what is registered, by the entry
of the parameter and by who is out, and the refusals of the pool mean what they say. -/
theorem checkOut_decided {config : Config} {registered : List Key} {pool : Pool operation}
    (created : Pool.new operation config registered = .ok pool)
    (requests : List (Request operation)) (key : Key) (param : (operation key).Param) :
    let session : Session operation := ⟨pool, []⟩
    let reached := (session.afterAll requests).pool
    (reached.config = config ∧ ∀ other, other ∈ reached.registered ↔ other ∈ registered) ∧
      reached.Verdict (session.history requests) key param (reached.checkOut key param) := by
  intro session reached
  have consistent : reached.Consistent _ (session.history requests) :=
    invariant_consistent.afterAll [] (consistent_new created) requests
  obtain ⟨ofConfig, ofRegistered⟩ := config_afterAll created requests
  refine ⟨⟨ofConfig, fun other => ?_⟩, (consistent.decided key param).verdict⟩
  rw [ofRegistered, List.mem_eraseDups]

/-- While the runner of one number is out, there is no place for another. -/
theorem number_exhausted :
    let session : Session Probe.operation := ⟨probes, []⟩
    let reached := (session.afterAll probesServed).pool
    let out := reached.checkOut .picky (2 : Int)
    reached.Decided [0, 1, 2] .picky (2 : Int) out ∧
      out.result = .error (.pool (.exhausted "picky" 1)) := by
  intro session reached out
  have created : Pool.new Probe.operation probes.config [.picky, .broken] = .ok probes := rfl
  have handed : session.history probesServed = [0, 1, 2] := by decide +kernel
  have own (cause : PoolError) : ¬ (Probe.operation .picky).Raises (2 : Int) (.pool cause) := by
    rintro (failed | ⟨_, _, failed, -⟩)
    · simp [Probe.pickyGraph] at failed
    · simp [Operation.keep] at failed
  obtain ⟨⟨config, -⟩, verdict⟩ := checkOut_decided created probesServed .picky (2 : Int)
  rw [handed] at verdict
  have exhausted := verdict.exhausted
  rw [config] at exhausted
  refine ⟨verdict.decided, (exhausted (own _)).mpr ?_⟩
  decide +kernel

end Pool

end OperatorGraph
