import Mathlib.Data.List.Basic
import OperatorGraph.Operation.Probe
import OperatorGraph.Proofs.Pool.Places
import OperatorGraph.Proofs.Pool.Requests

set_option autoImplicit false

namespace OperatorGraph

variable {Key : Type} {operation : Key → Operation}

theorem nodup_eraseDups {α : Type} [DecidableEq α] (list : List α) : list.eraseDups.Nodup := by
  match list with
  | [] => simp
  | a :: rest =>
    rw [List.eraseDups_cons, List.nodup_cons]
    exact ⟨by simp [List.mem_eraseDups], nodup_eraseDups _⟩
termination_by list.length
decreasing_by
  have shorter := List.length_filter_le (fun b => !b == a) rest
  simp only [List.length_cons]
  omega

/-- To have one topology is an equivalence of parameters. -/
def Operation.Classifies (op : Operation) : Prop :=
  Equivalence fun a b : op.Param => op.sameTopology a b

namespace Pool

/-- All entries of a pool. -/
def places (p : Pool operation) : List (Place Key) :=
  p.registered.flatMap fun key => (p.shelf key).map (Place.of key)

section

variable {p : Pool operation} {key : Key}

theorem sublist_places (known : key ∈ p.registered) :
    ((p.shelf key).map (Place.of key)).Sublist p.places := by
  rw [places, List.flatMap_def]
  exact List.sublist_flatten_of_mem (List.mem_map.mpr ⟨key, known, rfl⟩)

theorem mem_places (known : key ∈ p.registered) {entry : PoolEntry (operation key).Param}
    (present : entry ∈ p.shelf key) : Place.of key entry ∈ p.places :=
  (sublist_places known).mem (List.mem_map_of_mem present)

theorem of_mem_places {place : Place Key} (present : place ∈ p.places) :
    ∃ key, ∃ entry ∈ p.shelf key, place = Place.of key entry := by
  obtain ⟨key, -, member⟩ := List.mem_flatMap.mp present
  obtain ⟨entry, there, rfl⟩ := List.mem_map.mp member
  exact ⟨key, entry, there, rfl⟩

end

/-- What holds of a pool, the loans that are out of it, and the ids that it has handed out. -/
structure Consistent (p : Pool operation) (loans : List (Loan Key)) (handed : List Nat) : Prop where
  once : p.registered.Nodup
  unregistered : ∀ key ∉ p.registered, p.shelf key = []
  capacity : ∀ key, (p.shelf key).length ≤ p.config.poolCapacity
  topologies : ∀ key, (operation key).Classifies →
    (p.shelf key).Pairwise fun a b => ¬ (operation key).sameTopology a.param b.param
  tabled : Tabled p.places loans p.nextId p.clock handed
  entries : p.places.length + p.stats.evictions = p.stats.builds
  checkOuts : p.stats.hits + p.stats.builds = handed.length
  updates : p.stats.updates ≤ p.stats.hits

theorem Consistent.ticked {p : Pool operation} {loans : List (Loan Key)} {handed : List Nat}
    (consistent : p.Consistent loans handed) : p.ticked.Consistent loans handed :=
  { consistent with tabled := consistent.tabled.later (Nat.le_succ p.clock) }

theorem Consistent.perm {p : Pool operation} {loans others : List (Loan Key)} {handed : List Nat}
    (same : loans.Perm others) (consistent : p.Consistent loans handed) :
    p.Consistent others handed :=
  { consistent with tabled := consistent.tabled.perm same }

theorem Consistent.use {p : Pool operation} {loan : Loan Key} {loans : List (Loan Key)}
    {handed : List Nat} (runner : Runner) (consistent : p.Consistent (loan :: loans) handed) :
    p.Consistent ({ loan with runner } :: loans) handed :=
  { consistent with tabled := consistent.tabled.use runner }

variable [DecidableEq Key]

section

variable (p : Pool operation) (key : Key)

theorem places_modifyEntry (id : Nat) (change) (seen : Place Key → Place Key)
    (same : ∀ entry, Place.of key (change entry) = seen (Place.of key entry)) :
    (p.modifyEntry key id change).places = Place.changeAt key id seen p.places := by
  simp only [places, Place.changeAt, List.map_flatMap]
  refine List.flatMap_congr fun other _ => ?_
  by_cases here : key = other
  · subst here
    simp only [modifyEntry, shelf_modifyShelf_self, List.map_map]
    refine List.map_congr_left fun entry _ => ?_
    simp only [Function.comp_apply]
    by_cases of : entry.id = id
    · rw [if_pos of, same]
      exact (if_pos ⟨rfl, of⟩).symm
    · rw [if_neg of]
      exact (if_neg fun both => of both.2).symm
  · simp only [modifyEntry, shelf_modifyShelf_of_ne _ here, List.map_map]
    refine List.map_congr_left fun entry _ => ?_
    exact (if_neg fun both => here both.1.symm).symm

theorem places_evict (id : Nat) : (p.evict key id).places =
    p.places.filter fun place => ¬ (place.key = key ∧ place.id = id) := by
  simp only [places, List.filter_flatMap]
  refine List.flatMap_congr fun other _ => ?_
  simp only [evict, List.filter_map]
  by_cases here : key = other
  · subst here
    rw [shelf_modifyShelf_self]
    refine congrArg _ (List.filter_congr fun entry _ => ?_)
    by_cases same : entry.id = id <;> simp [Place.of, same]
  · rw [shelf_modifyShelf_of_ne _ here]
    refine congrArg _ (List.filter_eq_self.mpr fun entry _ => ?_).symm
    simp [Place.of, Ne.symm here]

/-- A new entry stands last on its shelf, and somewhere in the table. -/
theorem places_added (once : p.registered.Nodup) {key : Key} (known : key ∈ p.registered)
    (entry : PoolEntry (operation key).Param) :
    (p.places ++ [Place.of key entry]).Perm (p.modifyShelf key (· ++ [entry])).places := by
  obtain ⟨before, after, split⟩ := List.append_of_mem known
  have elsewhere (keys : List Key) (others : key ∉ keys) :
      (keys.flatMap fun other => ((p.modifyShelf key (· ++ [entry])).shelf other).map
        (Place.of other)) = keys.flatMap fun other => (p.shelf other).map (Place.of other) := by
    refine List.flatMap_congr fun other member => ?_
    have here : key ≠ other := by
      rintro rfl
      exact others member
    rw [shelf_modifyShelf_of_ne _ here]
  have apart : key ∉ before ∧ key ∉ after := by
    rw [split] at once
    have nodup := List.nodup_append.mp once
    refine ⟨fun member => nodup.2.2 key member key (by simp) rfl, ?_⟩
    exact (List.nodup_cons.mp nodup.2.1).1
  have registered : (p.modifyShelf key (· ++ [entry])).registered = before ++ key :: after := split
  simp only [places, registered, split, List.flatMap_append, List.flatMap_cons,
    elsewhere before apart.1, elsewhere after apart.2, shelf_modifyShelf_self, List.map_append,
    List.map_cons, List.map_nil, List.append_assoc]
  refine (List.Perm.append_left _ (List.Perm.append_left _ ?_))
  exact List.perm_append_comm

end

namespace Consistent

variable {p : Pool operation} {key : Key} {loan : Loan Key} {loans : List (Loan Key)}
  {handed : List Nat}

section

variable (consistent : p.Consistent loans handed)
include consistent

theorem known_of_mem {entry : PoolEntry (operation key).Param} (present : entry ∈ p.shelf key) :
    key ∈ p.registered := by
  by_contra unknown
  simp [consistent.unregistered key unknown] at present

omit [DecidableEq Key] in
theorem ids_apart (key : Key) : (p.shelf key).Pairwise fun a b => a.id ≠ b.id := by
  by_cases known : key ∈ p.registered
  · have apart := consistent.tabled.apart.sublist (sublist_places known)
    exact (List.pairwise_map.mp apart).imp And.left
  · simp [consistent.unregistered key known]

omit [DecidableEq Key] in
theorem eq_of_id {a b : PoolEntry (operation key).Param} (first : a ∈ p.shelf key)
    (second : b ∈ p.shelf key) (same : a.id = b.id) : a = b := by
  by_contra different
  have symmetric : Std.Symm fun a b : PoolEntry (operation key).Param => a.id ≠ b.id :=
    ⟨fun _ _ => Ne.symm⟩
  exact (consistent.ids_apart key).forall first second different same

/-- What a change of one entry leaves of the shelves. -/
theorem changed {entry : PoolEntry (operation key).Param} (present : entry ∈ p.shelf key)
    (change : PoolEntry (operation key).Param → PoolEntry (operation key).Param)
    (like : (operation key).Classifies →
      (operation key).sameTopology entry.param (change entry).param) :
    (∀ other ∉ p.registered, (p.modifyEntry key entry.id change).shelf other = []) ∧
      (∀ other, ((p.modifyEntry key entry.id change).shelf other).length ≤ p.config.poolCapacity) ∧
      ∀ other, (operation other).Classifies →
        ((p.modifyEntry key entry.id change).shelf other).Pairwise fun a b =>
          ¬ (operation other).sameTopology a.param b.param := by
  refine ⟨fun other unknown => ?_, fun other => ?_, fun other equivalence => ?_⟩
  · have here : key ≠ other := by
      rintro rfl
      exact unknown (consistent.known_of_mem present)
    rw [modifyEntry, shelf_modifyShelf_of_ne _ here, consistent.unregistered other unknown]
  · by_cases here : key = other
    · subst here
      rw [modifyEntry, shelf_modifyShelf_self, List.length_map]
      exact consistent.capacity key
    · rw [modifyEntry, shelf_modifyShelf_of_ne _ here]
      exact consistent.capacity other
  · by_cases here : key = other
    · subst here
      have apart := (consistent.topologies key equivalence).and (consistent.ids_apart key)
      rw [modifyEntry, shelf_modifyShelf_self, List.pairwise_map]
      refine apart.imp_of_mem fun {a b} first second ⟨topologies, ids⟩ same => topologies ?_
      -- The changed entry keeps its topology, and stays apart from the others by transitivity.
      by_cases atA : a.id = entry.id
      · obtain rfl := consistent.eq_of_id first present atA
        have atB : b.id ≠ a.id := fun at' => ids at'.symm
        rw [if_pos rfl, if_neg atB] at same
        exact equivalence.trans (like equivalence) same
      · by_cases atB : b.id = entry.id
        · obtain rfl := consistent.eq_of_id second present atB
          rw [if_neg atA, if_pos rfl] at same
          exact equivalence.trans same (equivalence.symm (like equivalence))
        · rwa [if_neg atA, if_neg atB] at same
    · rw [modifyEntry, shelf_modifyShelf_of_ne _ here]
      exact consistent.topologies other equivalence

/-- The runner of an idle entry goes out on loan. Its parameter may change within its topology. -/
theorem lend {entry : PoolEntry (operation key).Param} (present : entry ∈ p.shelf key)
    (idle : entry.runner.isSome) {param : (operation key).Param}
    (like : (operation key).Classifies → (operation key).sameTopology entry.param param)
    (ofKey : loan.key = key) (ofEntry : loan.id = entry.id) {updates : Nat}
    (counted : updates ≤ p.stats.hits + 1) :
    Consistent { p.ticked.modifyEntry key entry.id (PoolEntry.lend param (p.clock + 1)) with
      stats := { p.stats with hits := p.stats.hits + 1, updates } }
      (loan :: loans) (handed ++ [entry.id]) := by
  obtain ⟨unregistered, capacity, topologies⟩ :=
    consistent.changed present (PoolEntry.lend param (p.clock + 1)) like
  have place := mem_places (consistent.known_of_mem present) present
  have free : (Place.of key entry).vacant = false := by simpa [Place.of] using idle
  have tabled := consistent.tabled.lend place free ofKey ofEntry (Nat.lt_succ_self p.clock)
  have places := p.places_modifyEntry key entry.id (PoolEntry.lend param (p.clock + 1))
    (Place.lend (p.clock + 1)) fun _ => rfl
  have count := congrArg List.length places
  rw [Place.changeAt, List.length_map] at count
  have checkOuts := consistent.checkOuts
  refine ⟨consistent.once, unregistered, capacity, topologies, places ▸ tabled, ?_, ?_, counted⟩
  · exact (congrArg (· + p.stats.evictions) count).trans consistent.entries
  · simp only [List.length_append, List.length_singleton]
    omega

theorem evict {entry : PoolEntry (operation key).Param} (present : entry ∈ p.shelf key)
    (idle : entry.runner.isSome) : Consistent (p.evict key entry.id) loans handed := by
  have place := mem_places (consistent.known_of_mem present) present
  have free : (Place.of key entry).vacant = false := by simpa [Place.of] using idle
  have places := p.places_evict key entry.id
  have shelf (other : Key) : ((p.evict key entry.id).shelf other).Sublist (p.shelf other) := by
    by_cases here : key = other
    · subst here
      rw [Pool.evict, shelf_modifyShelf_self]
      exact List.filter_sublist
    · rw [Pool.evict, shelf_modifyShelf_of_ne _ here]
  refine ⟨consistent.once, fun other unknown => ?_, fun other => ?_, fun other classifies => ?_,
    places ▸ consistent.tabled.remove place free, ?_, consistent.checkOuts, consistent.updates⟩
  · have none := shelf other
    rw [consistent.unregistered other unknown] at none
    exact List.sublist_nil.mp none
  · exact Nat.le_trans (shelf other).length_le (consistent.capacity other)
  · exact (consistent.topologies other classifies).sublist (shelf other)
  · have left : (p.evict key entry.id).places.length + 1 = p.places.length := by
      rw [places]
      exact consistent.tabled.length_remove place
    have entries := consistent.entries
    have evictions : (p.evict key entry.id).stats.evictions = p.stats.evictions + 1 := rfl
    have builds : (p.evict key entry.id).stats.builds = p.stats.builds := rfl
    omega

/-- A new entry is shelved where there is room, and its runner goes out on loan. -/
theorem shelve (known : key ∈ p.registered)
    (room : (p.shelf key).length < p.config.poolCapacity) {param : (operation key).Param}
    (missing : ∀ entry ∈ p.shelf key, ¬ (operation key).sameTopology entry.param param)
    (runner : Runner) (ofKey : loan.key = key) (ofEntry : loan.id = p.nextId) :
    Consistent (p.ticked.shelve key param runner none).1 (loan :: loans)
      (handed ++ [p.nextId]) := by
  let entry : PoolEntry (operation key).Param := ⟨p.nextId, param, none, p.clock + 1⟩
  have shelf (other : Key) (different : key ≠ other) :
      (p.ticked.shelve key param runner none).1.shelf other = p.shelf other :=
    p.shelf_modifyShelf_of_ne different (· ++ [entry])
  have here : (p.ticked.shelve key param runner none).1.shelf key = p.shelf key ++ [entry] :=
    p.shelf_modifyShelf_self (· ++ [entry])
  have places := p.places_added consistent.once known entry
  have tabled := consistent.tabled.add ofKey ofEntry (Nat.lt_succ_self p.clock)
  have checkOuts := consistent.checkOuts
  refine ⟨consistent.once, fun other unknown => ?_, fun other => ?_, fun other classifies => ?_,
    tabled.reorder places, ?_, ?_, consistent.updates⟩
  · have different : key ≠ other := by
      rintro rfl
      exact unknown known
    rw [shelf other different]
    exact consistent.unregistered other unknown
  · by_cases same : key = other
    · subst same
      rw [here, List.length_append, List.length_singleton]
      exact room
    · rw [shelf other same]
      exact consistent.capacity other
  · by_cases same : key = other
    · subst same
      rw [here, List.pairwise_append]
      refine ⟨consistent.topologies key classifies, by simp, fun old present added last => ?_⟩
      rw [List.mem_singleton.mp last]
      exact missing old present
    · rw [shelf other same]
      exact consistent.topologies other classifies
  · have count := places.length_eq
    rw [List.length_append, List.length_singleton] at count
    have entries := consistent.entries
    have whole : (p.ticked.shelve key param runner none).1.places =
        (p.modifyShelf key (· ++ [entry])).places := rfl
    have evictions : (p.ticked.shelve key param runner none).1.stats.evictions =
        p.stats.evictions := rfl
    have builds : (p.ticked.shelve key param runner none).1.stats.builds =
        p.stats.builds + 1 := rfl
    rw [whole]
    omega
  · have hits : (p.ticked.shelve key param runner none).1.stats.hits = p.stats.hits := rfl
    have builds : (p.ticked.shelve key param runner none).1.stats.builds =
        p.stats.builds + 1 := rfl
    simp only [List.length_append, List.length_singleton]
    omega

end

/-- A runner that is checked in goes back to its entry. It is never dropped. -/
theorem checkIn (consistent : p.Consistent (loan :: loans) handed) :
    p.checkIn loan =
        (p.modifyEntry loan.key loan.id (PoolEntry.giveBack loan.runner), []) ∧
      (p.checkIn loan).1.Consistent loans handed := by
  obtain ⟨place, there, ofKey, ofEntry⟩ := consistent.tabled.known loan (by simp)
  obtain ⟨key, entry, present, rfl⟩ := of_mem_places there
  obtain rfl : key = loan.key := ofKey
  have sameId : entry.id = loan.id := ofEntry
  have returned : p.checkIn loan =
      (p.modifyEntry loan.key loan.id (PoolEntry.giveBack loan.runner), []) := by
    have listed : (p.shelf loan.key).any (·.id = loan.id) :=
      List.any_eq_true.mpr ⟨entry, present, by simpa using sameId⟩
    rw [Pool.checkIn, if_pos listed]
    rfl
  obtain ⟨unregistered, capacity, topologies⟩ := consistent.changed present
    (PoolEntry.giveBack loan.runner) fun classifies => classifies.refl entry.param
  have tabled := consistent.tabled.giveBack there sameId.symm
  have places := p.places_modifyEntry loan.key entry.id (PoolEntry.giveBack loan.runner)
    Place.giveBack fun _ => rfl
  have count := congrArg List.length places
  rw [Place.changeAt, List.length_map] at count
  rw [returned, ← sameId]
  exact ⟨rfl, consistent.once, unregistered, capacity, topologies, places ▸ tabled,
    (congrArg (· + p.stats.evictions) count).trans consistent.entries, consistent.checkOuts,
    consistent.updates⟩

/-- A check-out keeps the table, however it ends. -/
theorem checkOut (consistent : p.Consistent loans handed) (key : Key)
    (param : (operation key).Param) :
    (p.checkOut key param).state.Consistent
      ((p.checkOut key param).result.toOption.toList ++ loans)
      (handed ++ (p.checkOut key param).result.toOption.toList.map Loan.id) := by
  have refused : p.ticked.Consistent loans (handed ++ []) := by
    rw [List.append_nil]
    exact consistent.ticked
  have idleOf {entry : PoolEntry (operation key).Param} {runner : Runner}
      (idle : entry.runner = some runner) : entry.runner.isSome := by rw [idle]; rfl
  cases p.checkOut_answers key param with
  | unregistered _ state result =>
    rw [state, result]
    simpa [Except.toOption] using consistent
  | busy _ _ _ state result | exhausted _ _ _ _ state result | unbuilt _ _ _ _ state result =>
    rw [state, result]
    exact refused
  | reused _ found idle _ state result =>
    rw [state, result]
    have updates := consistent.updates
    exact consistent.lend (find?_spec found).1 (idleOf idle)
      (fun classifies => classifies.refl _) rfl rfl (by omega)
  | patched _ found idle _ _ state result =>
    rw [state, result]
    obtain ⟨present, topology⟩ := find?_spec found
    have updates := consistent.updates
    exact consistent.lend present (idleOf idle) (fun _ => topology) rfl rfl (by omega)
  | lost _ found idle _ _ state result =>
    rw [state, result]
    simpa [Except.toOption] using consistent.ticked.evict (find?_spec found).1 (idleOf idle)
  | @built victim graph runner known missing room _ _ state result =>
    rw [state, result]
    have absent : ∀ entry ∈ p.shelf key, ¬ (operation key).sameTopology entry.param param :=
      fun entry present => by simpa using List.find?_eq_none.mp missing entry present
    cases room with
    | free room => exact consistent.shelve known room absent runner rfl rfl
    | @replacing victim full present idle _ =>
      have left : (p.evict key victim.id).shelf key = (p.shelf key).filter (·.id ≠ victim.id) :=
        p.shelf_modifyShelf_self _
      have fewer : ((p.evict key victim.id).shelf key).length < (p.shelf key).length := by
        rw [left, List.length_filter_lt_length_iff_exists]
        exact ⟨victim, present, by simp⟩
      have capacity := consistent.capacity key
      refine (consistent.evict present idle).shelve known (Nat.lt_of_lt_of_le fewer capacity)
        (fun entry kept => ?_) runner rfl rfl
      rw [left] at kept
      exact absent entry (List.mem_of_mem_filter kept)

end Consistent

theorem consistent_new {config : Config} {registered : List Key} {pool : Pool operation}
    (created : Pool.new operation config registered = .ok pool) : pool.Consistent [] [] := by
  simp only [Pool.new, Answer.bind_eq_ok, Answer.pure_eq_ok] at created
  obtain ⟨_, _, rfl⟩ := created
  have none : (⟨config, registered.eraseDups, fun _ => [], 0, 0, ⟨0, 0, 0, 0⟩⟩ :
      Pool operation).places = [] := by simp [places]
  refine ⟨nodup_eraseDups registered, fun _ _ => rfl, fun _ => Nat.zero_le _,
    fun _ _ => List.Pairwise.nil, ?_, ?_, rfl, Nat.le_refl 0⟩
  · rw [none]
    exact .empty
  · rw [none]
    rfl

theorem invariant_consistent : Session.Invariant fun (p : Pool operation) loans handed =>
    p.Consistent loans handed where
  perm same consistent := consistent.perm same
  checkOut key param consistent := consistent.checkOut key param
  use runner _ _ consistent := consistent.use runner
  checkIn consistent := consistent.checkIn.2

theorem invariant_config (config : Config) (registered : List Key) :
    Session.Invariant fun (p : Pool operation) _ _ =>
      p.config = config ∧ p.registered = registered where
  perm _ same := same
  checkOut {p _ _} key param same := by
    obtain ⟨ofConfig, ofRegistered⟩ := p.config_checkOut key param
    exact ⟨ofConfig.trans same.1, ofRegistered.trans same.2⟩
  use _ _ _ same := same
  checkIn {p loan _ _} same := by
    obtain ⟨ofConfig, ofRegistered⟩ := p.config_checkIn loan
    exact ⟨ofConfig.trans same.1, ofRegistered.trans same.2⟩

theorem config_afterAll {config : Config} {registered : List Key} {pool : Pool operation}
    (created : Pool.new operation config registered = .ok pool)
    (requests : List (Request operation)) :
    let session : Session operation := ⟨pool, []⟩
    (session.afterAll requests).pool.config = config ∧
      (session.afterAll requests).pool.registered = registered.eraseDups := by
  have start : pool.config = config ∧ pool.registered = registered.eraseDups := by
    simp only [Pool.new, Answer.bind_eq_ok, Answer.pure_eq_ok] at created
    obtain ⟨_, _, rfl⟩ := created
    exact ⟨rfl, rfl⟩
  exact (invariant_config config registered.eraseDups).afterAll [] start requests

/-- Whatever requests a pool has served, its table is consistent: with the capacity, with the loans
that are out, and with the counters. Every runner that is out goes back to its entry. -/
theorem consistent_afterAll {config : Config} {registered : List Key} {pool : Pool operation}
    (created : Pool.new operation config registered = .ok pool)
    (requests : List (Request operation)) :
    let session : Session operation := ⟨pool, []⟩
    let reached := session.afterAll requests
    reached.pool.config = config ∧
      reached.pool.Consistent reached.loans (session.history requests) ∧
      ∀ loan ∈ reached.loans, reached.pool.checkIn loan =
        (reached.pool.modifyEntry loan.key loan.id (PoolEntry.giveBack loan.runner), []) := by
  intro session reached
  have consistent : reached.pool.Consistent reached.loans (session.history requests) :=
    invariant_consistent.afterAll [] (consistent_new created) requests
  refine ⟨(config_afterAll created requests).1, consistent, fun loan out => ?_⟩
  obtain ⟨before, after, split⟩ := List.append_of_mem out
  have first := consistent.perm (split ▸ List.perm_middle)
  exact first.checkIn.1

/-- A pool with room for one runner of each operation. -/
def probes : Pool Probe.operation :=
  ⟨{ Config.default with poolCapacity := 1 }, [.picky, .broken], fun _ => [], 0, 0, ⟨0, 0, 0, 0⟩⟩

/-- One runner is lost in an update. Another makes room for a third, which stays out. -/
def probesServed : List (Request Probe.operation) :=
  [.checkOut .broken (⟨.relu, .ofInt 1⟩ : Scaled), .checkIn 0,
    .checkOut .broken (⟨.relu, .ofInt 2⟩ : Scaled), .checkOut .picky (2 : Int), .checkIn 0,
    .checkOut .picky (3 : Int), .checkOut .picky (4 : Int)]

/-- Three runners were built, two are gone, and the last is out on loan. -/
theorem probes_consistent :
    let session : Session Probe.operation := ⟨probes, []⟩
    let reached := session.afterAll probesServed
    reached.pool.Consistent reached.loans [0, 1, 2] ∧ reached.pool.stats = ⟨3, 0, 0, 2⟩ ∧
      reached.loans.map Loan.id = [2] := by
  intro session reached
  have created : Pool.new Probe.operation probes.config [.picky, .broken] = .ok probes := rfl
  have handed : session.history probesServed = [0, 1, 2] := by decide +kernel
  obtain ⟨-, consistent, -⟩ := consistent_afterAll created probesServed
  exact ⟨handed ▸ consistent, by decide +kernel, by decide +kernel⟩

end Pool

end OperatorGraph
