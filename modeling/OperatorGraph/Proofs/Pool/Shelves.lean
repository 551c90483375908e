import OperatorGraph.Proofs.Pool.CheckOut
import OperatorGraph.Proofs.Pool.Requests

set_option autoImplicit false

namespace OperatorGraph

variable {Key : Type} {operation : Key → Operation}

/-- Runners fit the parameters of their entries, whatever a pool does with them. -/
structure Operation.Maintains (op : Operation) (config : Config)
    (fits : Runner → op.Param → Prop) : Prop where
  created : ∀ {p built runner}, op.build p = .ok built → Runner.new built config = .ok runner →
    fits runner p
  patched : ∀ {r p q patch}, op.sameTopology p q → fits r p →
    op.update q (.start r.reset.graph) = (patch, .ok ()) →
    fits { r.reset with graph := patch.graph } q
  used : ∀ {r s p}, s.graph.blank = r.graph.blank → s.config = r.config → fits r p → fits s p

/-- The shelf of one key, with the loans of that key: no two loans are of one entry, an entry that
is out on loan has no runner, and runners fit the parameters of their entries. -/
structure Shelved {Param : Type} (fits : Runner → Param → Prop) (shelf : List (PoolEntry Param))
    (nextId : Nat) (loans : List (Loan Key)) : Prop where
  entriesApart : (shelf.map PoolEntry.id).Nodup
  issued : ∀ entry ∈ shelf, entry.id < nextId
  loansApart : (loans.map Loan.id).Nodup
  taken : ∀ loan ∈ loans, loan.id < nextId
  idle : ∀ entry ∈ shelf, ∀ runner, entry.runner = some runner →
    fits runner entry.param ∧ ∀ loan ∈ loans, loan.id ≠ entry.id
  lent : ∀ entry ∈ shelf, ∀ loan ∈ loans, loan.id = entry.id → fits loan.runner entry.param

namespace Shelved

variable {Param : Type} {fits : Runner → Param → Prop} {shelf : List (PoolEntry Param)}
  {nextId : Nat} {loan : Loan Key} {loans : List (Loan Key)}

theorem empty : Shelved fits ([] : List (PoolEntry Param)) nextId ([] : List (Loan Key)) := by
  constructor <;> simp

theorem perm {others : List (Loan Key)} (same : loans.Perm others)
    (shelved : Shelved fits shelf nextId loans) : Shelved fits shelf nextId others where
  entriesApart := shelved.entriesApart
  issued := shelved.issued
  loansApart := (same.map Loan.id).nodup_iff.mp shelved.loansApart
  taken other member := shelved.taken other (same.mem_iff.mpr member)
  idle entry present runner idle := by
    obtain ⟨fitting, free⟩ := shelved.idle entry present runner idle
    exact ⟨fitting, fun other member => free other (same.mem_iff.mpr member)⟩
  lent entry present other member := shelved.lent entry present other (same.mem_iff.mpr member)

theorem later {next : Nat} (later : nextId ≤ next) (shelved : Shelved fits shelf nextId loans) :
    Shelved fits shelf next loans where
  entriesApart := shelved.entriesApart
  issued entry present := Nat.lt_of_lt_of_le (shelved.issued entry present) later
  loansApart := shelved.loansApart
  taken other member := Nat.lt_of_lt_of_le (shelved.taken other member) later
  idle := shelved.idle
  lent := shelved.lent

theorem tail (shelved : Shelved fits shelf nextId (loan :: loans)) :
    Shelved fits shelf nextId loans where
  entriesApart := shelved.entriesApart
  issued := shelved.issued
  loansApart := (List.nodup_cons.mp shelved.loansApart).2
  taken other member := shelved.taken other (by simp [member])
  idle entry present runner idle := by
    obtain ⟨fitting, free⟩ := shelved.idle entry present runner idle
    exact ⟨fitting, fun other member => free other (by simp [member])⟩
  lent entry present other member := shelved.lent entry present other (by simp [member])

/-- An eviction removes entries. A loan whose entry is gone stays out. -/
theorem filter (keep : PoolEntry Param → Bool) (shelved : Shelved fits shelf nextId loans) :
    Shelved fits (shelf.filter keep) nextId loans where
  entriesApart := shelved.entriesApart.sublist (List.filter_sublist.map PoolEntry.id)
  issued entry present := shelved.issued entry (List.mem_of_mem_filter present)
  loansApart := shelved.loansApart
  taken := shelved.taken
  idle entry present := shelved.idle entry (List.mem_of_mem_filter present)
  lent entry present := shelved.lent entry (List.mem_of_mem_filter present)

/-- A runner that is used while it is out on loan keeps fitting. -/
theorem use {used : Loan Key} (sameId : used.id = loan.id)
    (keeps : ∀ param, fits loan.runner param → fits used.runner param)
    (shelved : Shelved fits shelf nextId (loan :: loans)) :
    Shelved fits shelf nextId (used :: loans) where
  entriesApart := shelved.entriesApart
  issued := shelved.issued
  loansApart := by
    have apart := shelved.loansApart
    rwa [List.map_cons, ← sameId] at apart
  taken := by
    intro other member
    rcases List.mem_cons.mp member with rfl | member
    · rw [sameId]
      exact shelved.taken loan (by simp)
    · exact shelved.taken other (by simp [member])
  idle := by
    intro entry present runner idle
    obtain ⟨fitting, free⟩ := shelved.idle entry present runner idle
    refine ⟨fitting, fun other member => ?_⟩
    rcases List.mem_cons.mp member with rfl | member
    · rw [sameId]
      exact free loan (by simp)
    · exact free other (by simp [member])
  lent := by
    intro entry present other member ofEntry
    rcases List.mem_cons.mp member with rfl | member
    · rw [sameId] at ofEntry
      exact keeps _ (shelved.lent entry present loan (by simp) ofEntry)
    · exact shelved.lent entry present other (by simp [member]) ofEntry

/-- Changes the entry of an id. -/
private abbrev changed (id : Nat) (change : PoolEntry Param → PoolEntry Param) :
    List (PoolEntry Param) → List (PoolEntry Param) :=
  List.map fun entry => if entry.id = id then change entry else entry

private theorem ids_changed {id : Nat} {change : PoolEntry Param → PoolEntry Param}
    (sameId : ∀ entry, (change entry).id = entry.id) (shelf : List (PoolEntry Param)) :
    (changed id change shelf).map PoolEntry.id = shelf.map PoolEntry.id := by
  simp only [changed, List.map_map]
  refine List.map_congr_left fun entry _ => ?_
  simp only [Function.comp_apply]
  split
  · exact sameId entry
  · rfl

private theorem of_mem_changed {id : Nat} {change : PoolEntry Param → PoolEntry Param}
    {entry : PoolEntry Param} (present : entry ∈ changed id change shelf) :
    (∃ old ∈ shelf, old.id = id ∧ entry = change old) ∨ (entry ∈ shelf ∧ entry.id ≠ id) := by
  obtain ⟨old, before, rfl⟩ := List.mem_map.mp present
  by_cases same : old.id = id
  · rw [if_pos same]
    exact .inl ⟨old, before, same, rfl⟩
  · rw [if_neg same]
    exact .inr ⟨before, same⟩

section

variable {change : PoolEntry Param → PoolEntry Param}
  (sameId : ∀ entry, (change entry).id = entry.id)
include sameId

/-- The runner of an entry goes out on loan, fit for a parameter that the entry takes over. -/
theorem lend (loan : Loan Key) {entry : PoolEntry Param} (present : entry ∈ shelf) {runner : Runner}
    (idle : entry.runner = some runner) {param : Param}
    (takesOver : ∀ entry, (change entry).param = param)
    (vacant : ∀ entry, (change entry).runner = none) (ofEntry : loan.id = entry.id)
    (fitting : fits loan.runner param) (shelved : Shelved fits shelf nextId loans) :
    Shelved fits (changed entry.id change shelf) nextId (loan :: loans) where
  entriesApart := by
    rw [ids_changed sameId]
    exact shelved.entriesApart
  issued := by
    intro other member
    rcases of_mem_changed member with ⟨old, before, -, rfl⟩ | ⟨before, -⟩
    · rw [sameId]
      exact shelved.issued old before
    · exact shelved.issued other before
  loansApart := by
    rw [List.map_cons, List.nodup_cons]
    refine ⟨fun known => ?_, shelved.loansApart⟩
    obtain ⟨other, member, same⟩ := List.mem_map.mp known
    exact (shelved.idle entry present runner idle).2 other member (same.trans ofEntry)
  taken := by
    intro other member
    rcases List.mem_cons.mp member with rfl | member
    · rw [ofEntry]
      exact shelved.issued entry present
    · exact shelved.taken other member
  idle := by
    intro other member free idleThere
    rcases of_mem_changed member with ⟨old, -, -, rfl⟩ | ⟨before, elsewhere⟩
    · simp [vacant] at idleThere
    · obtain ⟨fitting, apart⟩ := shelved.idle other before free idleThere
      refine ⟨fitting, fun held ofLoans => ?_⟩
      rcases List.mem_cons.mp ofLoans with rfl | ofLoans
      · rw [ofEntry]
        exact elsewhere.symm
      · exact apart held ofLoans
  lent := by
    intro other member held ofLoans same
    have free := (shelved.idle entry present runner idle).2
    rcases of_mem_changed member with ⟨old, before, here, rfl⟩ | ⟨before, elsewhere⟩
    · rw [takesOver]
      rcases List.mem_cons.mp ofLoans with rfl | ofLoans
      · exact fitting
      · rw [sameId, here] at same
        exact absurd same (free held ofLoans)
    · rcases List.mem_cons.mp ofLoans with rfl | ofLoans
      · exact absurd (same.symm.trans ofEntry) elsewhere
      · exact shelved.lent other before held ofLoans same

/-- A runner goes back to its entry. -/
theorem giveBack (sameParam : ∀ entry, (change entry).param = entry.param)
    (returned : ∀ entry, (change entry).runner = some loan.runner)
    (shelved : Shelved fits shelf nextId (loan :: loans)) :
    Shelved fits (changed loan.id change shelf) nextId loans where
  entriesApart := by
    rw [ids_changed sameId]
    exact shelved.entriesApart
  issued := by
    intro other member
    rcases of_mem_changed member with ⟨old, before, -, rfl⟩ | ⟨before, -⟩
    · rw [sameId]
      exact shelved.issued old before
    · exact shelved.issued other before
  loansApart := shelved.tail.loansApart
  taken := shelved.tail.taken
  idle := by
    intro other member free idleThere
    rcases of_mem_changed member with ⟨old, before, here, rfl⟩ | ⟨before, -⟩
    · rw [returned, Option.some.injEq] at idleThere
      subst idleThere
      rw [sameParam, sameId, here]
      refine ⟨shelved.lent old before loan (by simp) here.symm, fun held ofLoans same => ?_⟩
      have apart := (List.nodup_cons.mp shelved.loansApart).1
      exact apart (List.mem_map.mpr ⟨held, ofLoans, same⟩)
    · exact shelved.tail.idle other before free idleThere
  lent := by
    intro other member held ofLoans same
    rcases of_mem_changed member with ⟨old, before, -, rfl⟩ | ⟨before, -⟩
    · rw [sameId] at same
      rw [sameParam]
      exact shelved.tail.lent old before held ofLoans same
    · exact shelved.tail.lent other before held ofLoans same

end

/-- A new entry, whose runner is out on loan. -/
theorem shelve {entry : PoolEntry Param} (vacant : entry.runner = none) (new : entry.id = nextId)
    (ofEntry : loan.id = nextId) (fitting : fits loan.runner entry.param)
    (shelved : Shelved fits shelf nextId loans) :
    Shelved fits (shelf ++ [entry]) (nextId + 1) (loan :: loans) where
  entriesApart := by
    rw [List.map_append, List.nodup_append]
    refine ⟨shelved.entriesApart, by simp, ?_⟩
    intro a old b added same
    obtain ⟨other, present, rfl⟩ := List.mem_map.mp old
    have below := shelved.issued other present
    have here : b = nextId := by simpa [new] using added
    omega
  issued := by
    intro other present
    rcases List.mem_append.mp present with old | added
    · have below := shelved.issued other old
      omega
    · obtain rfl : other = entry := by simpa using added
      omega
  loansApart := by
    rw [List.map_cons, List.nodup_cons]
    refine ⟨fun known => ?_, shelved.loansApart⟩
    obtain ⟨other, member, same⟩ := List.mem_map.mp known
    have below := shelved.taken other member
    omega
  taken := by
    intro other member
    rcases List.mem_cons.mp member with rfl | member
    · omega
    · have below := shelved.taken other member
      omega
  idle := by
    intro other present runner idle
    rcases List.mem_append.mp present with old | added
    · obtain ⟨fitting, free⟩ := shelved.idle other old runner idle
      refine ⟨fitting, fun held member => ?_⟩
      have below := shelved.issued other old
      rcases List.mem_cons.mp member with rfl | member
      · omega
      · exact free held member
    · obtain rfl : other = entry := by simpa using added
      simp [vacant] at idle
  lent := by
    intro other present held member same
    rcases List.mem_append.mp present with old | added
    · have below := shelved.issued other old
      rcases List.mem_cons.mp member with rfl | member
      · omega
      · exact shelved.lent other old held member same
    · obtain rfl : other = entry := by simpa using added
      rcases List.mem_cons.mp member with rfl | member
      · exact fitting
      · have below := shelved.taken held member
        omega

end Shelved

namespace Pool

variable [DecidableEq Key]

/-- What a check-out can come to: the change of the shelves and the result. -/
inductive CheckedOut (p : Pool operation) (key : Key) (param : (operation key).Param)
    (out : Outcome (Pool operation) Error (Loan Key)) : Prop where
  | refused {refusal : PoolError} (result : out.result = .error (.pool refusal))
      (noUpdate : ∀ name node reason, refusal ≠ .update name node reason)
      (shelf : out.state.shelf = p.shelf) (nextId : out.state.nextId = p.nextId)
  | unbuilt {refusal : Error} (result : out.result = .error refusal)
      (failed : (operation key).build param = .error refusal ∨
        ∃ built, (operation key).build param = .ok built ∧
          Runner.new built p.config = .error refusal)
      (shelf : out.state.shelf = p.shelf) (nextId : out.state.nextId = p.nextId)
  | lost {entry : PoolEntry (operation key).Param} {runner : Runner} {patch : Patch}
      {refusal : PoolError} (result : out.result = .error (.pool refusal))
      (found : p.find? key param = some entry) (idle : entry.runner = some runner)
      (failed : (operation key).update param (.start runner.reset.graph) =
        (patch, .error refusal))
      (shelf : out.state.shelf = (p.modifyShelf key (List.filter (·.id ≠ entry.id))).shelf)
      (nextId : out.state.nextId = p.nextId)
  | hit {entry : PoolEntry (operation key).Param} {runner : Runner}
      (result : out.result = .ok ⟨key, entry.id, runner⟩)
      (found : p.find? key param = some entry) (idle : entry.runner = some runner)
      (equal : (operation key).equals entry.param param)
      (shelf : out.state.shelf = (p.modifyEntry key entry.id fun other =>
        { other with param := entry.param, runner := none, lastUsed := p.clock + 1 }).shelf)
      (nextId : out.state.nextId = p.nextId)
  | updated {entry : PoolEntry (operation key).Param} {runner : Runner} {patch : Patch}
      (result : out.result = .ok ⟨key, entry.id, { runner.reset with graph := patch.graph }⟩)
      (found : p.find? key param = some entry) (idle : entry.runner = some runner)
      (patched : (operation key).update param (.start runner.reset.graph) = (patch, .ok ()))
      (shelf : out.state.shelf = (p.modifyEntry key entry.id fun other =>
        { other with param, runner := none, lastUsed := p.clock + 1 }).shelf)
      (nextId : out.state.nextId = p.nextId)
  | built (keep : PoolEntry (operation key).Param → Bool) {built : Graph} {runner : Runner}
      (result : out.result = .ok ⟨key, p.nextId, runner⟩)
      (build : (operation key).build param = .ok built)
      (created : Runner.new built p.config = .ok runner)
      (shelf : out.state.shelf = (p.modifyShelf key fun entries =>
        entries.filter keep ++ [⟨p.nextId, param, none, p.clock + 1⟩]).shelf)
      (nextId : out.state.nextId = p.nextId + 1)

theorem checkOut_spec (p : Pool operation) (key : Key) (param : (operation key).Param) :
    CheckedOut p key param (p.checkOut key param) := by
  cases p.checkOut_answers key param with
  | unregistered _ state result =>
    exact .refused result (fun _ _ _ => by simp) (by rw [state]) (by rw [state])
  | busy _ _ _ state result | exhausted _ _ _ _ state result =>
    exact .refused result (fun _ _ _ => by simp) (by rw [state]; rfl) (by rw [state]; rfl)
  | reused _ found idle equal state result =>
    exact .hit result found idle equal (by rw [state]; rfl) (by rw [state]; rfl)
  | patched _ found idle _ patched state result =>
    exact .updated result found idle patched (by rw [state]; rfl) (by rw [state]; rfl)
  | lost _ found idle _ failed state result =>
    exact .lost result found idle failed (by rw [state]; rfl) (by rw [state]; rfl)
  | unbuilt _ _ _ failed state result =>
    exact .unbuilt result failed (by rw [state]; rfl) (by rw [state]; rfl)
  | @built victim graph runner _ _ _ build created state result =>
    cases victim with
    | none =>
      refine .built (fun _ => true) result build created ?_ (by rw [state]; rfl)
      simp only [state, shelve, List.filter_true]
      rfl
    | some id =>
      refine .built (fun entry => entry.id ≠ id) result build created ?_ (by rw [state]; rfl)
      have evicted : (p.ticked.evict key id).shelf =
        (p.modifyShelf key (List.filter fun entry => entry.id ≠ id)).shelf := rfl
      rw [state]
      exact p.shelf_modifyShelf_twice evicted fun entries =>
        entries ++ [⟨p.nextId, param, none, p.clock + 1⟩]

section

variable {p : Pool operation} {key : Key} {param : (operation key).Param}
  {out : Outcome (Pool operation) Error (Loan Key)} (spec : CheckedOut p key param out)
include spec

theorem CheckedOut.elsewhere {other : Key} (different : key ≠ other) :
    out.state.shelf other = p.shelf other ∧ p.nextId ≤ out.state.nextId := by
  have apart := p.shelf_modifyShelf_of_ne different
  cases spec with
  | refused _ _ shelf nextId => exact ⟨congrFun shelf other, by omega⟩
  | unbuilt _ _ shelf nextId => exact ⟨congrFun shelf other, by omega⟩
  | lost _ _ _ _ shelf nextId => exact ⟨(congrFun shelf other).trans (apart _), by omega⟩
  | hit _ _ _ _ shelf nextId => exact ⟨(congrFun shelf other).trans (apart _), by omega⟩
  | updated _ _ _ _ shelf nextId => exact ⟨(congrFun shelf other).trans (apart _), by omega⟩
  | built _ _ _ _ shelf nextId => exact ⟨(congrFun shelf other).trans (apart _), by omega⟩

theorem CheckedOut.key_loan {loan : Loan Key} (success : out.result = .ok loan) :
    loan.key = key := by
  cases spec with
  | refused result => simp [result] at success
  | unbuilt result => simp [result] at success
  | lost result => simp [result] at success
  | hit result => rw [← Except.ok.inj (result.symm.trans success)]
  | updated result => rw [← Except.ok.inj (result.symm.trans success)]
  | built _ result => rw [← Except.ok.inj (result.symm.trans success)]

end

/-- The shelf of a key keeps to the loans of that key. -/
def Kept (key : Key) (fits : Runner → (operation key).Param → Prop) (p : Pool operation)
    (loans : List (Loan Key)) : Prop :=
  Shelved fits (p.shelf key) p.nextId (loans.filter (·.key = key))

section

variable {key : Key} {fits : Runner → (operation key).Param → Prop} {p : Pool operation}
  {loan : Loan Key} {loans : List (Loan Key)}

theorem Kept.perm {others : List (Loan Key)} (kept : Kept key fits p loans)
    (same : loans.Perm others) : Kept key fits p others :=
  Shelved.perm (same.filter _) kept

theorem Kept.elsewhere {q : Pool operation} (kept : Kept key fits p loans)
    (shelf : q.shelf key = p.shelf key) (later : p.nextId ≤ q.nextId) : Kept key fits q loans := by
  unfold Kept
  rw [shelf]
  exact Shelved.later later kept

theorem Kept.use (kept : Kept key fits p (loan :: loans)) (used : Loan Key)
    (sameKey : used.key = loan.key) (sameId : used.id = loan.id)
    (keeps : ∀ param, fits loan.runner param → fits used.runner param) :
    Kept key fits p (used :: loans) := by
  unfold Kept at kept ⊢
  by_cases here : loan.key = key
  · rw [List.filter_cons_of_pos (by simp [here])] at kept
    rw [List.filter_cons_of_pos (by simp [sameKey, here])]
    exact kept.use sameId keeps
  · rw [List.filter_cons_of_neg (by simp [here])] at kept
    rwa [List.filter_cons_of_neg (by simp [sameKey, here])]

theorem Kept.checkIn (kept : Kept key fits p (loan :: loans)) :
    Kept key fits (p.checkIn loan).1 loans := by
  unfold Pool.checkIn
  by_cases here : loan.key = key
  · unfold Kept at kept
    rw [List.filter_cons_of_pos (by simp [here])] at kept
    split
    · subst here
      unfold Kept modifyEntry
      rw [shelf_modifyShelf_self]
      exact kept.giveBack (fun _ => rfl) (fun _ => rfl) fun _ => rfl
    · exact kept.tail
  · have others : Kept key fits p loans := by
      unfold Kept at kept ⊢
      rwa [List.filter_cons_of_neg (by simp [here])] at kept
    split
    · exact others.elsewhere (shelf_modifyShelf_of_ne p here _) (Nat.le_refl _)
    · exact others

/-- A check-out keeps the shelves of all keys. -/
theorem Kept.checkOut (maintains : (operation key).Maintains p.config fits)
    (kept : Kept key fits p loans) (other : Key) (param : (operation other).Param) :
    Kept key fits (p.checkOut other param).state
      ((p.checkOut other param).result.toOption.toList ++ loans) := by
  have spec := p.checkOut_spec other param
  by_cases here : other = key
  · subst here
    have filtered (loan : Loan Key) (ofKey : loan.key = other) :
        (loan :: loans).filter (·.key = other) = loan :: loans.filter (·.key = other) :=
      List.filter_cons_of_pos (by simp [ofKey])
    unfold Kept at kept ⊢
    cases spec with
    | refused result _ shelf nextId =>
      rw [result, shelf, nextId]
      exact kept
    | unbuilt result _ shelf nextId =>
      rw [result, shelf, nextId]
      exact kept
    | lost result _ _ _ shelf nextId =>
      rw [result, shelf, nextId, shelf_modifyShelf_self]
      exact kept.filter _
    | @hit entry runner result found idle _ shelf nextId =>
      have present := (find?_spec found).1
      rw [result, shelf, nextId, modifyEntry, shelf_modifyShelf_self]
      simp only [Except.toOption, Option.toList, List.singleton_append, filtered]
      have fitting := (kept.idle entry present runner idle).1
      refine kept.lend ?_ ⟨other, entry.id, runner⟩ present idle ?_ ?_ rfl fitting <;>
        exact fun _ => rfl
    | @updated entry runner patch result found idle patched shelf nextId =>
      obtain ⟨present, topology⟩ := find?_spec found
      have fitting := maintains.patched topology (kept.idle entry present runner idle).1 patched
      rw [result, shelf, nextId, modifyEntry, shelf_modifyShelf_self]
      simp only [Except.toOption, Option.toList, List.singleton_append, filtered]
      refine kept.lend ?_ ⟨other, entry.id, { runner.reset with graph := patch.graph }⟩
        present idle ?_ ?_ rfl fitting <;>
        exact fun _ => rfl
    | built keep result build created shelf nextId =>
      rw [result, shelf, nextId, shelf_modifyShelf_self]
      simp only [Except.toOption, Option.toList, List.singleton_append, filtered]
      exact (kept.filter keep).shelve rfl rfl rfl (maintains.created build created)
  · obtain ⟨shelf, later⟩ := spec.elsewhere here
    have stays := kept.elsewhere shelf later
    cases result : (p.checkOut other param).result with
    | error refusal => exact stays
    | ok loan =>
      have elsewhere : loan.key ≠ key := by
        rw [spec.key_loan result]
        exact here
      unfold Kept at stays ⊢
      simp only [Except.toOption, Option.toList, List.singleton_append]
      rwa [List.filter_cons_of_neg (by simp [elsewhere])]

end

end Pool

namespace Session

variable [DecidableEq Key] {key : Key} {fits : Runner → (operation key).Param → Prop}

/-- Every step keeps the shelf of a key, and the configuration. -/
theorem invariant_kept {config : Config} (maintains : (operation key).Maintains config fits) :
    Invariant fun (p : Pool operation) loans _ => p.Kept key fits loans ∧ p.config = config where
  perm := fun same ⟨kept, ofConfig⟩ => ⟨kept.perm same, ofConfig⟩
  checkOut := by
    rintro p loans _ other param ⟨kept, rfl⟩
    exact ⟨kept.checkOut maintains other param, (p.config_checkOut other param).1⟩
  use := by
    rintro p loan loans _ runner graph sameConfig ⟨kept, ofConfig⟩
    exact ⟨kept.use _ rfl rfl fun _ => maintains.used graph sameConfig, ofConfig⟩
  checkIn := by
    rintro p loan loans _ ⟨kept, rfl⟩
    exact ⟨kept.checkIn, (p.config_checkIn loan).1⟩

/-- Any requests, in any order, keep the shelf of a key. -/
theorem kept_afterAll {s : Session operation}
    (maintains : (operation key).Maintains s.pool.config fits)
    (kept : s.pool.Kept key fits s.loans) (requests : List (Request operation)) :
    (s.afterAll requests).pool.Kept key fits (s.afterAll requests).loans ∧
      (s.afterAll requests).pool.config = s.pool.config :=
  (invariant_kept maintains).afterAll [] ⟨kept, rfl⟩ requests

end Session

end OperatorGraph
