import Mathlib.Data.List.Pairwise
import OperatorGraph.Proofs.Pool.CheckOut

set_option autoImplicit false

namespace OperatorGraph

variable {Key : Type}

section

variable {α : Type} {before after : List α} {a : α} (here : α → Prop) [DecidablePred here]
  (at' : here a) (elsewhere : ∀ other ∈ before ++ after, ¬ here other)
include at' elsewhere

theorem filter_middle : (before ++ a :: after).filter (fun other => ¬ here other) =
    before ++ after := by
  have kept (list : List α) (part : ∀ other ∈ list, other ∈ before ++ after) :
      list.filter (fun other => ¬ here other) = list :=
    List.filter_eq_self.mpr fun other member => by simpa using elsewhere other (part other member)
  rw [List.filter_append, List.filter_cons_of_neg (by simpa using at'),
    kept before fun other member => by simp [member],
    kept after fun other member => by simp [member]]

theorem map_middle (change : α → α) :
    (before ++ a :: after).map (fun other => if here other then change other else other) =
      before ++ change a :: after := by
  have kept (list : List α) (part : ∀ other ∈ list, other ∈ before ++ after) :
      list.map (fun other => if here other then change other else other) = list := by
    refine (List.map_congr_left fun other member => ?_).trans list.map_id
    exact if_neg (elsewhere other (part other member))
  rw [List.map_append, List.map_cons, if_pos at', kept before fun other member => by simp [member],
    kept after fun other member => by simp [member]]

end

/-- An entry, without what depends on its key. -/
structure Place (Key : Type) where
  key : Key
  id : Nat
  lastUsed : Nat
  vacant : Bool

namespace Place

def of {Param : Type} (key : Key) (entry : PoolEntry Param) : Place Key :=
  ⟨key, entry.id, entry.lastUsed, entry.runner.isNone⟩

def lend (now : Nat) (place : Place Key) : Place Key :=
  { place with lastUsed := now, vacant := true }

def giveBack (place : Place Key) : Place Key :=
  { place with vacant := false }

/-- Changes the place of one entry in a table. -/
def changeAt [DecidableEq Key] (key : Key) (id : Nat) (change : Place Key → Place Key)
    (places : List (Place Key)) : List (Place Key) :=
  places.map fun place => if place.key = key ∧ place.id = id then change place else place

end Place

/-- One entry was handed out for the last time before another was: the other was handed out again
since. -/
def Earlier (handed : List Nat) (first second : Nat) : Prop :=
  first ≠ second ∧ ∃ before after, handed = before ++ second :: after ∧ first ∉ after

theorem Earlier.append {handed : List Nat} {first second : Nat}
    (earlier : Earlier handed first second) {id : Nat} (other : first ≠ id) :
    Earlier (handed ++ [id]) first second := by
  obtain ⟨different, before, after, rfl, since⟩ := earlier
  refine ⟨different, before, after ++ [id], by simp, ?_⟩
  simp [since, other]

theorem earlier_last (handed : List Nat) {first second : Nat} (different : first ≠ second) :
    Earlier (handed ++ [second]) first second :=
  ⟨different, handed, [], rfl, by simp⟩

/-- The places of a pool, with the loans that are out and the ids that were handed out: an entry is
vacant exactly while one loan is out of it, every loan has its entry, and the entries are stamped in
the order in which they were handed out. -/
structure Tabled (places : List (Place Key)) (loans : List (Loan Key)) (nextId clock : Nat)
    (handed : List Nat) : Prop where
  apart : places.Pairwise fun a b => a.id ≠ b.id ∧ a.lastUsed ≠ b.lastUsed
  issued : ∀ place ∈ places, place.id < nextId
  stamped : ∀ place ∈ places, place.lastUsed ≤ clock
  lent : ∀ place ∈ places, loans.countP (·.id = place.id) = if place.vacant then 1 else 0
  known : ∀ loan ∈ loans, ∃ place ∈ places, place.key = loan.key ∧ place.id = loan.id
  ordered : ∀ a ∈ places, ∀ b ∈ places, a.lastUsed < b.lastUsed → Earlier handed a.id b.id

namespace Tabled

variable {places : List (Place Key)} {loan : Loan Key} {loans : List (Loan Key)}
  {nextId clock : Nat} {handed : List Nat}

theorem empty : Tabled ([] : List (Place Key)) [] nextId clock handed := by
  constructor <;> simp

theorem perm {others : List (Loan Key)} (same : loans.Perm others)
    (tabled : Tabled places loans nextId clock handed) :
    Tabled places others nextId clock handed :=
  { tabled with
    lent := fun place present => by rw [← same.countP_eq, tabled.lent place present]
    known := fun other member => tabled.known other (same.mem_iff.mpr member) }

theorem later {now : Nat} (later : clock ≤ now)
    (tabled : Tabled places loans nextId clock handed) : Tabled places loans nextId now handed :=
  { tabled with
    stamped := fun place present => Nat.le_trans (tabled.stamped place present) later }

theorem use (runner : Runner) (tabled : Tabled places (loan :: loans) nextId clock handed) :
    Tabled places ({ loan with runner } :: loans) nextId clock handed :=
  { tabled with
    lent := fun place present => by simpa only [List.countP_cons] using tabled.lent place present
    known := by simpa using tabled.known }

private theorem symm_apart :
    Std.Symm fun a b : Place Key => a.id ≠ b.id ∧ a.lastUsed ≠ b.lastUsed :=
  ⟨fun _ _ apart => ⟨apart.1.symm, apart.2.symm⟩⟩

theorem reorder {others : List (Place Key)} (same : places.Perm others)
    (tabled : Tabled places loans nextId clock handed) :
    Tabled others loans nextId clock handed where
  apart := same.pairwise tabled.apart fun {a b} => symm_apart.symm a b
  issued place present := tabled.issued place (same.mem_iff.mpr present)
  stamped place present := tabled.stamped place (same.mem_iff.mpr present)
  lent place present := tabled.lent place (same.mem_iff.mpr present)
  known loan member := by
    obtain ⟨place, present, ofLoan⟩ := tabled.known loan member
    exact ⟨place, same.mem_iff.mp present, ofLoan⟩
  ordered a first b second :=
    tabled.ordered a (same.mem_iff.mpr first) b (same.mem_iff.mpr second)

theorem distinct (tabled : Tabled places loans nextId clock handed) {a b : Place Key}
    (first : a ∈ places) (second : b ∈ places) (different : a ≠ b) :
    a.id ≠ b.id ∧ a.lastUsed ≠ b.lastUsed := by
  have symmetric : Std.Symm fun a b : Place Key => a.id ≠ b.id ∧ a.lastUsed ≠ b.lastUsed :=
    symm_apart
  exact tabled.apart.forall first second different

theorem eq_of_id (tabled : Tabled places loans nextId clock handed) {a b : Place Key}
    (first : a ∈ places) (second : b ∈ places) (same : a.id = b.id) : a = b := by
  by_contra different
  exact (tabled.distinct first second different).1 same

/-- Of two entries, the one with the lower stamp was handed out for the last time before the other
was. -/
theorem earlier_of_le (tabled : Tabled places loans nextId clock handed) {a b : Place Key}
    (first : a ∈ places) (second : b ∈ places) (different : a.id ≠ b.id)
    (before : a.lastUsed ≤ b.lastUsed) : Earlier handed a.id b.id := by
  have others : a ≠ b := fun same => different (congrArg Place.id same)
  have stamps := (tabled.distinct first second others).2
  exact tabled.ordered a first b second (by omega)

theorem not_lent (tabled : Tabled places loans nextId clock handed) {place : Place Key}
    (present : place ∈ places) (idle : place.vacant = false) :
    ∀ loan ∈ loans, loan.id ≠ place.id := by
  have none := tabled.lent place present
  simpa [idle] using none

/-- A new entry, whose runner goes out on loan. -/
theorem add {key : Key} {now : Nat} (ofKey : loan.key = key) (ofEntry : loan.id = nextId)
    (moved : clock < now) (tabled : Tabled places loans nextId clock handed) :
    Tabled (places ++ [⟨key, nextId, now, true⟩]) (loan :: loans) (nextId + 1) now
      (handed ++ [nextId]) where
  apart := by
    refine List.pairwise_append.mpr ⟨tabled.apart, by simp, fun place present added last => ?_⟩
    obtain rfl := List.mem_singleton.mp last
    have issued := tabled.issued place present
    have stamped := tabled.stamped place present
    exact ⟨by simp only; omega, by simp only; omega⟩
  issued := by
    intro place present
    rcases List.mem_append.mp present with old | added
    · have issued := tabled.issued place old
      omega
    · obtain rfl := List.mem_singleton.mp added
      exact Nat.lt_succ_self nextId
  stamped := by
    intro place present
    rcases List.mem_append.mp present with old | added
    · have stamped := tabled.stamped place old
      omega
    · obtain rfl := List.mem_singleton.mp added
      exact Nat.le_refl now
  lent := by
    intro place present
    rcases List.mem_append.mp present with old | added
    · have issued := tabled.issued place old
      rw [List.countP_cons_of_neg (by simp; omega), tabled.lent place old]
    · obtain rfl := List.mem_singleton.mp added
      have unknown : loans.countP (·.id = nextId) = 0 := by
        refine List.countP_eq_zero.mpr fun other member => ?_
        obtain ⟨held, old, -, same⟩ := tabled.known other member
        have issued := tabled.issued held old
        simp only [decide_eq_true_eq]
        omega
      rw [List.countP_cons_of_pos (by simp [ofEntry]), unknown]
      rfl
  known := by
    intro other member
    rcases List.mem_cons.mp member with rfl | member
    · exact ⟨_, List.mem_append.mpr (.inr (List.mem_singleton.mpr rfl)), ofKey.symm, ofEntry.symm⟩
    · obtain ⟨place, present, ofLoan⟩ := tabled.known other member
      exact ⟨place, List.mem_append.mpr (.inl present), ofLoan⟩
  ordered := by
    intro a first b second before
    have different (place : Place Key) (old : place ∈ places) : place.id ≠ nextId := by
      have issued := tabled.issued place old
      omega
    rcases List.mem_append.mp first with oldA | addedA
    · rcases List.mem_append.mp second with oldB | addedB
      · exact (tabled.ordered a oldA b oldB before).append (different a oldA)
      · rw [List.mem_singleton.mp addedB]
        exact earlier_last handed (different a oldA)
    · -- Nothing is stamped after the new entry.
      rw [List.mem_singleton.mp addedA] at before
      rcases List.mem_append.mp second with oldB | addedB
      · have stamped := tabled.stamped b oldB
        simp only at before
        omega
      · rw [List.mem_singleton.mp addedB] at before
        exact absurd before (Nat.lt_irrefl _)

variable [DecidableEq Key]

/-- An idle entry goes. -/
theorem remove {target : Place Key} (present : target ∈ places) (idle : target.vacant = false)
    (tabled : Tabled places loans nextId clock handed) :
    Tabled (places.filter fun place => ¬ (place.key = target.key ∧ place.id = target.id)) loans
      nextId clock handed where
  apart := tabled.apart.sublist List.filter_sublist
  issued place left := tabled.issued place (List.mem_of_mem_filter left)
  stamped place left := tabled.stamped place (List.mem_of_mem_filter left)
  lent place left := tabled.lent place (List.mem_of_mem_filter left)
  known loan member := by
    obtain ⟨place, there, ofKey, ofEntry⟩ := tabled.known loan member
    have other := tabled.not_lent present idle loan member
    refine ⟨place, List.mem_filter.mpr ⟨there, ?_⟩, ofKey, ofEntry⟩
    simp only [ofEntry, other, and_false, not_false_eq_true, decide_true]
  ordered a first b second :=
    tabled.ordered a (List.mem_of_mem_filter first) b (List.mem_of_mem_filter second)

private theorem of_mem_changeAt (tabled : Tabled places loans nextId clock handed)
    {target : Place Key} (present : target ∈ places) {change : Place Key → Place Key}
    {place : Place Key} (member : place ∈ Place.changeAt target.key target.id change places) :
    place = change target ∨ (place ∈ places ∧ place.id ≠ target.id) := by
  obtain ⟨old, before, rfl⟩ := List.mem_map.mp member
  by_cases same : old.id = target.id
  · obtain rfl := tabled.eq_of_id before present same
    exact .inl (if_pos ⟨rfl, rfl⟩)
  · have elsewhere : ¬ (old.key = target.key ∧ old.id = target.id) := fun both => same both.2
    rw [if_neg elsewhere]
    exact .inr ⟨before, same⟩

theorem length_remove {target : Place Key} (present : target ∈ places)
    (tabled : Tabled places loans nextId clock handed) :
    (places.filter fun place => ¬ (place.key = target.key ∧ place.id = target.id)).length + 1 =
      places.length := by
  obtain ⟨before, after, rfl⟩ := List.append_of_mem present
  have apart := (List.pairwise_cons.mp
    ((List.pairwise_middle fun {a b} => symm_apart.symm a b).mp tabled.apart)).1
  rw [filter_middle (fun place => place.key = target.key ∧ place.id = target.id) ⟨rfl, rfl⟩
    fun other member both => (apart other member).1 both.2.symm]
  simp only [List.length_append, List.length_cons]
  omega

/-- Every entry is still there after one is changed. -/
private theorem mem_changeAt (target : Place Key) (change : Place Key → Place Key)
    (same : ∀ place, (change place).key = place.key ∧ (change place).id = place.id)
    {place : Place Key} (present : place ∈ places) :
    ∃ now ∈ Place.changeAt target.key target.id change places,
      now.key = place.key ∧ now.id = place.id := by
  refine ⟨_, List.mem_map.mpr ⟨place, present, rfl⟩, ?_⟩
  split
  · exact same place
  · exact ⟨rfl, rfl⟩

/-- The runner of an idle entry goes out on loan. -/
theorem lend {target : Place Key} {now : Nat} (present : target ∈ places)
    (idle : target.vacant = false) (ofKey : loan.key = target.key) (ofEntry : loan.id = target.id)
    (moved : clock < now) (tabled : Tabled places loans nextId clock handed) :
    Tabled (Place.changeAt target.key target.id (Place.lend now) places)
      (loan :: loans) nextId now (handed ++ [target.id]) where
  apart := by
    refine List.pairwise_map.mpr (tabled.apart.imp_of_mem fun {a b} first second apart => ?_)
    have before (place : Place Key) (there : place ∈ places) : place.lastUsed < now :=
      Nat.lt_of_le_of_lt (tabled.stamped place there) moved
    by_cases here : a.key = target.key ∧ a.id = target.id
    · have elsewhere : ¬ (b.key = target.key ∧ b.id = target.id) := fun both =>
        apart.1 (here.2.trans both.2.symm)
      rw [if_pos here, if_neg elsewhere]
      exact ⟨apart.1, (Nat.ne_of_lt (before b second)).symm⟩
    · rw [if_neg here]
      split
      · exact ⟨apart.1, Nat.ne_of_lt (before a first)⟩
      · exact apart
  issued := by
    intro place member
    rcases tabled.of_mem_changeAt present member with rfl | ⟨there, -⟩
    · exact tabled.issued target present
    · exact tabled.issued place there
  stamped := by
    intro place member
    rcases tabled.of_mem_changeAt present member with rfl | ⟨there, -⟩
    · exact Nat.le_refl now
    · have stamped := tabled.stamped place there
      omega
  lent := by
    intro place member
    rcases tabled.of_mem_changeAt present member with rfl | ⟨there, elsewhere⟩
    · have free : loans.countP (·.id = target.id) = 0 := by
        rw [tabled.lent target present, idle]
        rfl
      have one : (loan :: loans).countP (·.id = target.id) = 1 := by
        rw [List.countP_cons_of_pos (by simp [ofEntry]), free]
      exact one
    · rw [List.countP_cons_of_neg (by simp [ofEntry, elsewhere.symm]), tabled.lent place there]
  known := by
    intro other member
    have kept {place : Place Key} (there : place ∈ places) :=
      mem_changeAt target (Place.lend now) (fun _ => ⟨rfl, rfl⟩) there
    rcases List.mem_cons.mp member with rfl | member
    · obtain ⟨place, there, sameKey, sameId⟩ := kept present
      exact ⟨place, there, sameKey.trans ofKey.symm, sameId.trans ofEntry.symm⟩
    · obtain ⟨old, before, key, id⟩ := tabled.known other member
      obtain ⟨place, there, sameKey, sameId⟩ := kept before
      exact ⟨place, there, sameKey.trans key, sameId.trans id⟩
  ordered := by
    intro a first b second before
    rcases tabled.of_mem_changeAt present first with rfl | ⟨thereA, elsewhereA⟩
    · -- Nothing is stamped after the entry that goes out.
      simp only [Place.lend] at before
      rcases tabled.of_mem_changeAt present second with rfl | ⟨thereB, -⟩
      · exact absurd before (Nat.lt_irrefl now)
      · have stamped := tabled.stamped b thereB
        omega
    · rcases tabled.of_mem_changeAt present second with rfl | ⟨thereB, -⟩
      · exact earlier_last handed elsewhereA
      · exact (tabled.ordered a thereA b thereB before).append elsewhereA

/-- A runner goes back to its entry. -/
theorem giveBack {target : Place Key} (present : target ∈ places) (ofEntry : loan.id = target.id)
    (tabled : Tabled places (loan :: loans) nextId clock handed) :
    Tabled (Place.changeAt target.key target.id Place.giveBack places) loans nextId clock
      handed where
  apart := by
    refine List.pairwise_map.mpr (tabled.apart.imp fun {a b} apart => ?_)
    split <;> split <;> exact apart
  issued := by
    intro place member
    rcases tabled.of_mem_changeAt present member with rfl | ⟨there, -⟩
    · exact tabled.issued target present
    · exact tabled.issued place there
  stamped := by
    intro place member
    rcases tabled.of_mem_changeAt present member with rfl | ⟨there, -⟩
    · exact tabled.stamped target present
    · exact tabled.stamped place there
  lent := by
    intro place member
    rcases tabled.of_mem_changeAt present member with rfl | ⟨there, elsewhere⟩
    · -- At most one loan was of this entry, and it is over.
      have out := tabled.lent target present
      rw [List.countP_cons_of_pos (by simp [ofEntry])] at out
      have rest : loans.countP (·.id = target.id) = 0 := by
        split at out <;> omega
      exact rest
    · have out := tabled.lent place there
      rwa [List.countP_cons_of_neg (by simp [ofEntry, elsewhere.symm])] at out
  known := by
    intro other member
    obtain ⟨old, before, key, id⟩ := tabled.known other (by simp [member])
    obtain ⟨place, there, sameKey, sameId⟩ :=
      mem_changeAt target Place.giveBack (fun _ => ⟨rfl, rfl⟩) before
    exact ⟨place, there, sameKey.trans key, sameId.trans id⟩
  ordered := by
    intro a first b second before
    rcases tabled.of_mem_changeAt present first with rfl | ⟨thereA, -⟩
    · rcases tabled.of_mem_changeAt present second with rfl | ⟨thereB, -⟩
      · exact absurd before (Nat.lt_irrefl _)
      · exact tabled.ordered target present b thereB before
    · rcases tabled.of_mem_changeAt present second with rfl | ⟨thereB, -⟩
      · exact tabled.ordered a thereA target present before
      · exact tabled.ordered a thereA b thereB before

end Tabled

end OperatorGraph
