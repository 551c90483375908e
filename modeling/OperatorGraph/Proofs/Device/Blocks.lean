import OperatorGraph.Device.Memory
import OperatorGraph.Proofs.Runner.Ranges

set_option autoImplicit false

namespace OperatorGraph

namespace Allocation

/-- The device range of a buffer. -/
def range (a : Allocation) : Span :=
  ⟨a.base, a.size⟩

def Holds (a : Allocation) (x : Address) : Prop :=
  a.base ≤ x ∧ x < a.base + a.size

instance (a : Allocation) (x : Address) : Decidable (a.Holds x) :=
  inferInstanceAs (Decidable (_ ∧ _))

/-- A range lies in a buffer as a whole. -/
def Contains (a : Allocation) (span : Span) : Prop :=
  a.base ≤ span.ptr ∧ span.ptr + span.len ≤ a.base + a.size

instance (a : Allocation) (span : Span) : Decidable (a.Contains span) :=
  inferInstanceAs (Decidable (_ ∧ _))

theorem Contains.holds {a : Allocation} {span : Span} (inside : a.Contains span)
    (nonempty : 0 < span.len) : a.Holds span.ptr := by
  simp only [Contains, Holds, Address] at inside ⊢
  omega

end Allocation

namespace DeviceMemory

/-- No block is empty or at address zero, and each ends before the next one starts. -/
structure Ordered (m : DeviceMemory) : Prop where
  based : ∀ a ∈ m.live, 0 < a.base
  positive : ∀ a ∈ m.live, 0 < a.size
  apart : m.live.Pairwise fun a b => a.base + a.size ≤ b.base

variable {m : DeviceMemory}

theorem mem_of_below {ptr : Address} {c : Allocation} (nearest : m.below? ptr = some c) :
    c ∈ m.live ∧ c.base ≤ ptr := by
  simpa using List.mem_filter.mp (List.mem_of_getLast? nearest)

/-- The block that holds an address has the greatest base up to it. -/
theorem Ordered.below_of_holds (ordered : m.Ordered) {a : Allocation} (member : a ∈ m.live)
    {ptr : Address} (held : a.Holds ptr) : m.below? ptr = some a := by
  have kept : a ∈ m.live.filter (·.base ≤ ptr) := List.mem_filter.mpr ⟨member, by simpa using held.1⟩
  cases nearest : m.below? ptr with
  | none => simp [List.getLast?_eq_none_iff.mp nearest] at kept
  | some c =>
    obtain ⟨front, split⟩ := List.getLast?_eq_some_iff.mp nearest
    have apart := ordered.apart.filter (·.base ≤ ptr)
    rw [split] at kept apart
    rcases List.mem_append.mp kept with earlier | last
    · -- A block before the last one ends below the base of the last, hence below the address.
      have ends := (List.pairwise_append.mp apart).2.2 a earlier c (by simp)
      have below := (mem_of_below nearest).2
      simp only [Allocation.Holds, Address] at held ends below
      omega
    · rw [List.mem_singleton.mp last]

theorem Ordered.holds_unique (ordered : m.Ordered) {a b : Allocation} (memberA : a ∈ m.live)
    (memberB : b ∈ m.live) {ptr : Address} (heldA : a.Holds ptr) (heldB : b.Holds ptr) : a = b :=
  Option.some.inj ((ordered.below_of_holds memberA heldA).symm.trans
    (ordered.below_of_holds memberB heldB))

theorem Ordered.base_unique (ordered : m.Ordered) {a b : Allocation} (memberA : a ∈ m.live)
    (memberB : b ∈ m.live) (same : a.base = b.base) : a = b := by
  have holds {c : Allocation} (member : c ∈ m.live) : c.Holds c.base :=
    ⟨Nat.le_refl _, Nat.lt_add_of_pos_right (ordered.positive c member)⟩
  exact ordered.holds_unique memberA memberB (holds memberA) (same ▸ holds memberB)

section

variable {span : Span}

/-- An address in no live block is unknown, also where a block lies before it. -/
theorem resolve_of_unheld (nonempty : 0 < span.len) (unheld : ∀ a ∈ m.live, ¬ a.Holds span.ptr) :
    m.resolve span = .error (.unknownAddress span.ptr) := by
  unfold resolve
  cases nearest : m.below? span.ptr with
  | none => rfl
  | some c =>
    obtain ⟨member, below⟩ := mem_of_below nearest
    have beyond : c.size ≤ span.ptr - c.base := by
      by_contra inside
      refine unheld c member ⟨below, ?_⟩
      simp only [Address] at below inside ⊢
      omega
    simp only [if_pos (And.intro beyond nonempty)]

/-- An address in a live block gives that block, as long as the range ends in it. -/
theorem Ordered.resolve_of_holds (ordered : m.Ordered) (words : span.ptr + span.len ≤ 2 ^ 64)
    {a : Allocation} (member : a ∈ m.live) (held : a.Holds span.ptr) :
    m.resolve span = if a.Contains span then .ok (a, span.ptr - a.base)
      else .error (.outOfBounds span.ptr span.len) := by
  have nearest := ordered.below_of_holds member held
  have based := ordered.based a member
  simp only [Allocation.Holds, Address] at held words based
  have within : ¬ (a.size ≤ span.ptr - a.base ∧ 0 < span.len) := by
    simp only [Address]
    omega
  have exact : Bounded.word (span.ptr - a.base + span.len) = span.ptr - a.base + span.len := by
    simp only [Bounded.word, Address]
    omega
  have fits : a.size < span.ptr - a.base + span.len ↔ ¬ a.Contains span := by
    simp only [Allocation.Contains, Address]
    omega
  simp only [resolve, nearest, if_neg within, exact, fits, ite_not]

theorem Ordered.resolve_eq_ok (ordered : m.Ordered) (nonempty : 0 < span.len)
    (words : span.ptr + span.len ≤ 2 ^ 64) {a : Allocation} {offset : Nat} :
    m.resolve span = .ok (a, offset) ↔
      a ∈ m.live ∧ a.Contains span ∧ offset = span.ptr - a.base := by
  constructor
  · intro resolved
    by_cases held : ∃ c ∈ m.live, c.Holds span.ptr
    · obtain ⟨c, member, held⟩ := held
      rw [ordered.resolve_of_holds words member held] at resolved
      split at resolved
      · rename_i inside
        obtain ⟨rfl, rfl⟩ := Prod.mk.inj (Except.ok.inj resolved)
        exact ⟨member, inside, rfl⟩
      · simp at resolved
    · rw [resolve_of_unheld nonempty fun c member held' => held ⟨c, member, held'⟩] at resolved
      simp at resolved
  · rintro ⟨member, inside, rfl⟩
    rw [ordered.resolve_of_holds words member (inside.holds nonempty), if_pos inside]

theorem Ordered.resolve_base (ordered : m.Ordered) {a : Allocation} (member : a ∈ m.live)
    {len : Nat} (nonempty : 0 < len) (fits : len ≤ a.size) (words : a.base + len ≤ 2 ^ 64) :
    m.resolve ⟨a.base, len⟩ = .ok (a, 0) :=
  (ordered.resolve_eq_ok nonempty words).mpr
    ⟨member, ⟨Nat.le_refl _, Nat.add_le_add_left fits _⟩, (Nat.sub_self _).symm⟩

/-- What a range resolves to depends on the block that holds its first address alone. -/
theorem Ordered.resolve_congr {n : DeviceMemory} (ordered : m.Ordered) (other : n.Ordered)
    (nonempty : 0 < span.len) (words : span.ptr + span.len ≤ 2 ^ 64)
    (same : ∀ a, a.Holds span.ptr → (a ∈ m.live ↔ a ∈ n.live)) :
    m.resolve span = n.resolve span := by
  by_cases held : ∃ c ∈ m.live, c.Holds span.ptr
  · obtain ⟨c, member, held⟩ := held
    rw [ordered.resolve_of_holds words member held,
      other.resolve_of_holds words ((same c held).mp member) held]
  · rw [resolve_of_unheld nonempty fun c member held' => held ⟨c, member, held'⟩,
      resolve_of_unheld nonempty fun c member held' => held ⟨c, (same c held').mpr member, held'⟩]

end

theorem free_eq_ok {ptr : Address} {n : DeviceMemory} : m.free ptr = .ok n ↔
    (∃ a ∈ m.live, a.base = ptr) ∧ n = { m with live := m.live.filter (·.base ≠ ptr) } := by
  by_cases based : ∃ a ∈ m.live, a.base = ptr
  · have found : m.live.any (·.base = ptr) = true := by simpa using based
    simp only [free, found, if_true, Except.ok.injEq, based, true_and]
    exact eq_comm
  · have absent : m.live.any (·.base = ptr) = false := by
      simpa only [List.any_eq_false, decide_eq_true_eq, not_exists, not_and] using based
    simp only [free, absent, Bool.false_eq_true, if_false, reduceCtorEq, based, false_and]

theorem mem_live_of_free {ptr : Address} {n : DeviceMemory} (freed : m.free ptr = .ok n)
    {a : Allocation} : a ∈ n.live ↔ a ∈ m.live ∧ a.base ≠ ptr := by
  obtain ⟨-, rfl⟩ := free_eq_ok.mp freed
  simp only [List.mem_filter, decide_eq_true_eq]

theorem Ordered.free {ptr : Address} {n : DeviceMemory} (ordered : m.Ordered)
    (freed : m.free ptr = .ok n) : n.Ordered := by
  obtain ⟨-, rfl⟩ := free_eq_ok.mp freed
  exact ⟨fun a member => ordered.based a (List.mem_of_mem_filter member),
    fun a member => ordered.positive a (List.mem_of_mem_filter member), ordered.apart.filter _⟩

section

variable {ptr : Address} {n : DeviceMemory} {span : Span} (ordered : m.Ordered)
  (freed : m.free ptr = .ok n) (nonempty : 0 < span.len) {a : Allocation} (member : a ∈ m.live)
  (based : a.base = ptr)
include ordered freed nonempty member based

theorem Ordered.resolve_freed (held : a.Holds span.ptr) :
    n.resolve span = .error (.unknownAddress span.ptr) := by
  refine resolve_of_unheld nonempty fun b memberB heldB => ?_
  obtain ⟨memberB, different⟩ := (mem_live_of_free freed).mp memberB
  rw [ordered.holds_unique memberB member heldB held] at different
  exact different based

theorem Ordered.resolve_kept (words : span.ptr + span.len ≤ 2 ^ 64) (unheld : ¬ a.Holds span.ptr) :
    n.resolve span = m.resolve span := by
  refine (ordered.free freed).resolve_congr ordered nonempty words fun b heldB => ?_
  rw [mem_live_of_free freed, and_iff_left_iff_imp]
  rintro memberB same
  rw [ordered.base_unique memberB member (same.trans based.symm)] at heldB
  exact unheld heldB

end

end DeviceMemory

end OperatorGraph
