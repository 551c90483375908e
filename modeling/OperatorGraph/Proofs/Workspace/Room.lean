import Mathlib.Data.List.Permutation
import OperatorGraph.Proofs.Workspace.Totals

set_option autoImplicit false

namespace OperatorGraph

namespace Workspace

theorem roundedSum_append (align : Nat) (first second : List Nat) :
    roundedSum align (first ++ second) = roundedSum align first + roundedSum align second := by
  simp only [roundedSum, List.map_append, List.sum_append]

theorem roundedSum_perm {align : Nat} {first second : List Nat} (perm : first.Perm second) :
    roundedSum align first = roundedSum align second :=
  (perm.map _).sum_nat

section

variable {align : Nat} (power : Config.IsPowerOfTwo align)
include power

theorem linearFrom?_answers {tensors : List Lifetime} {cursor : Nat}
    (room : nextMultiple cursor align + roundedSum align (tensors.map Lifetime.bytes) + align <
      2 ^ 64) : ∃ offsets, linearFrom? align cursor tensors = some offsets := by
  have positive := positive_of_power power
  induction tensors generalizing cursor with
  | nil => exact ⟨[], rfl⟩
  | cons t rest ih =>
    rw [List.map_cons, roundedSum_cons] at room
    have start := le_nextMultiple cursor positive
    have size := le_nextMultiple t.bytes positive
    have behind := nextMultiple_add positive (dvd_nextMultiple cursor) t.bytes
    obtain ⟨later, answered⟩ := @ih (nextMultiple cursor align + t.bytes) (by omega)
    have aligned : alignUp? cursor align = some (nextMultiple cursor align) :=
      alignUp?_eq_some.mpr ⟨by omega, alignUp_eq power (by omega)⟩
    have summed : sum? (nextMultiple cursor align) t.bytes =
        some (nextMultiple cursor align + t.bytes) := sum?_eq_some.mpr ⟨by omega, rfl⟩
    exact ⟨nextMultiple cursor align :: later, by simp [linearFrom?, aligned, summed, answered]⟩

theorem linearFrom?_ends {tensors : List Lifetime} {cursor : Nat} {offsets : List Nat}
    (checked : linearFrom? align cursor tensors = some offsets) :
    ∀ pair ∈ offsets.zip tensors, pair.1 + pair.2.bytes ≤
      nextMultiple cursor align + roundedSum align (tensors.map Lifetime.bytes) := by
  have positive := positive_of_power power
  induction tensors generalizing cursor offsets with
  | nil => simp
  | cons t rest ih =>
    simp only [linearFrom?, Option.bind_eq_bind, Option.bind_eq_some_iff, alignUp?_eq_some,
      sum?_eq_some, Option.pure_def, Option.some.injEq] at checked
    obtain ⟨start, ⟨fits, rfl⟩, stop, ⟨-, rfl⟩, later, checked, rfl⟩ := checked
    rw [alignUp_eq power fits] at checked ⊢
    have size := le_nextMultiple t.bytes positive
    have behind := nextMultiple_add positive (dvd_nextMultiple cursor) t.bytes
    rw [List.map_cons, roundedSum_cons]
    intro pair member
    rw [List.zip_cons_cons, List.mem_cons] at member
    rcases member with rfl | member
    · show nextMultiple cursor align + t.bytes ≤ _
      omega
    · have inRest := ih checked pair member
      omega

/-- Placed tensors that leave no more room than rounding asks for: none reaches beyond the sum of
the rounded sizes of all. -/
def Compact (align : Nat) (placed : List Placement) : Prop :=
  ∀ p ∈ placed, p.offset + nextMultiple p.lifetime.bytes align ≤
    roundedSum align (placed.map (·.lifetime.bytes))

/-- A first fit stays below a bound on the candidate and on the rounded ends of what is taken. -/
theorem firstFit?_le {bytes candidate offset bound : Nat} {taken : List (Nat × Nat)}
    (start : candidate ≤ bound) (ends : ∀ range ∈ taken, nextMultiple range.2 align ≤ bound)
    (checked : firstFit? align bytes candidate taken = some offset) : offset ≤ bound := by
  induction taken generalizing candidate with
  | nil =>
    simp only [firstFit?, Option.some.injEq] at checked
    omega
  | cons range rest ih =>
    obtain ⟨low, stop⟩ := range
    simp only [firstFit?, Option.bind_eq_bind, Option.bind_eq_some_iff, sum?_eq_some] at checked
    obtain ⟨_, -, checked⟩ := checked
    split at checked
    · obtain rfl : candidate = offset := by simpa using checked
      exact start
    · simp only [Option.bind_eq_some_iff, alignUp?_eq_some] at checked
      obtain ⟨_, ⟨fits, rfl⟩, checked⟩ := checked
      have here : nextMultiple stop align ≤ bound := ends (low, stop) List.mem_cons_self
      rw [← alignUp_eq power fits] at here
      exact ih (by omega) (fun later member => ends later (List.mem_cons_of_mem _ member)) checked

theorem firstFit?_answers {bytes candidate bound : Nat} {taken : List (Nat × Nat)}
    (start : candidate ≤ bound) (ends : ∀ range ∈ taken, nextMultiple range.2 align ≤ bound)
    (room : bound + bytes < 2 ^ 64) (spare : bound + align < 2 ^ 64) :
    ∃ offset, firstFit? align bytes candidate taken = some offset := by
  induction taken generalizing candidate with
  | nil => exact ⟨candidate, rfl⟩
  | cons range rest ih =>
    obtain ⟨low, stop⟩ := range
    have here : nextMultiple stop align ≤ bound := ends (low, stop) List.mem_cons_self
    have above := le_nextMultiple stop (positive_of_power power)
    have summed : sum? candidate bytes = some (candidate + bytes) :=
      sum?_eq_some.mpr ⟨by omega, rfl⟩
    have aligned : alignUp? stop align = some (nextMultiple stop align) :=
      alignUp?_eq_some.mpr ⟨by omega, alignUp_eq power (by omega)⟩
    simp only [firstFit?, summed, Option.bind_eq_bind, Option.bind_some]
    split
    · exact ⟨candidate, rfl⟩
    · simp only [aligned, Option.bind_some]
      exact ih (by omega) fun later member => ends later (List.mem_cons_of_mem _ member)

/-- The ranges that a tensor has to stay clear of end below the sum of the rounded sizes. -/
theorem taken_ends {placed : List Placement} (settled : Settled align placed)
    (compact : Compact align placed) (t : Lifetime) :
    ∀ range ∈ ((placed.filter fun p => p.lifetime.Meets t).map Placement.range).mergeSort rangeLe,
      nextMultiple range.2 align ≤ roundedSum align (placed.map (·.lifetime.bytes)) := by
  intro range member
  rw [List.mem_mergeSort, List.mem_map] at member
  obtain ⟨p, kept, rfl⟩ := member
  have inside := (List.mem_filter.mp kept).1
  have stop : Bounded.word (p.offset + p.lifetime.bytes) = p.offset + p.lifetime.bytes :=
    Bounded.word_of_lt (settled.bounded p inside)
  show nextMultiple (Bounded.word (p.offset + p.lifetime.bytes)) align ≤ _
  rw [stop, nextMultiple_add (positive_of_power power) (settled.aligned p inside)]
  exact compact p inside

theorem place?_compact {placed after : List Placement} {t : Lifetime × Nat}
    (settled : Settled align placed) (compact : Compact align placed)
    (checked : place? align placed t = some after) : Compact align after := by
  simp only [place?, Option.bind_eq_bind, Option.bind_eq_some_iff, Option.pure_def,
    Option.some.injEq] at checked
  obtain ⟨offset, fit, _, -, rfl⟩ := checked
  have low := firstFit?_le power (Nat.zero_le _) (taken_ends power settled compact t.1) fit
  intro p member
  rw [List.map_append, roundedSum_append, List.map_singleton, roundedSum_cons]
  rcases List.mem_append.mp member with old | new
  · have before := compact p old
    omega
  · obtain rfl := List.mem_singleton.mp new
    simp only
    omega

theorem place?_answers {placed : List Placement} {t : Lifetime × Nat}
    (settled : Settled align placed) (compact : Compact align placed)
    (room : roundedSum align (placed.map (·.lifetime.bytes)) + nextMultiple t.1.bytes align +
      align < 2 ^ 64) : ∃ after, place? align placed t = some after := by
  have size := le_nextMultiple t.1.bytes (positive_of_power power)
  have ends := taken_ends power settled compact t.1
  obtain ⟨offset, fit⟩ : ∃ offset, firstFit? align t.1.bytes 0 _ = some offset :=
    firstFit?_answers power (Nat.zero_le _) ends (by omega) (by omega)
  have low := firstFit?_le power (Nat.zero_le _) ends fit
  have summed : sum? offset t.1.bytes = some (offset + t.1.bytes) :=
    sum?_eq_some.mpr ⟨by omega, rfl⟩
  exact ⟨placed ++ [⟨t.2, t.1, offset⟩], by simp [place?, fit, summed]⟩

theorem placeAll?_compact {order : List (Lifetime × Nat)} {placed after : List Placement}
    (settled : Settled align placed) (compact : Compact align placed)
    (checked : order.foldlM (place? align) placed = some after) : Compact align after := by
  induction order generalizing placed with
  | nil =>
    obtain rfl : placed = after := by simpa using checked
    exact compact
  | cons t rest ih =>
    simp only [List.foldlM_cons, Option.bind_eq_bind, Option.bind_eq_some_iff] at checked
    obtain ⟨next, first, later⟩ := checked
    exact ih (place?_spec power settled first).1 (place?_compact power settled compact first) later

theorem placeAll?_answers {order : List (Lifetime × Nat)} {placed : List Placement}
    (settled : Settled align placed) (compact : Compact align placed)
    (room : roundedSum align (placed.map (·.lifetime.bytes)) +
      roundedSum align (order.map (·.1.bytes)) + align < 2 ^ 64) :
    ∃ after, order.foldlM (place? align) placed = some after := by
  induction order generalizing placed with
  | nil => exact ⟨placed, rfl⟩
  | cons t rest ih =>
    rw [List.map_cons, roundedSum_cons] at room
    obtain ⟨next, first⟩ : ∃ next, place? align placed t = some next :=
      place?_answers power settled compact (by omega)
    obtain ⟨nextSettled, offset, rfl⟩ := place?_spec power settled first
    have sum : roundedSum align
        ((placed ++ [(⟨t.2, t.1, offset⟩ : Placement)]).map (·.lifetime.bytes)) =
        roundedSum align (placed.map (·.lifetime.bytes)) + nextMultiple t.1.bytes align := by
      rw [List.map_append, roundedSum_append, List.map_singleton, roundedSum_cons]
      rfl
    obtain ⟨after, later⟩ :=
      ih nextSettled (place?_compact power settled compact first) (by omega)
    exact ⟨after, by simp only [List.foldlM_cons, first, Option.bind_eq_bind, Option.bind_some,
      later]⟩

omit power in
theorem settled_nil : Settled align [] :=
  ⟨by simp, by simp, List.Pairwise.nil⟩

omit power in
theorem map_bytes_zipIdx (tensors : List Lifetime) :
    tensors.zipIdx.map (·.1.bytes) = tensors.map Lifetime.bytes := by
  rw [show (fun pair : Lifetime × Nat => pair.1.bytes) = Lifetime.bytes ∘ Prod.fst from rfl,
    ← List.map_map, List.zipIdx_map_fst]

/-- Tensors are placed below the sum of their rounded sizes. -/
theorem reusePlacements?_ends {tensors : List Lifetime} {placements : List Placement}
    (checked : reusePlacements? align tensors = some placements) :
    ∀ p ∈ placements, p.offset + p.lifetime.bytes ≤
      roundedSum align (tensors.map Lifetime.bytes) := by
  have compact := placeAll?_compact power settled_nil (by simp [Compact]) checked
  have perm := (reusePlacements?_spec power checked).2.map (·.1.bytes)
  rw [List.map_map, map_bytes_zipIdx] at perm
  have sum : roundedSum align (placements.map (·.lifetime.bytes)) =
      roundedSum align (tensors.map Lifetime.bytes) := roundedSum_perm perm
  intro p member
  have low := compact p member
  have size := le_nextMultiple p.lifetime.bytes (positive_of_power power)
  omega

theorem reusePlacements?_answers {tensors : List Lifetime}
    (room : roundedSum align (tensors.map Lifetime.bytes) + align < 2 ^ 64) :
    ∃ placements, reusePlacements? align tensors = some placements := by
  refine placeAll?_answers power settled_nil (by simp [Compact]) ?_
  have sorted : (tensors.zipIdx.mergeSort precedes).Perm tensors.zipIdx := List.mergeSort_perm _ _
  rw [roundedSum_perm (sorted.map (·.1.bytes)), map_bytes_zipIdx]
  simpa [roundedSum] using room

end

end Workspace

namespace WorkspacePlan

open Workspace

section

variable {align : Nat} (power : Config.IsPowerOfTwo align) {strategy : Strategy}
  {tensors : List Lifetime}
include power

/-- With either strategy every tensor ends below the sum of the rounded sizes. -/
theorem ends_of_checked_offsets {offsets : List Nat}
    (checked : offsetsFor? strategy align tensors = some offsets) :
    ∀ pair ∈ offsets.zip tensors, pair.1 + pair.2.bytes ≤
      roundedSum align (tensors.map Lifetime.bytes) := by
  cases strategy with
  | linear =>
    have ends := linearFrom?_ends power checked
    have zero : nextMultiple 0 align = 0 :=
      nextMultiple_of_dvd (positive_of_power power) (Nat.dvd_zero align)
    rwa [zero, Nat.zero_add] at ends
  | reuse =>
    obtain ⟨placements, placed, rfl⟩ := Option.map_eq_some_iff.mp checked
    obtain ⟨-, perm⟩ := reusePlacements?_spec power placed
    intro pair member
    obtain ⟨i, found⟩ := List.getElem?_of_mem member
    obtain ⟨atOffset, atTensor⟩ := List.getElem?_zip_eq_some.mp found
    exact reusePlacements?_ends power placed _ (mem_of_slotOffsets perm atTensor atOffset)

theorem offsetsFor?_answers (strategy : Strategy)
    (room : roundedSum align (tensors.map Lifetime.bytes) + align < 2 ^ 64) :
    ∃ offsets, offsetsFor? strategy align tensors = some offsets := by
  cases strategy with
  | linear =>
    have zero : nextMultiple 0 align = 0 :=
      nextMultiple_of_dvd (positive_of_power power) (Nat.dvd_zero align)
    exact linearFrom?_answers power (by omega)
  | reuse =>
    obtain ⟨placements, placed⟩ := reusePlacements?_answers power room
    exact ⟨slotOffsets tensors.length placements, by simp [offsetsFor?, placed]⟩

/-- The tensors end, and the scratch region starts, below the sum of the rounded sizes. -/
theorem scratchOffset_le {offsets : List Nat}
    (checked : offsetsFor? strategy align tensors = some offsets) {ends : List Nat}
    (sums : ends = (offsets.zip tensors).map fun (offset, t) => offset + t.bytes) :
    nextMultiple (ends.max?.getD 0) align ≤ roundedSum align (tensors.map Lifetime.bytes) := by
  refine nextMultiple_le _ (positive_of_power power) ?_ (dvd_roundedSum align _)
  cases most : ends.max? with
  | none => exact Nat.zero_le _
  | some greatest =>
    have listed := (List.max?_eq_some_iff.mp most).1
    rw [sums] at listed
    obtain ⟨pair, member, rfl⟩ := List.mem_map.mp listed
    exact ends_of_checked_offsets power checked pair member

/-- No plan asks for more than the exact sum of what it lays out. -/
theorem totalBytes_le_exactTotal {scratchBytes : Nat} {plan : WorkspacePlan}
    (checked : build? tensors scratchBytes align strategy = some plan) :
    plan.totalBytes ≤ exactTotal align (tensors.map Lifetime.bytes) scratchBytes := by
  obtain ⟨placed, ⟨ends, sums, -, rounded⟩, -, totalled⟩ := build?_eq_some checked
  obtain ⟨fits, rounded⟩ := alignUp?_eq_some.mp rounded
  rw [alignUp_eq power fits] at rounded
  have start := scratchOffset_le power placed sums
  unfold exactTotal
  unfold total? at totalled
  split at totalled
  · simp only [Option.bind_eq_some_iff, sum?_eq_some, alignUp?_eq_some] at totalled
    obtain ⟨_, ⟨-, rfl⟩, room, total⟩ := totalled
    have behind := nextMultiple_add (positive_of_power power)
      (rounded ▸ dvd_nextMultiple (ends.max?.getD 0)) scratchBytes
    rw [alignUp_eq power room] at total
    omega
  · obtain total := Option.some.inj totalled
    omega

omit power in
theorem ends_answer {pairs : List (Nat × Lifetime)}
    (fits : ∀ pair ∈ pairs, pair.1 + pair.2.bytes < 2 ^ 64) :
    (pairs.mapM fun (offset, t) => sum? offset t.bytes) =
      some (pairs.map fun (offset, t) => offset + t.bytes) := by
  induction pairs with
  | nil => rfl
  | cons pair rest ih =>
    have first : sum? pair.1 pair.2.bytes = some (pair.1 + pair.2.bytes) :=
      sum?_eq_some.mpr ⟨fits pair List.mem_cons_self, rfl⟩
    have later := ih fun other member => fits other (List.mem_cons_of_mem _ member)
    simp only [List.mapM_cons, first, later, List.map_cons]
    rfl

theorem total?_answers {scratchOffset scratchBytes : Nat}
    (room : scratchOffset + nextMultiple scratchBytes align + align < 2 ^ 64) :
    ∃ total, total? scratchOffset scratchBytes align = some total := by
  have scratch := le_nextMultiple scratchBytes (positive_of_power power)
  unfold total?
  split
  · have summed : sum? scratchOffset scratchBytes = some (scratchOffset + scratchBytes) :=
      sum?_eq_some.mpr ⟨by omega, rfl⟩
    have rounded : alignUp? (scratchOffset + scratchBytes) align =
        some (alignUp (scratchOffset + scratchBytes) align) :=
      alignUp?_eq_some.mpr ⟨by omega, rfl⟩
    exact ⟨_, by rw [summed, Option.bind_some, rounded]⟩
  · exact ⟨scratchOffset, rfl⟩

/-- Where the exact sum leaves room for one more unit of alignment, checked arithmetic has a
plan. -/
theorem build?_answers (strategy : Strategy) {scratchBytes : Nat}
    (room : exactTotal align (tensors.map Lifetime.bytes) scratchBytes + align < 2 ^ 64) :
    ∃ plan, build? tensors scratchBytes align strategy = some plan := by
  have positive := positive_of_power power
  unfold exactTotal at room
  have tensorRoom : roundedSum align (tensors.map Lifetime.bytes) + align < 2 ^ 64 := by omega
  obtain ⟨offsets, placed⟩ := offsetsFor?_answers power strategy tensorRoom
  have below := ends_of_checked_offsets power placed
  have summed := ends_answer fun pair member => by
    have inside := below pair member
    omega
  generalize sums : (offsets.zip tensors).map (fun (offset, t) => offset + t.bytes) = ends at summed
  have start := scratchOffset_le power placed sums.symm
  have furthest := le_nextMultiple (ends.max?.getD 0) positive
  have fits : ends.max?.getD 0 + align < 2 ^ 64 := by omega
  have aligned : alignUp? (ends.max?.getD 0) align = some (nextMultiple (ends.max?.getD 0) align) :=
    alignUp?_eq_some.mpr ⟨fits, alignUp_eq power fits⟩
  obtain ⟨total, totalled⟩ := total?_answers power
    (by omega : nextMultiple (ends.max?.getD 0) align + nextMultiple scratchBytes align + align <
      2 ^ 64)
  refine ⟨⟨offsets, nextMultiple (ends.max?.getD 0) align, scratchBytes, total⟩, ?_⟩
  simp only [build?, placed, summed, aligned, totalled, Option.bind_eq_bind, Option.bind_some,
    Option.pure_def]

/-- Where the exact sum leaves room for one more unit of alignment, no addition of the planner
leaves the 64-bit range, and its plan is sound. -/
theorem planned_soundly (strategy : Strategy) {scratchBytes : Nat}
    (room : exactTotal align (tensors.map Lifetime.bytes) scratchBytes + align < 2 ^ 64) :
    build? tensors scratchBytes align strategy = some (build tensors scratchBytes align strategy) ∧
      (build tensors scratchBytes align strategy).Sound strategy align tensors scratchBytes := by
  obtain ⟨plan, checked⟩ := build?_answers power strategy room
  rw [build_of_checked checked]
  exact ⟨checked, sound_of_checked power checked⟩

end

/-- The third tensor takes the bytes of the first, which is dead by then. The second is live with
either of them: it is empty, and fits in front of both. -/
theorem empty_tensor_planned_soundly :
    let tensors : List Lifetime := [⟨300, 0, 1⟩, ⟨0, 1, 2⟩, ⟨100, 2, 3⟩]
    build? tensors 48 256 .reuse = some ⟨[0, 0, 0], 512, 48, 768⟩ ∧
      (build tensors 48 256 .reuse).Sound .reuse 256 tensors 48 := by
  intro tensors
  have power : Config.IsPowerOfTwo 256 := by decide
  have room : exactTotal 256 (tensors.map Lifetime.bytes) 48 + 256 < 2 ^ 64 := by decide
  obtain ⟨checked, sound⟩ := planned_soundly power .reuse room
  have plan : build tensors 48 256 .reuse = ⟨[0, 0, 0], 512, 48, 768⟩ := by cbv
  rw [plan] at checked
  exact ⟨checked, sound⟩

end WorkspacePlan

end OperatorGraph
