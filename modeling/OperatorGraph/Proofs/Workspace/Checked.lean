import OperatorGraph.Workspace

set_option autoImplicit false

namespace OperatorGraph

namespace Workspace

def sum? (a b : Nat) : Option Nat :=
  if a + b < 0x1_0000_0000_0000_0000 then some (a + b) else none

def alignUp? (n align : Nat) : Option Nat :=
  if n + align < 0x1_0000_0000_0000_0000 then some (alignUp n align) else none

def linearFrom? (align cursor : Nat) : List Lifetime → Option (List Nat)
  | [] => some []
  | t :: rest => do
    let start ← alignUp? cursor align
    let stop ← sum? start t.bytes
    return start :: (← linearFrom? align stop rest)

def firstFit? (align bytes candidate : Nat) : List (Nat × Nat) → Option Nat
  | [] => some candidate
  | (start, stop) :: rest => do
    if (← sum? candidate bytes) ≤ start then return candidate
    firstFit? align bytes (max candidate (← alignUp? stop align)) rest

def place? (align : Nat) (placed : List Placement) (t : Lifetime × Nat) :
    Option (List Placement) := do
  let taken := (placed.filter fun p => p.lifetime.Meets t.1).map Placement.range
  let offset ← firstFit? align t.1.bytes 0 (taken.mergeSort rangeLe)
  let _ ← sum? offset t.1.bytes
  return placed ++ [⟨t.2, t.1, offset⟩]

def reusePlacements? (align : Nat) (tensors : List Lifetime) : Option (List Placement) :=
  (tensors.zipIdx.mergeSort precedes).foldlM (place? align) []

theorem sum?_eq_some {a b c : Nat} :
    sum? a b = some c ↔ a + b < 0x1_0000_0000_0000_0000 ∧ a + b = c := by
  simp [sum?]

theorem alignUp?_eq_some {n align m : Nat} :
    alignUp? n align = some m ↔ n + align < 0x1_0000_0000_0000_0000 ∧ alignUp n align = m := by
  simp [alignUp?]

theorem linearFrom_of_checked {align : Nat} {tensors : List Lifetime} {cursor : Nat}
    {offsets : List Nat} (checked : linearFrom? align cursor tensors = some offsets) :
    linearFrom align cursor tensors = offsets := by
  induction tensors generalizing cursor offsets with
  | nil =>
    simp only [linearFrom?, Option.some.injEq] at checked
    exact checked
  | cons t rest ih =>
    simp only [linearFrom?, Option.bind_eq_bind, Option.bind_eq_some_iff, alignUp?_eq_some,
      sum?_eq_some, Option.pure_def, Option.some.injEq] at checked
    obtain ⟨start, ⟨-, rfl⟩, stop, ⟨fits, rfl⟩, later, checked, rfl⟩ := checked
    simp only [linearFrom, Bounded.word_of_lt fits, ih checked]

theorem firstFit_of_checked {align bytes : Nat} {taken : List (Nat × Nat)} {candidate offset : Nat}
    (checked : firstFit? align bytes candidate taken = some offset) :
    firstFit align bytes candidate taken = offset := by
  induction taken generalizing candidate with
  | nil =>
    simp only [firstFit?, Option.some.injEq] at checked
    exact checked
  | cons range rest ih =>
    obtain ⟨start, stop⟩ := range
    simp only [firstFit?, Option.bind_eq_bind, Option.bind_eq_some_iff, sum?_eq_some] at checked
    obtain ⟨_, ⟨fits, rfl⟩, checked⟩ := checked
    simp only [firstFit, Bounded.word_of_lt fits]
    split at checked
    · rename_i before
      simpa [before] using checked
    · rename_i beyond
      simp only [Option.bind_eq_some_iff, alignUp?_eq_some] at checked
      obtain ⟨_, ⟨-, rfl⟩, checked⟩ := checked
      simp only [beyond, if_false, ih checked]

theorem place_of_checked {align : Nat} {placed after : List Placement} {t : Lifetime × Nat}
    (checked : place? align placed t = some after) : place align placed t = after := by
  simp only [place?, Option.bind_eq_bind, Option.bind_eq_some_iff, Option.pure_def,
    Option.some.injEq] at checked
  obtain ⟨offset, fit, _, -, rfl⟩ := checked
  simp only [place, firstFit_of_checked fit]

theorem foldl_place_of_checked {align : Nat} {order : List (Lifetime × Nat)}
    {placed after : List Placement} (checked : order.foldlM (place? align) placed = some after) :
    order.foldl (place align) placed = after := by
  induction order generalizing placed with
  | nil => simpa using checked
  | cons t rest ih =>
    simp only [List.foldlM_cons, Option.bind_eq_bind, Option.bind_eq_some_iff] at checked
    obtain ⟨next, first, later⟩ := checked
    rw [List.foldl_cons, place_of_checked first, ih later]

end Workspace

namespace WorkspacePlan

open Workspace

def offsetsFor? : Strategy → Nat → List Lifetime → Option (List Nat)
  | .linear, align, tensors => linearFrom? align 0 tensors
  | .reuse, align, tensors => (reusePlacements? align tensors).map (slotOffsets tensors.length)

/-- All bytes of a plan whose scratch region starts at an offset. -/
def total? (scratchOffset scratchBytes align : Nat) : Option Nat :=
  if 0 < scratchBytes then (sum? scratchOffset scratchBytes).bind (alignUp? · align)
  else some scratchOffset

def build? (tensors : List Lifetime) (scratchBytes align : Nat) (strategy : Strategy) :
    Option WorkspacePlan := do
  let offsets ← offsetsFor? strategy align tensors
  let ends ← (offsets.zip tensors).mapM fun (offset, t) => sum? offset t.bytes
  let scratchOffset ← alignUp? (ends.max?.getD 0) align
  let totalBytes ← total? scratchOffset scratchBytes align
  return { offsets, scratchOffset, scratchBytes, totalBytes }

theorem offsetsFor_of_checked {strategy : Strategy} {align : Nat} {tensors : List Lifetime}
    {offsets : List Nat} (checked : offsetsFor? strategy align tensors = some offsets) :
    offsetsFor strategy align tensors = offsets := by
  cases strategy with
  | linear => exact linearFrom_of_checked checked
  | reuse =>
    obtain ⟨placements, placed, rfl⟩ := Option.map_eq_some_iff.mp checked
    simp only [offsetsFor, reuseOffsets, reusePlacements, foldl_place_of_checked placed]

theorem ends_of_checked {pairs : List (Nat × Lifetime)} {ends : List Nat}
    (checked : (pairs.mapM fun (offset, t) => sum? offset t.bytes) = some ends) :
    ends = pairs.map (fun (offset, t) => offset + t.bytes) ∧
      ∀ stop ∈ ends, stop < 0x1_0000_0000_0000_0000 := by
  induction pairs generalizing ends with
  | nil =>
    simp only [List.mapM_nil, Option.pure_def, Option.some.injEq] at checked
    simp [← checked]
  | cons pair rest ih =>
    simp only [List.mapM_cons, Option.bind_eq_bind, Option.bind_eq_some_iff, sum?_eq_some,
      Option.pure_def, Option.some.injEq] at checked
    obtain ⟨_, ⟨fits, rfl⟩, later, checked, rfl⟩ := checked
    obtain ⟨rfl, bounded⟩ := ih checked
    exact ⟨rfl, by simpa using ⟨fits, by simpa using bounded⟩⟩

/-- The sums and roundings behind a checked plan. -/
theorem build?_eq_some {tensors : List Lifetime} {scratchBytes align : Nat} {strategy : Strategy}
    {plan : WorkspacePlan} (checked : build? tensors scratchBytes align strategy = some plan) :
    offsetsFor? strategy align tensors = some plan.offsets ∧
      (∃ ends, ends = (plan.offsets.zip tensors).map (fun (offset, t) => offset + t.bytes) ∧
        (∀ stop ∈ ends, stop < 0x1_0000_0000_0000_0000) ∧
        alignUp? (ends.max?.getD 0) align = some plan.scratchOffset) ∧
      plan.scratchBytes = scratchBytes ∧
      total? plan.scratchOffset scratchBytes align = some plan.totalBytes := by
  simp only [build?, Option.bind_eq_bind, Option.bind_eq_some_iff, Option.pure_def,
    Option.some.injEq] at checked
  obtain ⟨offsets, placed, ends, summed, scratchOffset, aligned, total, totalled, rfl⟩ := checked
  obtain ⟨sums, bounded⟩ := ends_of_checked summed
  exact ⟨placed, ⟨ends, sums, bounded, aligned⟩, rfl, totalled⟩

/-- A plan in checked arithmetic is the plan. -/
theorem build_of_checked {tensors : List Lifetime} {scratchBytes align : Nat} {strategy : Strategy}
    {plan : WorkspacePlan} (checked : build? tensors scratchBytes align strategy = some plan) :
    build tensors scratchBytes align strategy = plan := by
  obtain ⟨placed, ⟨ends, sums, bounded, aligned⟩, scratch, total⟩ := build?_eq_some checked
  have furthest : tensorEnd plan.offsets tensors = ends.max?.getD 0 := by
    have words : List.zipWith (fun offset (t : Lifetime) => Bounded.word (offset + t.bytes))
        plan.offsets tensors = ends := by
      rw [sums, ← List.map_uncurry_zip_eq_zipWith]
      apply List.map_congr_left
      intro pair member
      refine Bounded.word_of_lt (bounded _ ?_)
      rw [sums]
      exact List.mem_map_of_mem member
    rw [tensorEnd, words]
  have scratchOffset := (alignUp?_eq_some.mp aligned).2
  have totalBytes : (if 0 < scratchBytes then
      alignUp (Bounded.word (plan.scratchOffset + scratchBytes)) align
      else plan.scratchOffset) = plan.totalBytes := by
    unfold total? at total
    split at total
    · rename_i some
      simp only [Option.bind_eq_some_iff, sum?_eq_some, alignUp?_eq_some] at total
      obtain ⟨_, ⟨fits, rfl⟩, -, total⟩ := total
      rw [if_pos some, Bounded.word_of_lt fits, total]
    · rename_i none
      rw [if_neg none]
      exact Option.some.inj total
  simp only [build, offsetsFor_of_checked placed, furthest, scratchOffset, totalBytes]
  rw [← scratch]

end WorkspacePlan

end OperatorGraph
