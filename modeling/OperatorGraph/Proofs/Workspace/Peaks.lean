import Mathlib.Data.List.Perm.Subperm
import OperatorGraph.Proofs.Workspace.Room

set_option autoImplicit false

namespace OperatorGraph

/-- A node position lies in the live range. -/
def Lifetime.LiveAt (t : Lifetime) (position : Nat) : Prop :=
  t.produced ≤ position ∧ position ≤ t.lastUsed

instance (t : Lifetime) (position : Nat) : Decidable (t.LiveAt position) :=
  inferInstanceAs (Decidable (_ ∧ _))

theorem Lifetime.meets_of_liveAt {s t : Lifetime} {position : Nat} (first : s.LiveAt position)
    (second : t.LiveAt position) : s.Meets t :=
  ⟨Nat.le_trans first.1 second.2, Nat.le_trans second.1 first.2⟩

namespace Workspace

/-- The bytes of all tensors that are live at a node position. -/
def liveBytes (tensors : List Lifetime) (position : Nat) : Nat :=
  ((tensors.filter (·.LiveAt position)).map Lifetime.bytes).sum

/-- Ranges below a bound that do not overlap have no more bytes in all than the bound. -/
theorem sum_le_of_apart {ranges : List (Nat × Nat)} {bound : Nat}
    (apart : ranges.Pairwise fun r s => Apart r.1 r.2 s.1 s.2)
    (inside : ∀ r ∈ ranges, r.1 + r.2 ≤ bound) : (ranges.map Prod.snd).sum ≤ bound := by
  let addresses := ranges.flatMap fun r => List.range' r.1 r.2
  have distinct : addresses.Nodup := by
    refine List.nodup_flatMap.mpr ⟨fun r _ => List.nodup_range', apart.imp fun {r s} apart => ?_⟩
    intro address first second
    rw [List.mem_range'_1] at first second
    unfold Apart at apart
    omega
  have below : addresses ⊆ List.range bound := by
    intro address member
    obtain ⟨r, listed, member⟩ := List.mem_flatMap.mp member
    have fits := inside r listed
    rw [List.mem_range'_1] at member
    exact List.mem_range.mpr (by omega)
  have count := (List.subperm_of_subset distinct below).length_le
  simpa [addresses, List.length_flatMap] using count

/-- A layout leaves pairs of tensors apart that are not to share bytes. -/
theorem Laid.pairwise {strategy : Strategy} {align : Nat} {tensors : List Lifetime}
    {offsets : List Nat} (laid : Laid strategy align tensors offsets) :
    (offsets.zip tensors).Pairwise fun p q => p.2.Meets q.2 →
      Apart p.1 p.2.bytes q.1 q.2.bytes := by
  rw [List.pairwise_iff_getElem]
  intro i j atI atJ before meets
  rw [List.length_zip] at atI atJ
  rw [List.getElem_zip, List.getElem_zip] at meets ⊢
  exact laid.apart i j _ _ _ _ (by omega) (List.getElem?_eq_getElem _)
    (List.getElem?_eq_getElem _) (List.getElem?_eq_getElem _) (List.getElem?_eq_getElem _)
    (.inr meets)

/-- Where no end of a linear layout leaves the 64-bit range in being rounded up, the sum of the
rounded sizes does not. -/
theorem roundedSum_lt_of_ends {align : Nat} (power : Config.IsPowerOfTwo align)
    {tensors : List Lifetime} {cursor : Nat} {offsets : List Nat}
    (checked : linearFrom? align cursor tensors = some offsets) (start : cursor + align < 2 ^ 64)
    (ends : ∀ pair ∈ offsets.zip tensors, pair.1 + pair.2.bytes + align < 2 ^ 64) :
    nextMultiple cursor align + roundedSum align (tensors.map Lifetime.bytes) < 2 ^ 64 := by
  have positive := positive_of_power power
  induction tensors generalizing cursor offsets with
  | nil =>
    have rounded := nextMultiple_lt cursor positive
    simp only [roundedSum, List.map_nil, List.sum_nil]
    omega
  | cons t rest ih =>
    simp only [linearFrom?, Option.bind_eq_bind, Option.bind_eq_some_iff, alignUp?_eq_some,
      sum?_eq_some, Option.pure_def, Option.some.injEq] at checked
    obtain ⟨_, ⟨fits, rfl⟩, _, ⟨-, rfl⟩, later, checked, rfl⟩ := checked
    rw [alignUp_eq power fits] at checked ends
    have here : nextMultiple cursor align + t.bytes + align < 2 ^ 64 := ends _ List.mem_cons_self
    have total := ih checked here fun pair member => ends pair (List.mem_cons_of_mem _ member)
    rw [nextMultiple_add positive (dvd_nextMultiple cursor)] at total
    rw [List.map_cons, roundedSum_cons]
    omega

end Workspace

namespace WorkspacePlan

open Workspace

/-- At no node position do the live tensors and the scratch take more than a plan asks for. -/
theorem Sound.liveBytes_le {plan : WorkspacePlan} {strategy : Strategy} {align : Nat}
    {tensors : List Lifetime} {scratchBytes : Nat}
    (sound : plan.Sound strategy align tensors scratchBytes) (position : Nat) :
    liveBytes tensors position + scratchBytes ≤ plan.totalBytes := by
  let live := (plan.offsets.zip tensors).filter fun p => p.2.LiveAt position
  have apart : (live.map fun p => (p.1, p.2.bytes)).Pairwise
      fun r s => Apart r.1 r.2 s.1 s.2 := by
    refine List.pairwise_map.mpr (List.Pairwise.imp_of_mem ?_ (sound.laid.pairwise.filter _))
    intro p q first second apart
    have firstLive : p.2.LiveAt position := by simpa using (List.mem_filter.mp first).2
    have secondLive : q.2.LiveAt position := by simpa using (List.mem_filter.mp second).2
    exact apart (Lifetime.meets_of_liveAt firstLive secondLive)
  have inside : ∀ r ∈ live.map fun p => (p.1, p.2.bytes), r.1 + r.2 ≤ plan.scratchOffset := by
    intro r member
    obtain ⟨p, kept, rfl⟩ := List.mem_map.mp member
    obtain ⟨i, found⟩ := List.getElem?_of_mem (List.mem_filter.mp kept).1
    obtain ⟨atOffset, atTensor⟩ := List.getElem?_zip_eq_some.mp found
    exact sound.inside i p.2 p.1 atTensor atOffset
  have sizes : (live.map fun p => (p.1, p.2.bytes)).map Prod.snd =
      (tensors.filter (·.LiveAt position)).map Lifetime.bytes := by
    have second : (plan.offsets.zip tensors).map Prod.snd = tensors :=
      List.map_snd_zip (Nat.le_of_eq sound.laid.length.symm)
    conv_rhs => rw [← second, List.filter_map]
    simp only [live, List.map_map]
    rfl
  have packed := sum_le_of_apart apart inside
  rw [sizes] at packed
  have behind := sound.scratchInside
  rw [sound.scratch] at behind
  unfold liveBytes
  omega

section

variable {align : Nat} (power : Config.IsPowerOfTwo align) {tensors : List Lifetime}
  {scratchBytes : Nat}
include power

/-- A linear plan in checked arithmetic adds up to a word. -/
theorem exactTotal_lt_of_checked {plan : WorkspacePlan}
    (checked : build? tensors scratchBytes align .linear = some plan) :
    exactTotal align (tensors.map Lifetime.bytes) scratchBytes < 2 ^ 64 := by
  have positive := positive_of_power power
  obtain ⟨placed, ⟨ends, sums, -, rounded⟩, -, totalled⟩ := build?_eq_some checked
  obtain ⟨furthest, -⟩ := alignUp?_eq_some.mp rounded
  have start : 0 + align < 2 ^ 64 := by omega
  have zero : nextMultiple 0 align = 0 := nextMultiple_of_dvd positive (Nat.dvd_zero align)
  have fits := roundedSum_lt_of_ends power placed start fun pair member => by
    have listed : pair.1 + pair.2.bytes ∈ ends := sums ▸ List.mem_map_of_mem member
    have inside : pair.1 + pair.2.bytes ≤ ends.max?.getD 0 := List.le_max?_getD_of_mem listed
    omega
  rw [zero, Nat.zero_add] at fits
  have scratchOffset := scratchOffset_linear power scratchBytes fits
  rw [build_of_checked checked] at scratchOffset
  rw [scratchOffset] at totalled
  unfold exactTotal
  unfold total? at totalled
  split at totalled
  · simp only [Option.bind_eq_some_iff, sum?_eq_some, alignUp?_eq_some] at totalled
    obtain ⟨_, ⟨-, rfl⟩, room, -⟩ := totalled
    have scratch := nextMultiple_lt scratchBytes positive
    omega
  · obtain rfl : scratchBytes = 0 := by omega
    omega

/-- Where no addition of either plan leaves the 64-bit range, the linear plan asks for the exact sum
of what it lays out, and sharing bytes for no more than that. It never asks for less than the
tensors that are live at one position take with the scratch. -/
theorem reuse_between (checked : ∀ strategy, (build? tensors scratchBytes align strategy).isSome) :
    (build tensors scratchBytes align .linear).totalBytes =
        exactTotal align (tensors.map Lifetime.bytes) scratchBytes ∧
      (build tensors scratchBytes align .reuse).totalBytes ≤
        (build tensors scratchBytes align .linear).totalBytes ∧
      ∀ position, liveBytes tensors position + scratchBytes ≤
        (build tensors scratchBytes align .reuse).totalBytes := by
  obtain ⟨linear, linearChecked⟩ := Option.isSome_iff_exists.mp (checked .linear)
  obtain ⟨reuse, reuseChecked⟩ := Option.isSome_iff_exists.mp (checked .reuse)
  have exact := totalBytes_linear power (exactTotal_lt_of_checked power linearChecked)
  rw [exact, build_of_checked reuseChecked]
  exact ⟨rfl, totalBytes_le_exactTotal power reuseChecked,
    (sound_of_checked power reuseChecked).liveBytes_le⟩

end

/-- Three tensors of which two are live at a time. Reuse saves the bytes of one of them. -/
theorem passing_reuse_between :
    let tensors : List Lifetime := [⟨1000, 0, 1⟩, ⟨400, 1, 2⟩, ⟨900, 2, 3⟩]
    (build tensors 48 256 .linear).totalBytes = 2816 ∧
      (build tensors 48 256 .reuse).totalBytes = 1792 ∧
      exactTotal 256 (tensors.map Lifetime.bytes) 48 = 2816 ∧ liveBytes tensors 1 = 1400 ∧
      ∀ position, liveBytes tensors position + 48 ≤ 1792 := by
  intro tensors
  have power : Config.IsPowerOfTwo 256 := by decide
  have room : exactTotal 256 (tensors.map Lifetime.bytes) 48 + 256 < 2 ^ 64 := by decide
  have checked (strategy : Strategy) : (build? tensors 48 256 strategy).isSome := by
    obtain ⟨plan, answered⟩ := build?_answers power strategy room
    rw [answered, Option.isSome_some]
  obtain ⟨exact, -, peaks⟩ := reuse_between power checked
  have reuse : (build tensors 48 256 .reuse).totalBytes = 1792 := by cbv
  have sum : exactTotal 256 (tensors.map Lifetime.bytes) 48 = 2816 := by decide
  rw [reuse] at peaks
  exact ⟨exact.trans sum, reuse, sum, by decide, peaks⟩

end WorkspacePlan

end OperatorGraph
