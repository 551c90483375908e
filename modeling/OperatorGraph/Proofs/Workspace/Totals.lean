import OperatorGraph.Proofs.Runner.Containment

set_option autoImplicit false

namespace OperatorGraph

section

variable {align : Nat} (positive : 0 < align)
include positive

theorem nextMultiple_of_dvd {n : Nat} (multiple : align ∣ n) : nextMultiple n align = n :=
  Nat.le_antisymm (nextMultiple_le n positive (Nat.le_refl n) multiple) (le_nextMultiple n positive)

theorem nextMultiple_add {start : Nat} (multiple : align ∣ start) (n : Nat) :
    nextMultiple (start + n) align = start + nextMultiple n align := by
  obtain ⟨factor, rfl⟩ := multiple
  have shift : align * factor + n + align - 1 = n + align - 1 + align * factor := by omega
  rw [nextMultiple, shift, Nat.add_mul_div_left _ _ positive, Nat.add_mul, nextMultiple,
    Nat.mul_comm factor, Nat.add_comm]

end

theorem alignUp_of_fits {n align : Nat} (power : Config.IsPowerOfTwo align)
    (fits : nextMultiple n align < 2 ^ 64) : alignUp n align = nextMultiple n align := by
  have above := le_nextMultiple n (Workspace.positive_of_power power)
  rw [alignUp_eq_word power (by omega)]
  exact Bounded.word_of_lt fits

theorem alignUp_lt (n align : Nat) : alignUp n align < 2 ^ 64 :=
  UInt64.toNat_lt _

theorem WorkspacePlan.tensorEnd_cons (offset : Nat) (t : Lifetime) (offsets : List Nat)
    (tensors : List Lifetime) : tensorEnd (offset :: offsets) (t :: tensors) =
      max (Bounded.word (offset + t.bytes)) (tensorEnd offsets tensors) := by
  simp only [tensorEnd, List.zipWith_cons_cons, List.max?_cons, Option.getD_some]
  cases (List.zipWith (fun offset (t : Lifetime) => Bounded.word (offset + t.bytes)) offsets
    tensors).max? <;> simp

namespace Workspace

/-- The bytes of parts that follow one another, each rounded up. -/
def roundedSum (align : Nat) (sizes : List Nat) : Nat :=
  (sizes.map (nextMultiple · align)).sum

theorem roundedSum_cons (align size : Nat) (rest : List Nat) :
    roundedSum align (size :: rest) = nextMultiple size align + roundedSum align rest := by
  simp only [roundedSum, List.map_cons, List.sum_cons]

theorem dvd_roundedSum (align : Nat) (sizes : List Nat) : align ∣ roundedSum align sizes := by
  induction sizes with
  | nil => exact Nat.dvd_zero align
  | cons size rest ih =>
    rw [roundedSum_cons]
    exact Nat.dvd_add (dvd_nextMultiple size) ih

theorem sum_le_roundedSum {align : Nat} (positive : 0 < align) (sizes : List Nat) :
    sizes.sum ≤ roundedSum align sizes := by
  induction sizes with
  | nil => exact Nat.le_refl 0
  | cons size rest ih =>
    have first := le_nextMultiple size positive
    simp only [roundedSum, List.map_cons, List.sum_cons] at ih ⊢
    omega

/-- Where tensors that follow one another from a cursor on end, rounded up. -/
theorem tensorEnd_linearFrom {align : Nat} (power : Config.IsPowerOfTwo align)
    {tensors : List Lifetime} {cursor : Nat}
    (fits : nextMultiple cursor align + roundedSum align (tensors.map Lifetime.bytes) < 2 ^ 64) :
    nextMultiple (max cursor
        (WorkspacePlan.tensorEnd (linearFrom align cursor tensors) tensors)) align =
      nextMultiple cursor align + roundedSum align (tensors.map Lifetime.bytes) := by
  have positive := positive_of_power power
  induction tensors generalizing cursor with
  | nil => simp [WorkspacePlan.tensorEnd, linearFrom, roundedSum]
  | cons t rest ih =>
    have start : alignUp cursor align = nextMultiple cursor align :=
      alignUp_of_fits power (by omega)
    have parts : roundedSum align ((t :: rest).map Lifetime.bytes) =
        nextMultiple t.bytes align + roundedSum align (rest.map Lifetime.bytes) := by
      simp [roundedSum]
    have rounded := le_nextMultiple t.bytes positive
    have stop : Bounded.word (nextMultiple cursor align + t.bytes) =
        nextMultiple cursor align + t.bytes := Bounded.word_of_lt (by omega)
    have behind := nextMultiple_add positive (dvd_nextMultiple cursor) t.bytes
    have furthest : max cursor (WorkspacePlan.tensorEnd (linearFrom align cursor (t :: rest))
          (t :: rest)) =
        max (nextMultiple cursor align + t.bytes) (WorkspacePlan.tensorEnd
          (linearFrom align (nextMultiple cursor align + t.bytes) rest) rest) := by
      have before := le_nextMultiple cursor positive
      rw [linearFrom, start, WorkspacePlan.tensorEnd_cons, stop]
      omega
    rw [furthest, ih (by omega), behind, parts]
    omega

end Workspace

namespace WorkspacePlan

open Workspace

/-- The bytes of a linear layout and of the scratch behind it, in exact arithmetic. -/
def exactTotal (align : Nat) (sizes : List Nat) (scratchBytes : Nat) : Nat :=
  roundedSum align sizes + nextMultiple scratchBytes align

theorem totalBytes_lt (tensors : List Lifetime) (scratchBytes align : Nat) (strategy : Strategy) :
    (build tensors scratchBytes align strategy).totalBytes < 2 ^ 64 := by
  simp only [build]
  split <;> exact alignUp_lt _ _

/-- The scratch of a linear layout starts at the sum of the rounded sizes, where that is a word. -/
theorem scratchOffset_linear {align : Nat} (power : Config.IsPowerOfTwo align)
    {tensors : List Lifetime} (scratchBytes : Nat)
    (fits : roundedSum align (tensors.map Lifetime.bytes) < 2 ^ 64) :
    (build tensors scratchBytes align .linear).scratchOffset =
      roundedSum align (tensors.map Lifetime.bytes) := by
  have zero : nextMultiple 0 align = 0 :=
    nextMultiple_of_dvd (positive_of_power power) (Nat.dvd_zero align)
  have ends := tensorEnd_linearFrom power (by rwa [zero, Nat.zero_add])
  rw [Nat.zero_max, zero, Nat.zero_add] at ends
  rw [← ends] at fits ⊢
  exact alignUp_of_fits power fits

/-- The planner adds up exactly as long as the exact total is a word. -/
theorem totalBytes_linear {align : Nat} (power : Config.IsPowerOfTwo align)
    {tensors : List Lifetime} {scratchBytes : Nat}
    (fits : exactTotal align (tensors.map Lifetime.bytes) scratchBytes < 2 ^ 64) :
    (build tensors scratchBytes align .linear).totalBytes =
      exactTotal align (tensors.map Lifetime.bytes) scratchBytes := by
  have positive := positive_of_power power
  have above := le_nextMultiple scratchBytes positive
  unfold exactTotal at fits ⊢
  have scratchOffset : alignUp (tensorEnd (linearFrom align 0 tensors) tensors) align =
      roundedSum align (tensors.map Lifetime.bytes) :=
    scratchOffset_linear power scratchBytes (by omega)
  simp only [build, offsetsFor, scratchOffset]
  split
  · have behind := nextMultiple_add positive
      (dvd_roundedSum align (tensors.map Lifetime.bytes)) scratchBytes
    rw [Bounded.word_of_lt (by omega), alignUp_of_fits power (by omega), behind]
  · obtain rfl : scratchBytes = 0 := by omega
    rw [nextMultiple_of_dvd positive (Nat.dvd_zero align), Nat.add_zero]

/-- How the bytes that a linear plan asks for compare with the sizes of what it lays out. -/
structure LinearTotal (bytes align : Nat) (sizes : List Nat) (scratchBytes : Nat) : Prop where
  exact : bytes = exactTotal align sizes scratchBytes ↔
    exactTotal align sizes scratchBytes < 2 ^ 64
  covers : exactTotal align sizes scratchBytes < 2 ^ 64 → sizes.sum + scratchBytes ≤ bytes
  /-- Where no word holds the sum, the plan asks for less. -/
  short : 2 ^ 64 ≤ sizes.sum + scratchBytes → bytes < sizes.sum + scratchBytes

theorem linearTotal {align : Nat} (power : Config.IsPowerOfTwo align) (tensors : List Lifetime)
    (scratchBytes : Nat) : LinearTotal (build tensors scratchBytes align .linear).totalBytes align
      (tensors.map Lifetime.bytes) scratchBytes := by
  have word := totalBytes_lt tensors scratchBytes align .linear
  have positive := positive_of_power power
  have sizes := sum_le_roundedSum positive (tensors.map Lifetime.bytes)
  have scratch := le_nextMultiple scratchBytes positive
  refine ⟨⟨fun same => same ▸ word, totalBytes_linear power⟩, fun fits => ?_, fun beyond => ?_⟩
  · rw [totalBytes_linear power fits]
    exact Nat.add_le_add sizes scratch
  · exact Nat.lt_of_lt_of_le word beyond

end WorkspacePlan

namespace Graph

theorem map_bytes_lifetimes (g : Graph) (sizes : List Nat) :
    (g.lifetimes sizes).map Lifetime.bytes = sizes := by
  apply List.ext_getElem?
  intro index
  rw [List.getElem?_map, getElem?_lifetimes, Option.map_map]
  cases sizes[index]? <;> rfl

end Graph

namespace Runner

open Workspace

/-- Without scratch, a setup with the linear strategy asks for the rounded sizes of the internal
tensors alone. -/
theorem setup_linear_unscratched {r : Runner}
    (power : Config.IsPowerOfTwo r.config.workspaceAlignment)
    (linear : r.config.workspaceStrategy = .linear) {pack : Pack} {bytes : Nat}
    (success : (r.setup pack).result = .ok bytes) {sizes : List Nat}
    (sized : (r.setup pack).state.graph.internalBytes = .ok sizes)
    (unscratched : (r.setup pack).state.graph.scratchBytes = 0)
    (fits : roundedSum r.config.workspaceAlignment sizes < 2 ^ 64) :
    bytes = roundedSum r.config.workspaceAlignment sizes := by
  obtain ⟨planned, same, plan, -, -, total⟩ := planned_setup success
  obtain rfl : sizes = planned := Except.ok.inj (sized.symm.trans same)
  have none : nextMultiple 0 r.config.workspaceAlignment = 0 :=
    nextMultiple_of_dvd (positive_of_power power) (Nat.dvd_zero _)
  have exact (g : Graph) : WorkspacePlan.exactTotal r.config.workspaceAlignment
      ((g.lifetimes sizes).map Lifetime.bytes) 0 = roundedSum r.config.workspaceAlignment sizes := by
    rw [Graph.map_bytes_lifetimes, WorkspacePlan.exactTotal, none, Nat.add_zero]
  rw [total, plan, unscratched, linear, WorkspacePlan.totalBytes_linear power (by rwa [exact]),
    exact]

/-- What a setup with the linear strategy asks for, whatever came before it: the bytes of all
internal tensors and of the largest scratch, each rounded up, if a word holds that sum. If no word
holds it, the setup succeeds all the same, with less. -/
theorem setup_linear_total {g : Graph} {config : Config} {created : Runner}
    (accepted : Runner.new g config = .ok created) (linear : config.workspaceStrategy = .linear)
    (calls : List Call) {pack : Pack} {bytes : Nat}
    (success : ((created.afterAll calls).setup pack).result = .ok bytes) :
    let r := ((created.afterAll calls).setup pack).state
    ∃ sizes, r.graph.internalBytes = .ok sizes ∧
      WorkspacePlan.LinearTotal bytes config.workspaceAlignment sizes r.graph.scratchBytes := by
  intro r
  obtain ⟨rfl, -, power⟩ := new_ok accepted
  have kept := (topology_afterAll ⟨g, config, .unbound, .empty⟩ calls).2
  obtain ⟨sizes, sized, plan, -, -, total⟩ := planned_setup success
  refine ⟨sizes, sized, ?_⟩
  have whole := WorkspacePlan.linearTotal power (r.graph.lifetimes sizes) r.graph.scratchBytes
  rw [Graph.map_bytes_lifetimes] at whole
  rw [total, plan, kept, linear]
  exact whole

/-- A tensor of 32 bytes and 48 bytes of scratch, each in units of 256. -/
theorem attending_total :
    let r := (⟨attending, .default, .unbound, .empty⟩ : Runner)
    (r.setup attendingPack).result = .ok 512 ∧
      (r.setup attendingPack).state.graph.internalBytes = .ok [32] ∧
      WorkspacePlan.LinearTotal 512 256 [32] 48 := by
  intro r
  have accepted : Runner.new attending .default = .ok r := rfl
  have success : (r.setup attendingPack).result = .ok 512 := by decide +kernel
  have sized : (r.setup attendingPack).state.graph.internalBytes = .ok [32] := by decide +kernel
  have scratch : (r.setup attendingPack).state.graph.scratchBytes = 48 := by decide +kernel
  have still : r.afterAll [] = r := rfl
  obtain ⟨sizes, same, total⟩ := setup_linear_total accepted rfl [] (still ▸ success)
  rw [still] at same total
  obtain rfl : sizes = [32] := Except.ok.inj (same.symm.trans sized)
  rw [scratch] at total
  exact ⟨success, sized, total⟩

/-- Two activations around one internal tensor. -/
def bending : Graph :=
  Graph.new "bending" ["x"] ["y"] ["bent"] [
    Node.new "bend" (.activation .relu) [.input 0] [.internal 0],
    Node.new "bend_again" (.activation .relu) [.internal 0] [.output 0]]

/-- A tensor of eight bytes less than the address space holds. -/
def widePack : Pack where
  inputs := [⟨.rowMajor .f64 ⟨[0x1fff_ffff_ffff_ffff]⟩, .external 4096⟩]
  outputs := [⟨.rowMajor .f64 ⟨[0x1fff_ffff_ffff_ffff]⟩, .external 8192⟩]
  workspace := none

/-- The largest tensor that has a size leaves no room for rounding up. No bytes are asked for, and a
call without a workspace is accepted. -/
theorem wide_setup_asks_nothing :
    let r := (⟨bending, .default, .unbound, .empty⟩ : Runner)
    let after := (r.setup widePack).state
    Runner.new bending .default = .ok r ∧ Config.default.workspaceStrategy = .linear ∧
      (r.setup widePack).result = .ok 0 ∧ (∃ m, after.callMemory widePack = .ok m) ∧
      ∃ sizes, after.graph.internalBytes = .ok sizes ∧ sizes.sum = 0xffff_ffff_ffff_fff8 ∧
        ¬ sizes.sum + after.graph.scratchBytes ≤ 0 := by
  refine ⟨rfl, rfl, by decide +kernel, ⟨⟨[4096], [8192], ⟨0, 0⟩⟩, by decide +kernel⟩,
    [0xffff_ffff_ffff_fff8], by decide +kernel, rfl, by simp⟩

end Runner

end OperatorGraph
