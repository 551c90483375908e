import OperatorGraph.Proofs.Dispatch.Attending
import OperatorGraph.Proofs.Dispatch.Parameters
import OperatorGraph.Proofs.Shader.Traps

set_option autoImplicit false

namespace OperatorGraph

open Dispatch Shader

/-- Floats of which there is one. -/
def Shader.Arithmetic.blank : Arithmetic Unit where
  ofBits _ := ()
  ofWord _ := ()
  ofInt _ := ()
  ofText _ := ()
  toWord _ := 0
  toInt _ := 0
  add _ _ := ()
  sub _ _ := ()
  mul _ _ := ()
  div _ _ := ()
  max _ _ := ()
  negate _ := ()
  exp _ := ()
  tanh _ := ()
  inverseSqrt _ := ()

/-- Tensors of one element each, all alike. -/
def Shader.Arrays.alike (value : Value Unit) : Arrays Unit :=
  ⟨fun _ => 1, fun _ _ => value⟩

namespace Shader.Walk

variable {w : Walk} (named : w.Named) {c : Context Unit} {rank : Nat} (some : 0 < rank)
  (short : w.head + 3 * rank ≤ 2 ^ 32)
  (ones : ∀ position, w.head ≤ position → position + 1 < w.head + 3 * rank →
    c.info[position]? = .some (UInt32.ofNat 1))
  (absent : c.info[w.head + 3 * rank - 1]? = none)
include named some short ones absent

/-- The first round already asks for the stride that is listed last. -/
theorem round_stuck {u : Thread Unit} (ofRank : u.vars "rank" = .some (.word (UInt32.ofNat rank)))
    (rem : u.vars "rem" = .some (.word (UInt32.ofNat 0)))
    {m : Nat} (first : u.vars w.first.name = .some (.word (UInt32.ofNat m))) :
    Stmt.Stuck c w.round (u.set "i" (.word (UInt32.ofNat 0)))
      (.outside .info (w.head + 3 * rank - 1)) := by
  simp only [Named, List.nodup_cons, List.mem_cons, List.not_mem_nil, or_false, not_or] at named
  obtain ⟨⟨-, firstRank, firstRem, firstI, firstAxis, firstCoord⟩, -⟩ := named
  -- Axes are visited from the last one on, so the first round is the one that needs its strides.
  have last : w.head + 2 * rank + (rank - 1 - 0) = w.head + 3 * rank - 1 := by omega
  refine .cons (.bindWord (rank - 1 - 0) (.sub (.sub (.var (n := rank) (by simp [ofRank])) (.word 1)
    (by omega)) (.var (n := 0) (by simp)) (by omega)) (.nil rfl)) ?_
  refine .cons (.bindWord (0 % 1) (.mod (.var (n := 0) (by simp [rem]))
    (.infoAt (.add (.word w.head) (.var (n := rank - 1 - 0) (by simp))) (by omega)
      (ones _ (by omega) (by omega))) (by decide) (by decide) (by decide)) (.nil rfl)) ?_
  refine .cons (.assignWord (0 / 1) (.div (.var (n := 0) (by simp [rem]))
    (.infoAt (.add (.word w.head) (.var (n := rank - 1 - 0) (by simp))) (by omega)
      (ones _ (by omega) (by omega))) (by decide) (by decide) (by decide)) (.nil rfl)) ?_
  refine .cons (.addWord m (0 % 1 * 1) (.mul (.var (by simp))
    (.infoAt (.add (.add (.word w.head) (.var (n := rank) (by simp [ofRank])))
      (.var (n := rank - 1 - 0) (by simp))) (by omega) (ones _ (by omega) (by omega))))
    (by simp [first, firstRem, firstI, firstAxis, firstCoord]) (.nil rfl)) ?_
  rw [← last] at absent ⊢
  refine .addTo (.mul (Expr.IsWord.var (n := 0 % 1) ?_)
    (.infoAt (.add (.add (.word w.head) (.mul (.word 2) (.var (n := rank) ?_)))
      (.var (n := rank - 1 - 0) ?_)) (by omega) absent))
  · simp [Ne.symm firstCoord]
  · simp [ofRank, Ne.symm firstRank]
  · simp [Ne.symm firstAxis]

/-- The rounds are stopped. -/
theorem rounds_stuck {s : Thread Unit} (ofRank : s.vars "rank" = .some (.word (UInt32.ofNat rank)))
    (rem : s.vars "rem" = .some (.word (UInt32.ofNat 0)))
    {m : Nat} (first : s.vars w.first.name = .some (.word (UInt32.ofNat m))) {body : List Stmt} :
    Stmt.Stuck c (.count .block "i" 0 (.var "rank") w.round :: body) s
      (.outside .info (w.head + 3 * rank - 1)) := by
  refine .count rank (fun _ u => u = s) (.var ofRank) (by omega) rfl some
    (fun k before => absurd before (Nat.not_lt_zero k)) ?_
  rintro u rfl -
  exact round_stuck named some short ones absent ofRank rem first

end Shader.Walk

namespace Program

/-- Launch parameters of one thread for a rank, followed by so many ones. -/
def ranked (rank more : Nat) : List UInt32 :=
  1 :: UInt32.ofNat rank :: List.replicate more 1

theorem ranked_ones {rank more position : Nat} (behind : 2 ≤ position)
    (inside : position < more + 2) : (ranked rank more)[position]? = some (UInt32.ofNat 1) := by
  obtain ⟨place, rfl⟩ := Nat.exists_eq_add_of_le' behind
  show (List.replicate more (1 : UInt32))[place]? = _
  rw [List.getElem?_replicate, if_pos (by omega)]
  rfl

@[simp]
theorem length_ranked (rank more : Nat) : (ranked rank more).length = more + 2 := by
  simp [ranked]

theorem ranked_absent {rank more position : Nat} (outside : more + 2 ≤ position) :
    (ranked rank more)[position]? = none := by
  refine List.getElem?_eq_none ?_
  rwa [length_ranked]

variable {rank : Nat} {types : List String}

theorem copy_asks_last (some : 0 < rank) (short : 4 + 3 * rank ≤ 2 ^ 32) :
    (copy.kernel types).Asks (ranked rank (3 * rank + 1)) (4 + 3 * rank - 1) := by
  let w : Walk := ⟨4, [], ⟨"src", 0, []⟩, ⟨"dst", 0, []⟩⟩
  have head : w.head = 4 := rfl
  have named : w.Named := by
    show ["src", "dst", "rank", "rem", "i", "axis", "coord"].Nodup
    decide
  refine ⟨Unit, .blank, .alike (.real ()), UInt32.ofNat 0, .inl ?_⟩
  refine Kernel.runThread_of_stuck 1 0 rfl rfl (by decide) (by decide) _ ?_
  refine .cons (.bindWord rank (.info rfl) (.nil rfl)) ?_
  refine .cons (.declareWord 0 (.var (by simp)) (.nil rfl)) ?_
  refine .cons (.declareWord 1 (.info (ranked_ones (by omega) (by omega))) (.nil rfl)) ?_
  refine .cons (.declareWord 1 (.info (ranked_ones (by omega) (by omega))) (.nil rfl)) ?_
  exact Walk.rounds_stuck (w := w) named some short
    (fun position behind before => ranked_ones (by omega) (by omega)) (ranked_absent (by omega))
    (m := 1) (by simp) (by simp) (by simp [w])

theorem broadcast_asks_last (op : BinaryOp) (some : 0 < rank) (short : 2 + 3 * rank ≤ 2 ^ 32) :
    ((broadcast op).kernel types).Asks (ranked rank (3 * rank - 1)) (2 + 3 * rank - 1) := by
  let w : Walk := ⟨2, [], ⟨"lhs_index", 0, []⟩, ⟨"rhs_index", 0, []⟩⟩
  have head : w.head = 2 := rfl
  have named : w.Named := by
    show ["lhs_index", "rhs_index", "rank", "rem", "i", "axis", "coord"].Nodup
    decide
  refine ⟨Unit, .blank, .alike (.real ()), UInt32.ofNat 0, .inl ?_⟩
  refine Kernel.runThread_of_stuck 1 0 rfl rfl (by decide) (by decide) _ ?_
  refine .cons (.bindWord rank (.info rfl) (.nil rfl)) ?_
  refine .cons (.declareWord 0 (.var (by simp)) (.nil rfl)) ?_
  refine .cons (.declareWord 0 (.word 0) (.nil rfl)) ?_
  refine .cons (.declareWord 0 (.word 0) (.nil rfl)) ?_
  exact Walk.rounds_stuck (w := w) named some short
    (fun position behind before => ranked_ones (by omega) (by omega)) (ranked_absent (by omega))
    (m := 0) (by simp) (by simp) (by simp [w])

end Program

namespace SelfAttention

open Stmt

/-- Launch parameters of one thread for a batch of empty entries, without the last one. -/
def emptyBatch (batch : Nat) : List UInt32 :=
  [1, 1, 1, 1, UInt32.ofNat batch, 1, 0] ++ List.replicate (2 * batch - 1) 0

theorem emptyBatch_zeros {batch position : Nat} (behind : 7 ≤ position)
    (inside : position + 1 < 7 + 2 * batch) :
    (emptyBatch batch)[position]? = some (UInt32.ofNat 0) := by
  obtain ⟨place, rfl⟩ := Nat.exists_eq_add_of_le' behind
  show (List.replicate (2 * batch - 1) (0 : UInt32))[place]? = _
  rw [List.getElem?_replicate, if_pos (by omega)]
  rfl

theorem emptyBatch_absent {batch position : Nat} (some : 0 < batch)
    (outside : position + 1 = 7 + 2 * batch) : (emptyBatch batch)[position]? = none :=
  List.getElem?_eq_none (by simp [emptyBatch]; omega)

section

variable {F : Type} {c : Context F} {batch : Nat} (info : c.info = emptyBatch batch)
  (short : 7 + 2 * batch ≤ 2 ^ 32) {u : Thread F}
  (size : u.vars "batch" = some (.word (UInt32.ofNat batch)))
include info short size

/-- An empty entry is passed. -/
theorem scanRound_passes_empty {k : Nat} (before : k + 1 < batch)
    (token : u.vars "token" = some (.word (UInt32.ofNat 0)))
    (queries : u.vars "q_start" = some (.word (UInt32.ofNat 0)))
    (keys : u.vars "kv_start" = some (.word (UInt32.ofNat 0))) :
    Ends c scanRound .next (u.set "b" (.word (UInt32.ofNat k))) fun v =>
      v.vars "q_start" = some (.word (UInt32.ofNat 0)) ∧
        v.vars "kv_start" = some (.word (UInt32.ofNat 0)) := by
  refine .bindWord 0 (.infoAt (.add (.word 7) (.var (n := k) (by simp))) (by omega)
    (info ▸ emptyBatch_zeros (by omega) (by omega))) ?_
  refine .bindWord 0 (.infoAt (.add (.add (.word 7) (.var (n := batch) (by simp [size])))
    (.var (n := k) (by simp))) (by omega) (info ▸ emptyBatch_zeros (by omega) (by omega))) ?_
  refine .whenFalse ?_ ?_
  · exact Expr.IsWord.less (m := 0) (n := 0 + 0) (.var (by simp [token]))
      (.add (.var (by simp [queries])) (.var (by simp))) (by decide) (by decide)
  · refine .addWord 0 0 (.var (by simp)) (by simp [queries]) ?_
    refine .addWord 0 (0 + 0) (.add (.var (by simp)) (.var (by simp))) (by simp [keys]) (.nil ?_)
    simp

/-- The length of the last entry is missing. -/
theorem scanRound_stuck {last : Nat} (ends : last + 1 = batch) :
    Stuck c scanRound (u.set "b" (.word (UInt32.ofNat last)))
      (.outside .info (7 + 2 * batch - 1)) := by
  have place : 7 + batch + last = 7 + 2 * batch - 1 := by omega
  refine .cons (.bindWord 0 (.infoAt (.add (.word 7) (.var (n := last) (by simp))) (by omega)
    (info ▸ emptyBatch_zeros (by omega) (by omega))) (.nil rfl)) ?_
  rw [← place]
  exact .bind (.infoAt (.add (.add (.word 7) (.var (n := batch) (by simp [size])))
    (.var (n := last) (by simp))) (by omega) (info ▸ emptyBatch_absent (by omega) (by omega)))

end

theorem asks_last {batch : Nat} (some : 0 < batch) (short : 7 + 2 * batch ≤ 2 ^ 32)
    {types : List String} :
    (Program.attention.kernel types).Asks (emptyBatch batch) (7 + 2 * batch - 1) := by
  refine ⟨Unit, .blank, .alike (.real ()), UInt32.ofNat 0, .inl ?_⟩
  refine Kernel.runThread_of_stuck 1 0 rfl rfl (by decide) (by decide) _ ?_
  refine .cons (.bindWord 1 (.info rfl) (.nil rfl)) ?_
  refine .cons (.bindWord 1 (.info rfl) (.nil rfl)) ?_
  refine .cons (.bindWord 1 (.info rfl) (.nil rfl)) ?_
  refine .cons (.bindWord batch (.info rfl) (.nil rfl)) ?_
  refine .cons (.bindWord 1 (.info rfl) (.nil rfl)) ?_
  refine .cons (.bind (.call (Expr.IsWord.info (n := 0) rfl) rfl) (.nil rfl)) ?_
  rw [Thread.after_nil]
  refine .cons (.bindWord (0 / 1) (.div (.var (by simp)) (.var (n := 1) (by simp)) (by decide)
    (by decide) (by decide)) (.nil rfl)) ?_
  refine .cons (.bindWord (0 % 1) (.mod (.var (n := 0) (by simp)) (.var (n := 1) (by simp))
    (by decide) (by decide) (by decide)) (.nil rfl)) ?_
  refine .cons (.bindWord (0 % 1 / (1 / 1)) (.div (.var (by simp)) (.group (.div (.var (n := 1)
    (by simp)) (.var (n := 1) (by simp)) (by decide) (by decide) (by decide))) (by decide)
    (by decide) (by decide)) (.nil rfl)) ?_
  refine .cons (.declareWord 0 (.word 0) (.nil rfl)) ?_
  refine .cons (.declareWord 0 (.word 0) (.nil rfl)) ?_
  refine .cons (.declareWord 0 (.word 0) (.nil rfl)) ?_
  refine .count batch (fun _ u => u.vars "q_start" = .some (.word (UInt32.ofNat 0)) ∧
    u.vars "kv_start" = .some (.word (UInt32.ofNat 0))) (.var (by simp)) (by omega) (by simp)
    (Nat.sub_lt some Nat.one_pos) ?_ ?_
  -- No token is below an empty entry's end, so the scan goes on to the last entry.
  · intro k before u ⟨queries, keys⟩ between
    refine scanRound_passes_empty rfl short ?_ (by omega) ?_ queries keys
    · rw [between.vars "batch" (by decide)]
      simp
    · rw [between.vars "token" (by decide)]
      simp
  · intro u _ between
    refine scanRound_stuck rfl short ?_ (by omega)
    rw [between.vars "batch" (by decide)]
    simp

end SelfAttention

namespace Program

/-- Without axes, the rank itself is the last launch parameter. -/
theorem broadcast_asks_rank (op : BinaryOp) (types : List String) :
    ((broadcast op).kernel types).Asks [1, 0] 1 := by
  cases op with
  | or => exact ⟨Unit, .blank, .alike (.flag true), 0, .inr ⟨_, rfl, by decide⟩⟩
  | _ => exact ⟨Unit, .blank, .alike (.word 0), 0, .inr ⟨_, rfl, by decide⟩⟩

/-- Without a loop over axes or entries, the last launch parameter is asked for at once. -/
theorem asks_last_none {program : Program} (fixed : program.place? = none) (size : Nat)
    (types : List String) :
    ∃ info, (program.kernel types).Asks info (program.words size - 1) := by
  have stops (info : List UInt32) {position : Nat} (asked : (program.kernel types).runThread .blank
      info (.alike (.real ())) 0 = .error (.outside .info position)) :
      ∃ info, (program.kernel types).Asks info position :=
    ⟨info, Unit, .blank, .alike (.real ()), 0, .inl asked⟩
  let given (words : Nat) : List UInt32 := 1 :: List.replicate words 0
  cases program with
  | broadcast _ | copy | attention => simp [place?] at fixed
  | cast type | map kind => exact stops [] rfl
  | scale | gate | softmax => exact stops (given 0) rfl
  | layerNorm withStats => cases withStats <;> exact stops (given 1) rfl
  | rmsNorm => exact stops (given 1) rfl
  | matMul _ _ _ | gather _ | rope => exact stops (given 2) rfl

/-- Over some launch parameters for a rank or a batch, a program asks for the last one that it has,
if words can number it. -/
theorem asks_last (program : Program) {size : Nat} (short : program.words size ≤ 2 ^ 32)
    (types : List String) : ∃ info, program.Sized size info ∧
      (program.kernel types).Asks info (program.words size - 1) := by
  have free (fixed : program.place? = none) : ∃ info, program.Sized size info ∧
      (program.kernel types).Asks info (program.words size - 1) := by
    obtain ⟨info, asks⟩ := asks_last_none fixed size types
    exact ⟨info, fun place known => by simp [fixed] at known, asks⟩
  cases program with
  | broadcast op =>
    by_cases some : 0 < size
    · exact ⟨_, .at_place rfl rfl, broadcast_asks_last op some short⟩
    · obtain rfl : size = 0 := by omega
      exact ⟨[1, 0], .at_place rfl rfl, broadcast_asks_rank op types⟩
  | copy =>
    by_cases some : 0 < size
    · exact ⟨_, .at_place rfl rfl, copy_asks_last some short⟩
    · obtain rfl : size = 0 := by omega
      exact ⟨[1, 0, 0], .at_place rfl rfl, Unit, .blank, .alike (.real ()), 0, .inl rfl⟩
  | attention =>
    by_cases some : 0 < size
    · exact ⟨_, .at_place rfl rfl, SelfAttention.asks_last some short⟩
    · obtain rfl : size = 0 := by omega
      exact ⟨[1, 0, 0, 0, 0, 0], .at_place rfl rfl, Unit, .blank, .alike (.real ()), 0, .inl rfl⟩
  | _ => exact free rfl

end Program

end OperatorGraph
