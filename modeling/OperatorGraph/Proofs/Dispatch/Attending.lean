import OperatorGraph.Proofs.Dispatch.Scores
import OperatorGraph.Proofs.Operator.Batch

set_option autoImplicit false

namespace OperatorGraph.SelfAttention

open Shader Stmt

/-- The rows of thread `index`, if its query row is row `i` of entry `b`. -/
def view (p : SelfAttention) (headDim index b i : Nat) : View where
  headDim := headDim
  kvHeads := p.kvHeadNum.toNat
  kvHead := index % p.headNum.toNat / (p.headNum.toNat / p.kvHeadNum.toNat)
  start := (p.rows.take b).sum
  visible := p.cached.getD b 0 + i + 1
  query := index / p.headNum.toNat * p.headNum.toNat * headDim + index % p.headNum.toNat * headDim
  slots := index * p.maxKvLen.toNat

/-- Launch parameters from which the body can look up the batch. -/
structure Informs (p : SelfAttention) (headDim : Nat) (info : List UInt32) : Prop where
  heads : info[1]? = some (UInt32.ofNat p.headNum.toNat)
  kvHeads : info[2]? = some (UInt32.ofNat p.kvHeadNum.toNat)
  headDim : info[3]? = some (UInt32.ofNat headDim)
  batch : info[4]? = some (UInt32.ofNat p.batch)
  maxKv : info[5]? = some (UInt32.ofNat p.maxKvLen.toNat)
  scale : info[6]? = some p.qkScale.bits
  cached : ∀ (b n : Nat), p.cached[b]? = some n → info[7 + b]? = some (UInt32.ofNat n)
  fresh : ∀ (b n : Nat), p.fresh[b]? = some n → info[7 + p.batch + b]? = some (UInt32.ofNat n)
  /-- Positions of launch parameters are words. -/
  short : 7 + 2 * p.batch ≤ 2 ^ 32

/-- One entry of the batch. -/
def scanRound : List Stmt :=
  [.bind "cached" (.infoAt (7 + .var "b")),
    .bind "fresh" (.infoAt (7 + .var "batch" + .var "b")),
    .when (.binary .less (.var "token") (.var "q_start" + .var "fresh"))
      [.assign "visible" (.var "cached" + .group (.var "token" - .var "q_start") + 1),
        .leave],
    .addTo "q_start" (.var "fresh"),
    .addTo "kv_start" (.var "cached" + .var "fresh")]

variable {F : Type} {p : SelfAttention} {headDim : Nat} {c : Context F}

/-- A thread that has passed the entries before `k`. -/
structure Passed (p : SelfAttention) (k : Nat) (w : Thread F) : Prop where
  queries : w.vars "q_start" = some (.word (UInt32.ofNat (p.fresh.take k).sum))
  keys : w.vars "kv_start" = some (.word (UInt32.ofNat (p.rows.take k).sum))
  silent : w.accesses = []

section

variable (informs : p.Informs headDim c.info) (ok : p.BatchOk) {b i token : Nat}
  (owns : p.Owns b i token) (few : p.fresh.sum < 2 ^ 32)
include informs ok few

/-- A round starts with the lengths of its entry. -/
theorem lengths_ends {k : Nat} (inside : k < p.batch) {u : Thread F}
    (batch : u.vars "batch" = some (.word (UInt32.ofNat p.batch))) :
    ∃ prior new, p.cached[k]? = some prior ∧ p.fresh[k]? = some new ∧
      p.rows[k]? = some (prior + new) ∧ (p.fresh.take k).sum + new < 2 ^ 32 ∧
      ∀ {flow body post}, Ends c body flow (((u.set "b" (.word (UInt32.ofNat k))).set "cached"
          (.word (UInt32.ofNat prior))).set "fresh" (.word (UInt32.ofNat new))) post →
        Ends c (.bind "cached" (.infoAt (7 + .var "b")) ::
          .bind "fresh" (.infoAt (7 + .var "batch" + .var "b")) :: body) flow
          (u.set "b" (.word (UInt32.ofNat k))) post := by
  obtain ⟨prior, new, atPrior, atNew, atRows, -, -⟩ := ok.entry_rows inside
  have short := informs.short
  have most := sum_take_mono p.fresh (show k + 1 ≤ p.fresh.length by
    rw [fresh, List.length_map]; exact inside)
  rw [sum_take_succ atNew, List.take_length] at most
  refine ⟨prior, new, atPrior, atNew, atRows, by omega, fun rest => ?_⟩
  refine .bindWord prior (.infoAt (.add (.word 7) (.var (by simp))) (by omega)
    (informs.cached k prior atPrior)) ?_
  exact .bindWord new (.infoAt (.add (.add (.word 7) (.var (by simp [batch]))) (.var (by simp)))
    (by omega) (informs.fresh k new atNew)) rest

include owns

omit informs ok few in
theorem owner_inside : b < p.batch := by
  obtain ⟨len, found, -⟩ := owns.inside
  have inside := (List.getElem?_eq_some_iff.mp found).1
  rwa [fresh, List.length_map] at inside

omit informs ok in
theorem token_small : token < 2 ^ 32 := by
  have last := owns.last
  have inside := owner_inside owns
  have most := sum_take_mono p.fresh (show b + 1 ≤ p.fresh.length by
    rw [fresh, List.length_map]; exact inside)
  rw [List.take_length] at most
  omega

/-- Entries before the owner are passed. -/
theorem scanRound_passes {k : Nat} (before : k < b) {u : Thread F} (passed : Passed p k u)
    (batch : u.vars "batch" = some (.word (UInt32.ofNat p.batch)))
    (row : u.vars "token" = some (.word (UInt32.ofNat token))) :
    Ends c scanRound .next (u.set "b" (.word (UInt32.ofNat k))) (Passed p (k + 1)) := by
  obtain ⟨prior, new, -, atNew, atRows, small, lengths⟩ :=
    lengths_ends informs ok few (Nat.lt_trans before (owner_inside owns)) batch
  have ended := owns.past before
  rw [sum_take_succ atNew] at ended
  have queries := passed.queries
  have keys := passed.keys
  refine lengths (.whenFalse ?_ ?_)
  · have behind : decide (token < (p.fresh.take k).sum + new) = false := decide_eq_false (by omega)
    rw [← behind]
    exact Expr.IsWord.less (.var (n := token) (by simp [row])) (.add (.var (by simp [queries]))
      (.var (by simp))) (token_small owns few) small
  · refine .addWord (p.fresh.take k).sum new (.var (by simp)) (by simp [queries]) ?_
    refine .addWord (p.rows.take k).sum (prior + new) (.add (.var (by simp)) (.var (by simp)))
      (by simp [keys]) (.nil ⟨?_, ?_, passed.silent⟩)
    · rw [sum_take_succ atNew]
      simp
    · rw [sum_take_succ atRows]
      simp

/-- A thread that has found the entry of its query row. -/
structure Found (p : SelfAttention) (b i : Nat) (w : Thread F) : Prop where
  keys : w.vars "kv_start" = some (.word (UInt32.ofNat (p.rows.take b).sum))
  visible : w.vars "visible" = some (.word (UInt32.ofNat (p.cached.getD b 0 + i + 1)))
  silent : w.accesses = []

/-- At the owner, the loop is left. -/
theorem scanRound_leaves {u : Thread F} (passed : Passed p b u)
    (batch : u.vars "batch" = some (.word (UInt32.ofNat p.batch)))
    (row : u.vars "token" = some (.word (UInt32.ofNat token))) :
    Ends c scanRound .leave (u.set "b" (.word (UInt32.ofNat b))) (Found p b i) := by
  obtain ⟨prior, new, atPrior, atNew, -, small, lengths⟩ :=
    lengths_ends informs ok few (owner_inside owns) batch
  have last := owns.last
  rw [sum_take_succ atNew] at last
  have place := owns.row
  have queries := passed.queries
  have keys := passed.keys
  refine lengths (.whenTrue ?_ (by decide) ?_)
  · have here : decide (token < (p.fresh.take b).sum + new) = true := decide_eq_true last
    rw [← here]
    exact Expr.IsWord.less (.var (n := token) (by simp [row])) (.add (.var (by simp [queries]))
      (.var (by simp))) (token_small owns few) small
  · have rest : token - (p.fresh.take b).sum = i := by omega
    refine .assignWord (prior + i + 1) (.add (.add (.var (by simp)) (.group (rest ▸
      .sub (.var (n := token) (by simp [row])) (.var (by simp [queries])) (by omega))))
      (.word 1)) ?_
    exact .leave ⟨by simp [keys], by simp [atPrior], passed.silent⟩

/-- The scan finds the owner of the query row. -/
theorem scanBody_ends {u : Thread F} (batch : u.vars "batch" = some (.word (UInt32.ofNat p.batch)))
    (row : u.vars "token" = some (.word (UInt32.ofNat token))) (silent : u.accesses = []) :
    Ends c scanBody .next u (Found p b i) := by
  have short := informs.short
  refine .declareWord 0 (.word 0) (.declareWord 0 (.word 0) (.declareWord 0 (.word 0) ?_))
  refine .countLeave p.batch (Passed p) (.var (by simp [batch])) (by omega)
    ⟨by simp, by simp, silent⟩ (owner_inside owns) ?_ ?_ fun _ found _ => .nil found
  · intro k before w passed between
    refine scanRound_passes informs ok owns few before passed ?_ ?_
    · rw [between.vars "batch" (by decide)]
      simp [batch]
    · rw [between.vars "token" (by decide)]
      simp [row]
  · intro w passed between
    refine scanRound_leaves informs ok owns few passed ?_ ?_
    · rw [between.vars "batch" (by decide)]
      simp [batch]
    · rw [between.vars "token" (by decide)]
      simp [row]

end

/-- What a thread derives from its number before it looks at the batch. -/
def header : List Stmt :=
  [.bind "heads" (.info 1),
    .bind "kv_heads" (.info 2),
    .bind "head_dim" (.info 3),
    .bind "batch" (.info 4),
    .bind "max_kv" (.info 5),
    .bind "scale" (.asFloat (.info 6)),
    .bind "token" (.thread / .var "heads"),
    .bind "head" (.thread % .var "heads"),
    .bind "kv_head" (.var "head" / .group (.var "heads" / .var "kv_heads"))]

theorem body_eq : body = header ++ (scanBody ++ (scoreBody ++ mixBody)) := rfl

/-- A thread that knows its query row and its heads. -/
structure Headed (p : SelfAttention) (headDim index : Nat) (u : Thread F) : Prop where
  number : u.vars "index" = some (.word (UInt32.ofNat index))
  heads : u.vars "heads" = some (.word (UInt32.ofNat p.headNum.toNat))
  kvHeads : u.vars "kv_heads" = some (.word (UInt32.ofNat p.kvHeadNum.toNat))
  headDim : u.vars "head_dim" = some (.word (UInt32.ofNat headDim))
  batch : u.vars "batch" = some (.word (UInt32.ofNat p.batch))
  maxKv : u.vars "max_kv" = some (.word (UInt32.ofNat p.maxKvLen.toNat))
  scale : ∃ x, u.vars "scale" = some (.real x)
  token : u.vars "token" = some (.word (UInt32.ofNat (index / p.headNum.toNat)))
  head : u.vars "head" = some (.word (UInt32.ofNat (index % p.headNum.toNat)))
  kvHead : u.vars "kv_head" = some (.word (UInt32.ofNat
    (index % p.headNum.toNat / (p.headNum.toNat / p.kvHeadNum.toNat))))

theorem Headed.scanned {index : Nat} {u w : Thread F} (headed : Headed p headDim index u)
    {tensors : List Nat} (kept : u.Keeps (assignedAll scanBody) tensors w) :
    Headed p headDim index w := by
  have vars (name : String) (other : name ∉ assignedAll scanBody) : w.vars name = u.vars name :=
    kept.vars name other
  refine ⟨(vars _ ?_).trans headed.number, (vars _ ?_).trans headed.heads,
    (vars _ ?_).trans headed.kvHeads, (vars _ ?_).trans headed.headDim,
    (vars _ ?_).trans headed.batch, (vars _ ?_).trans headed.maxKv,
    vars "scale" (by decide) ▸ headed.scale, (vars _ ?_).trans headed.token,
    (vars _ ?_).trans headed.head, (vars _ ?_).trans headed.kvHead⟩ <;> decide

section

variable (informs : p.Informs headDim c.info) (ok : p.BatchOk) {index : Nat} {arrays : Arrays F}
  (first : index < 2 ^ 32) (heads : p.headNum.toNat < 2 ^ 32)
include informs ok first heads

theorem header_ends : Ends c header .next (Thread.fresh arrays index) fun u =>
    Headed p headDim index u ∧ u.accesses = [] ∧ u.arrays = arrays := by
  have some := ok.heads
  have others := ok.kvHeads
  have fewer : p.kvHeadNum.toNat ≤ p.headNum.toNat :=
    Int.toNat_le_toNat (Int.le_of_dvd ok.heads ok.groups)
  have group : 0 < p.headNum.toNat / p.kvHeadNum.toNat := Nat.div_pos fewer (by omega)
  have smaller : p.headNum.toNat / p.kvHeadNum.toNat < 2 ^ 32 :=
    Nat.lt_of_le_of_lt (Nat.div_le_self _ _) heads
  have bits : c.info[6]? = Option.some (UInt32.ofNat p.qkScale.bits.toNat) := by
    rw [informs.scale, UInt32.ofNat_toNat]
  refine .bindWord _ (.info informs.heads) (.bindWord _ (.info informs.kvHeads)
    (.bindWord _ (.info informs.headDim) (.bindWord _ (.info informs.batch)
      (.bindWord _ (.info informs.maxKv) (.bindReal (.asFloat (.info bits)) fun x => ?_)))))
  rw [Thread.after_nil]
  refine .bindWord (index / p.headNum.toNat) (.div (.var (n := index) (by simp))
    (.var (n := p.headNum.toNat) (by simp)) first heads (by omega)) ?_
  refine .bindWord (index % p.headNum.toNat) (.mod (.var (n := index) (by simp))
    (.var (n := p.headNum.toNat) (by simp)) first heads (by omega)) ?_
  refine .bindWord _ (.div (.var (n := index % p.headNum.toNat) (by simp))
    (.group (.div (.var (n := p.headNum.toNat) (by simp)) (.var (n := p.kvHeadNum.toNat) (by simp))
      heads (by omega) (by omega)))
    (Nat.lt_trans (Nat.mod_lt _ (by omega)) heads) smaller group) ?_
  refine .nil ⟨⟨?_, ?_, ?_, ?_, ?_, ?_, ⟨x, ?_⟩, ?_, ?_, ?_⟩, rfl, rfl⟩ <;> simp

omit informs ok first heads in
/-- With its entry found, a thread accesses what its view lists. -/
theorem scored_ends {b i : Nat} {u : Thread F} (headed : Headed p headDim index u)
    (start : u.vars "kv_start" = some (.word (UInt32.ofNat (p.rows.take b).sum)))
    (visible : u.vars "visible" = some (.word (UInt32.ofNat (p.cached.getD b 0 + i + 1))))
    (fits : (p.view headDim index b i).Fits u.arrays.size)
    (reals : ∀ binding ∈ [1, 2, 3], ∀ n < u.arrays.size binding,
      ∃ x, u.arrays.cell binding n = .real x) :
    Ends c (scoreBody ++ mixBody) .next u fun w =>
      w.accesses = u.accesses ++ (p.view headDim index b i).accesses := by
  refine .bindWord (p.view headDim index b i).query (.add
    (.mul (.mul (.var headed.token) (.var headed.heads)) (.var headed.headDim))
    (.mul (.var headed.head) (.var headed.headDim))) ?_
  refine .bindWord (p.kvHeadNum.toNat * headDim)
    (.mul (.var (by simp [headed.kvHeads])) (.var (by simp [headed.headDim]))) ?_
  refine .bindWord (p.view headDim index b i).slots
    (.mul (.var (by simp [headed.number])) (.var (by simp [headed.maxKv]))) ?_
  refine .declareReal (.real _) fun x => ?_
  rw [Thread.after_nil]
  refine (scores_ends (v := p.view headDim index b i) ⟨?_, ?_, ?_, ?_, ?_, ?_, ?_, ?_, ?_, ?_⟩
    ⟨x, by simp⟩).mono fun after listed => ?_
  · simp [headed.headDim, view]
  · simp [view]
  · simp [headed.kvHead, view]
  · simp [start, view]
  · simp [visible, view]
  · simp
  · simp
  · simpa using headed.scale
  · simpa using fits
  · simpa only [Thread.arrays_set] using reals
  · rw [listed]
    simp

/-- The whole body accesses what its view lists, and nothing else. -/
theorem body_ends {b i : Nat} (owns : p.Owns b i (index / p.headNum.toNat))
    (few : p.fresh.sum < 2 ^ 32) (fits : (p.view headDim index b i).Fits arrays.size)
    (reals : ∀ binding ∈ [1, 2, 3], ∀ n < arrays.size binding,
      ∃ x, arrays.cell binding n = .real x) :
    Ends c body .next (Thread.fresh arrays index) fun w =>
      w.accesses = (p.view headDim index b i).accesses := by
  rw [body_eq]
  refine .append (header_ends informs ok first heads) fun u ⟨headed, silent, same⟩ => ?_
  refine .append (scanBody_ends informs ok owns few headed.batch headed.token silent).keeps
    fun w ⟨found, kept⟩ => ?_
  have held : w.arrays = arrays :=
    same ▸ Arrays.ext_of kept.size (funext fun binding => kept.cell binding (by decide +revert))
  have scored := scored_ends (c := c) (headed.scanned kept) found.keys found.visible
    (held.symm ▸ fits) (held.symm ▸ reals)
  rw [found.silent] at scored
  exact scored

end

end OperatorGraph.SelfAttention
