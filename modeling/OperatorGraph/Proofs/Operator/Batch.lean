import Mathlib.Algebra.Order.BigOperators.Group.List
import OperatorGraph.Proofs.Products
import OperatorGraph.Proofs.Inference.Rules

set_option autoImplicit false

namespace OperatorGraph.SelfAttention

variable {p : SelfAttention}

theorem tokens_eq_sum (p : SelfAttention) : p.tokens = p.seqLen.sum := by
  rw [tokens, List.sum]

theorem kvTokens_eq_sum (p : SelfAttention) : p.kvTokens = p.kvLens.sum := by
  rw [kvTokens, List.sum]

theorem le_maxKvLen {rows : Int} (member : rows ∈ p.kvLens) : rows ≤ p.maxKvLen := by
  unfold maxKvLen
  cases most : p.kvLens.max? with
  | none => simp [List.max?_eq_none_iff.mp most] at member
  | some greatest =>
    rw [Option.getD_some]
    exact (List.max?_eq_some_iff.mp most).2 rows member

theorem kvLens_getElem? {b : Nat} {cached fresh : Int} (atCached : p.tokenOffset[b]? = some cached)
    (atFresh : p.seqLen[b]? = some fresh) : p.kvLens[b]? = some (cached + fresh) := by
  simp only [kvLens, List.getElem?_zipWith, atCached, atFresh]

/-- The query rows before those of an entry. -/
def queryStart (p : SelfAttention) (b : Nat) : Int :=
  (p.seqLen.take b).sum

/-- The fresh rows of every entry, in natural numbers. -/
def fresh (p : SelfAttention) : List Nat :=
  p.seqLen.map Int.toNat

def cached (p : SelfAttention) : List Nat :=
  p.tokenOffset.map Int.toNat

/-- The key rows of every entry: the cached ones, and then the fresh ones. -/
def rows (p : SelfAttention) : List Nat :=
  List.zipWith (· + ·) p.cached p.fresh

/-- A query row is row `i` of entry `b`. -/
structure Owns (p : SelfAttention) (b i token : Nat) : Prop where
  row : token = (p.fresh.take b).sum + i
  inside : ∃ len, p.fresh[b]? = some len ∧ i < len

theorem sum_take_mono (lens : List Nat) {a b : Nat} (before : a ≤ b) :
    (lens.take a).sum ≤ (lens.take b).sum := by
  rw [← List.take_append_drop a (lens.take b), List.take_take, Nat.min_eq_left before,
    List.sum_append]
  exact Nat.le_add_right _ _

theorem sum_take_succ {lens : List Nat} {b len : Nat} (found : lens[b]? = some len) :
    (lens.take (b + 1)).sum = (lens.take b).sum + len := by
  obtain ⟨inside, rfl⟩ := List.getElem?_eq_some_iff.mp found
  exact List.sum_take_succ lens b inside

namespace Owns

variable {b i token : Nat} (owns : p.Owns b i token)
include owns

theorem last : token < (p.fresh.take (b + 1)).sum := by
  obtain ⟨len, found, inside⟩ := owns.inside
  rw [sum_take_succ found, owns.row]
  omega

theorem past {k : Nat} (before : k < b) : (p.fresh.take (k + 1)).sum ≤ token := by
  rw [owns.row]
  exact Nat.le_add_right_of_le (sum_take_mono p.fresh before)

/-- A row has one owner. -/
theorem unique {b' i' : Nat} (other : p.Owns b' i' token) : b' = b ∧ i' = i := by
  have same : b' = b := by
    rcases Nat.lt_trichotomy b' b with before | same | behind
    · have ended := owns.past before
      have more := other.last
      omega
    · exact same
    · have ended := other.past behind
      have more := owns.last
      omega
  subst same
  have rowA := owns.row
  have rowB := other.row
  exact ⟨rfl, by omega⟩

end Owns

/-- A number below a sum falls into one of its parts. -/
theorem exists_part {lens : List Nat} {n : Nat} (below : n < lens.sum) :
    ∃ b i len, n = (lens.take b).sum + i ∧ lens[b]? = some len ∧ i < len := by
  induction lens generalizing n with
  | nil => simp at below
  | cons first rest ih =>
    rw [List.sum_cons] at below
    rcases Nat.lt_or_ge n first with here | behind
    · exact ⟨0, n, first, by simp, rfl, here⟩
    · obtain ⟨b, i, len, row, found, inside⟩ := ih (show n - first < rest.sum by omega)
      refine ⟨b + 1, i, len, ?_, found, inside⟩
      rw [List.take_succ_cons, List.sum_cons]
      omega

theorem exists_owns {token : Nat} (below : token < p.fresh.sum) : ∃ b i, p.Owns b i token := by
  obtain ⟨b, i, len, row, found, inside⟩ := exists_part below
  exact ⟨b, i, row, len, found, inside⟩

theorem cast_sum_toNat {lens : List Int} (known : ∀ n ∈ lens, 0 ≤ n) :
    ((lens.map Int.toNat).sum : Int) = lens.sum := by
  induction lens with
  | nil => rfl
  | cons first rest ih =>
    have here := known first (by simp)
    have others := ih fun n member => known n (List.mem_cons_of_mem _ member)
    rw [List.map_cons, List.sum_cons, List.sum_cons, ← others]
    omega

namespace BatchOk

variable (ok : p.BatchOk)
include ok

theorem queryStart_nonneg (b : Nat) : 0 ≤ p.queryStart b :=
  List.sum_nonneg fun rows member => ok.lens rows (List.mem_of_mem_take member)

theorem queryStart_le (b : Nat) : p.queryStart b ≤ p.tokens := by
  have behind : 0 ≤ (p.seqLen.drop b).sum :=
    List.sum_nonneg fun rows member => ok.lens rows (List.mem_of_mem_drop member)
  have whole := p.seqLen.sum_take_add_sum_drop b
  rw [tokens_eq_sum, queryStart]
  omega

theorem entry {b : Nat} (inside : b < p.batch) : ∃ cached fresh, p.tokenOffset[b]? = some cached ∧
    p.seqLen[b]? = some fresh ∧ 0 ≤ cached ∧ 0 ≤ fresh := by
  have atFresh : p.seqLen[b]? = some p.seqLen[b] := List.getElem?_eq_getElem inside
  have same : b < p.tokenOffset.length := by
    rw [ok.lengths]
    exact inside
  have atCached : p.tokenOffset[b]? = some p.tokenOffset[b] := List.getElem?_eq_getElem same
  exact ⟨_, _, atCached, atFresh, ok.offsets _ (List.mem_of_getElem? atCached),
    ok.lens _ (List.mem_of_getElem? atFresh)⟩

theorem sum_fresh : (p.fresh.sum : Int) = p.tokens := by
  rw [tokens_eq_sum, fresh, cast_sum_toNat ok.lens]

theorem entry_rows {b : Nat} (inside : b < p.batch) : ∃ prior new, p.cached[b]? = some prior ∧
    p.fresh[b]? = some new ∧ p.rows[b]? = some (prior + new) ∧
    p.tokenOffset[b]? = some (prior : Int) ∧ p.seqLen[b]? = some (new : Int) := by
  obtain ⟨prior, new, atPrior, atNew, priorKnown, newKnown⟩ := ok.entry inside
  have inCached : p.cached[b]? = some prior.toNat := by
    rw [cached, List.getElem?_map, atPrior, Option.map_some]
  have inFresh : p.fresh[b]? = some new.toNat := by
    rw [fresh, List.getElem?_map, atNew, Option.map_some]
  refine ⟨prior.toNat, new.toNat, inCached, inFresh, ?_, ?_, ?_⟩
  · rw [rows, List.getElem?_zipWith, inCached, inFresh]
  · rw [atPrior, Int.toNat_of_nonneg priorKnown]
  · rw [atNew, Int.toNat_of_nonneg newKnown]

theorem rows_eq : p.rows = p.kvLens.map Int.toNat := by
  have same := ok.lengths
  refine List.ext_getElem (by simp [rows, kvLens, cached, fresh]) fun b small alsoSmall => ?_
  have inside : b < p.batch := by
    simp only [rows, List.length_zipWith, fresh, List.length_map] at small
    unfold batch
    omega
  obtain ⟨prior, new, -, -, total, atPrior, atNew⟩ := ok.entry_rows inside
  have sum := kvLens_getElem? atPrior atNew
  have atRows : (p.kvLens.map Int.toNat)[b]? = some (prior + new) := by
    rw [List.getElem?_map, sum, Option.map_some, ← Int.natCast_add, Int.toNat_natCast]
  exact Option.some.inj ((List.getElem?_eq_getElem small).symm.trans
    ((total.trans atRows.symm).trans (List.getElem?_eq_getElem alsoSmall)))

theorem kvLens_nonneg : ∀ n ∈ p.kvLens, 0 ≤ n := by
  intro n member
  obtain ⟨b, found⟩ := List.getElem?_of_mem member
  have inside := (List.getElem?_eq_some_iff.mp found).1
  rw [kvLens, List.length_zipWith] at inside
  obtain ⟨cached, fresh, atCached, atFresh, first, second⟩ :=
    ok.entry (show b < p.seqLen.length by omega)
  obtain rfl := Option.some.inj (found.symm.trans (kvLens_getElem? atCached atFresh))
  exact Int.add_nonneg first second

theorem sum_rows : (p.rows.sum : Int) = p.kvTokens := by
  rw [kvTokens_eq_sum, ok.rows_eq, cast_sum_toNat ok.kvLens_nonneg]

theorem le_maxRows {n : Nat} (member : n ∈ p.rows) : n ≤ p.maxKvLen.toNat := by
  rw [ok.rows_eq, List.mem_map] at member
  obtain ⟨len, inLens, rfl⟩ := member
  exact Int.toNat_le_toNat (le_maxKvLen inLens)

/-- Where there are query rows, some entry has key rows. -/
theorem maxKvLen_pos (rows : 0 < p.tokens) : 0 < p.maxKvLen := by
  by_contra none
  have empty : p.seqLen.sum = 0 := by
    refine List.sum_eq_zero fun fresh member => ?_
    obtain ⟨b, inside, rfl⟩ := List.getElem_of_mem member
    obtain ⟨cached, fresh, atCached, atFresh, known, -⟩ := ok.entry inside
    have most := le_maxKvLen (List.mem_of_getElem? (kvLens_getElem? atCached atFresh))
    rw [List.getElem?_eq_getElem inside, Option.some.injEq] at atFresh
    have nonneg := ok.lens _ member
    omega
  rw [tokens_eq_sum] at rows
  omega

end BatchOk

namespace Admits

variable {tokens headDim : Int} {q k v : Shape} (admits : p.Admits tokens headDim q k v)
  (positive : ∀ dim ∈ q.dims, 1 ≤ dim)
include admits positive

theorem rows_pos : 1 ≤ tokens ∧ p.tokens = tokens := by
  have rows : 1 ≤ tokens := positive tokens (by simp [admits.query])
  exact ⟨rows, (admits.tokens (by omega)).symm⟩

theorem headDim_pos : 1 ≤ headDim := by
  have columns : 1 ≤ p.headNum * headDim := positive _ (by simp [admits.query])
  exact (mul_pos_iff_of_pos_left admits.batch.heads).mp columns

theorem threads_le : 1 ≤ p.tokens * p.headNum ∧ p.tokens * p.headNum ≤ q.dims.prod := by
  obtain ⟨rows, same⟩ := admits.rows_pos positive
  have heads := admits.batch.heads
  have threads := Int.mul_le_mul rows (show 1 ≤ p.headNum by omega) (by omega) (by omega)
  rw [same, admits.query, List.prod_pair]
  refine ⟨by omega, Int.mul_le_mul_of_nonneg_left ?_ (by omega)⟩
  exact le_mul_of_one_le_right (by omega) (admits.headDim_pos positive)

end Admits

end OperatorGraph.SelfAttention
