import OperatorGraph.Proofs.Inference.Checks

set_option autoImplicit false

namespace OperatorGraph.Shape

open Inference

/-- The dimension on an axis that is counted from the last one, a missing dimension being one. -/
def fromLast (s : Shape) (axis : Nat) : Int :=
  s.dims.reverse[axis]?.getD 1

/-- On this axis the dimensions are equal, or one of them is one. -/
def Agrees (a b : Shape) (axis : Nat) : Prop :=
  a.fromLast axis = b.fromLast axis ∨ a.fromLast axis = 1 ∨ b.fromLast axis = 1

/-- The dimension on this axis that is not one, or one if both are. -/
def wider (a b : Shape) (axis : Nat) : Int :=
  if a.fromLast axis = 1 then b.fromLast axis else a.fromLast axis

/-- A shape that is read as the other one by repeating what lies along axes of size one. -/
structure Expands (s t : Shape) : Prop where
  rank : s.rank ≤ t.rank
  dims : ∀ axis, s.fromLast axis = 1 ∨ s.fromLast axis = t.fromLast axis

theorem fromLast_of_le {s : Shape} {axis : Nat} (beyond : s.rank ≤ axis) : s.fromLast axis = 1 := by
  have missing : s.dims.reverse[axis]? = none := by
    rw [List.getElem?_eq_none_iff, List.length_reverse]
    exact beyond
  rw [fromLast, missing, Option.getD_none]

theorem fromLast_padTo (rank : Nat) (s : Shape) (axis : Nat) :
    fromLast ⟨padTo rank s.dims⟩ axis = s.fromLast axis := by
  rw [fromLast, padTo, List.reverse_append, List.reverse_replicate, List.getElem?_append]
  split
  · rfl
  · rename_i beyond
    rw [List.length_reverse] at beyond
    rw [fromLast_of_le (Nat.le_of_not_lt beyond), List.getElem?_replicate]
    split <;> rfl

theorem ext_fromLast {s t : Shape} (rank : s.rank = t.rank)
    (dims : ∀ axis, s.fromLast axis = t.fromLast axis) : s = t := by
  obtain ⟨xs⟩ := s
  obtain ⟨ys⟩ := t
  congr 1
  apply List.reverse_injective
  apply List.ext_getElem
  · simpa [Shape.rank] using rank
  · intro axis inXs inYs
    have here := dims axis
    simpa only [fromLast, List.getElem?_eq_getElem inXs, List.getElem?_eq_getElem inYs,
      Option.getD_some] using here

theorem joinDim_eq_some_iff {a b dim : Int} :
    joinDim a b = some dim ↔ (a = b ∨ a = 1 ∨ b = 1) ∧ dim = if a = 1 then b else a := by
  unfold joinDim
  grind

theorem mapM_id_eq_some {α : Type} {answers : List (Option α)} {values : List α} :
    answers.mapM id = some values ↔ answers = values.map some := by
  induction answers generalizing values with
  | nil => cases values <;> simp
  | cons first rest ih =>
    cases values with
    | nil => simp [Option.bind_eq_some_iff]
    | cons value values => simp [Option.bind_eq_some_iff, ih]

theorem joinDims_eq_some_iff {xs ys zs : List Int} (length : xs.length = ys.length) :
    List.zipWith joinDim xs ys = zs.map some ↔ zs.length = xs.length ∧
      ∀ i : Nat, joinDim (xs[i]?.getD 1) (ys[i]?.getD 1) = some (zs[i]?.getD 1) := by
  induction xs generalizing ys zs with
  | nil =>
    obtain rfl := List.length_eq_zero_iff.mp length.symm
    cases zs <;> simp
  | cons x xs ih =>
    cases ys with
    | nil => simp at length
    | cons y ys =>
      cases zs with
      | nil => simp
      | cons z zs =>
        rw [List.length_cons, List.length_cons, Nat.add_right_cancel_iff] at length
        rw [← Nat.and_forall_add_one, List.zipWith_cons_cons, List.map_cons, List.cons.injEq,
          ih length]
        simp only [List.getElem?_cons_zero, List.getElem?_cons_succ, Option.getD_some,
          List.length_cons, Nat.add_right_cancel_iff]
        tauto

/-- A broadcast has the larger rank, and on each axis what the dimensions there join to. -/
theorem broadcast?_eq_some_iff {a b s : Shape} : a.broadcast? b = some s ↔
    s.rank = max a.rank b.rank ∧
      ∀ axis, joinDim (a.fromLast axis) (b.fromLast axis) = some (s.fromLast axis) := by
  have rank : (padTo (max a.rank b.rank) a.dims).reverse.length = max a.rank b.rank := by
    rw [List.length_reverse, length_padTo]
    exact Nat.max_eq_left (Nat.le_max_left ..)
  have lengths : (padTo (max a.rank b.rank) a.dims).length =
      (padTo (max a.rank b.rank) b.dims).length := by
    simp [Shape.rank]
  -- Both operands are compared from the last axis on, where the padding is out of the way.
  have reversed : List.zipWith joinDim (padTo (max a.rank b.rank) a.dims)
        (padTo (max a.rank b.rank) b.dims) = s.dims.map some ↔
      List.zipWith joinDim (padTo (max a.rank b.rank) a.dims).reverse
        (padTo (max a.rank b.rank) b.dims).reverse = s.dims.reverse.map some := by
    rw [← List.reverse_zipWith lengths, List.map_reverse, List.reverse_inj]
  have joined : a.broadcast? b = some s ↔ List.zipWith joinDim
      (padTo (max a.rank b.rank) a.dims) (padTo (max a.rank b.rank) b.dims) = s.dims.map some := by
    rw [broadcast?, Option.map_eq_some_iff, ← mapM_id_eq_some]
    exact ⟨fun ⟨_, all, same⟩ => same ▸ all, fun all => ⟨s.dims, all, rfl⟩⟩
  rw [joined, reversed, joinDims_eq_some_iff (by simpa using lengths), rank, List.length_reverse]
  refine and_congr_right fun _ => forall_congr' fun axis => ?_
  have left := fromLast_padTo (max a.rank b.rank) a axis
  have right := fromLast_padTo (max a.rank b.rank) b axis
  unfold fromLast at left right ⊢
  rw [left, right]

theorem broadcast?_eq_some_iff_wider {a b s : Shape} : a.broadcast? b = some s ↔
    (∀ axis, a.Agrees b axis) ∧ s.rank = max a.rank b.rank ∧
      ∀ axis, s.fromLast axis = a.wider b axis := by
  simp only [broadcast?_eq_some_iff, joinDim_eq_some_iff, forall_and, Agrees, wider]
  exact and_left_comm

theorem broadcast?_answers {a b : Shape} (agree : ∀ axis, a.Agrees b axis) :
    ∃ s, a.broadcast? b = some s := by
  let dims := (List.range (max a.rank b.rank)).map (a.wider b)
  refine ⟨⟨dims.reverse⟩, broadcast?_eq_some_iff_wider.mpr ⟨agree, ?_, fun axis => ?_⟩⟩
  · simp [dims, Shape.rank]
  · rw [fromLast, List.reverse_reverse, List.getElem?_map]
    by_cases inside : axis < max a.rank b.rank
    · rw [List.getElem?_range inside, Option.map_some, Option.getD_some]
    · have left : a.fromLast axis = 1 := fromLast_of_le (by omega)
      have right : b.fromLast axis = 1 := fromLast_of_le (by omega)
      rw [List.getElem?_eq_none (by simpa using inside), wider, if_pos left, right]
      rfl

namespace Expands

theorem refl (s : Shape) : s.Expands s :=
  ⟨Nat.le_refl _, fun _ => .inr rfl⟩

theorem antisymm {s t : Shape} (first : s.Expands t) (second : t.Expands s) : s = t := by
  apply ext_fromLast (Nat.le_antisymm first.rank second.rank)
  intro axis
  rcases first.dims axis with one | same
  · rcases second.dims axis with one' | same
    · rw [one, one']
    · exact same.symm
  · exact same

end Expands

theorem agrees_of_expands {a b t : Shape} (left : a.Expands t) (right : b.Expands t) (axis : Nat) :
    a.Agrees b axis := by
  rcases left.dims axis with one | same
  · exact .inr (.inl one)
  · rcases right.dims axis with one | same'
    · exact .inr (.inr one)
    · exact .inl (same.trans same'.symm)

/-- What a broadcast expands to is what both shapes expand to. -/
theorem expands_broadcast_iff {a b s : Shape} (joined : a.broadcast? b = some s) (t : Shape) :
    s.Expands t ↔ a.Expands t ∧ b.Expands t := by
  obtain ⟨agree, rank, dims⟩ := broadcast?_eq_some_iff_wider.mp joined
  have axes (axis : Nat) : s.fromLast axis = 1 ∨ s.fromLast axis = t.fromLast axis ↔
      (a.fromLast axis = 1 ∨ a.fromLast axis = t.fromLast axis) ∧
        (b.fromLast axis = 1 ∨ b.fromLast axis = t.fromLast axis) := by
    have here := agree axis
    rw [dims axis, wider]
    unfold Agrees at here
    grind
  constructor
  · rintro ⟨within, each⟩
    rw [rank, Nat.max_le] at within
    exact ⟨⟨within.1, fun axis => ((axes axis).mp (each axis)).1⟩,
      within.2, fun axis => ((axes axis).mp (each axis)).2⟩
  · rintro ⟨left, right⟩
    exact ⟨rank ▸ Nat.max_le.mpr ⟨left.rank, right.rank⟩,
      fun axis => (axes axis).mpr ⟨left.dims axis, right.dims axis⟩⟩

/-- A broadcast is the least shape that both shapes expand to. -/
theorem broadcast?_eq_some_iff_least {a b s : Shape} :
    a.broadcast? b = some s ↔ ∀ t, s.Expands t ↔ a.Expands t ∧ b.Expands t := by
  refine ⟨expands_broadcast_iff, fun least => ?_⟩
  obtain ⟨left, right⟩ := (least s).mp (.refl s)
  obtain ⟨joined, answered⟩ := broadcast?_answers (agrees_of_expands left right)
  have same (t : Shape) : joined.Expands t ↔ s.Expands t :=
    (expands_broadcast_iff answered t).trans (least t).symm
  obtain rfl := Expands.antisymm ((same s).mpr (.refl s)) ((same joined).mp (.refl joined))
  exact answered

/-- Three shapes are broadcast to the least shape that all of them expand to. -/
theorem broadcast?_twice {a b c s : Shape} :
    (a.broadcast? b).bind (·.broadcast? c) = some s ↔
      ∀ t, s.Expands t ↔ (a.Expands t ∧ b.Expands t) ∧ c.Expands t := by
  rw [Option.bind_eq_some_iff]
  constructor
  · rintro ⟨joined, first, second⟩ t
    rw [expands_broadcast_iff second, expands_broadcast_iff first]
  · intro least
    obtain ⟨⟨left, right⟩, -⟩ := (least s).mp (.refl s)
    obtain ⟨joined, first⟩ := broadcast?_answers (agrees_of_expands left right)
    refine ⟨joined, first, broadcast?_eq_some_iff_least.mpr fun t => ?_⟩
    rw [least t, expands_broadcast_iff first]

theorem broadcast?_comm (a b : Shape) : a.broadcast? b = b.broadcast? a := by
  apply Option.ext
  intro s
  simp only [broadcast?_eq_some_iff_least, and_comm]

theorem broadcast?_assoc (a b c : Shape) :
    (a.broadcast? b).bind (·.broadcast? c) = (b.broadcast? c).bind (a.broadcast? ·) := by
  apply Option.ext
  intro s
  rw [show (a.broadcast? ·) = (·.broadcast? a) from funext (broadcast?_comm a), broadcast?_twice,
    broadcast?_twice]
  exact forall_congr' fun t => iff_congr Iff.rfl (and_assoc.trans and_comm)

theorem broadcast?_self (s : Shape) : s.broadcast? s = some s :=
  broadcast?_eq_some_iff_least.mpr fun _ => (and_self_iff).symm

theorem scalar_broadcast? (s : Shape) : scalar.broadcast? s = some s := by
  refine broadcast?_eq_some_iff_least.mpr fun t => (and_iff_right ?_).symm
  exact ⟨Nat.zero_le _, fun axis => .inl (fromLast_of_le (Nat.zero_le axis))⟩

theorem toOption_broadcast (a b : Shape) : (broadcast a b).toOption = a.broadcast? b := by
  unfold broadcast
  cases a.broadcast? b <;> rfl

/-- Broadcasting succeeds exactly if the shapes agree on every axis, with the wider dimension on
each axis of the larger rank. It is the join of an order where it succeeds: commutative, idempotent
and associative, with the scalar shape as its identity. -/
theorem broadcast_partial_join (a b c : Shape) :
    ((∃ s, broadcast a b = .ok s) ↔ ∀ axis, a.Agrees b axis) ∧
    (∀ s, broadcast a b = .ok s ↔ (∀ axis, a.Agrees b axis) ∧ s.rank = max a.rank b.rank ∧
      ∀ axis, s.fromLast axis = a.wider b axis) ∧
    (∀ s, broadcast a b = .ok s ↔ ∀ t, s.Expands t ↔ a.Expands t ∧ b.Expands t) ∧
    (broadcast a b).toOption = (broadcast b a).toOption ∧
    broadcast a a = .ok a ∧
    broadcast scalar a = .ok a ∧ broadcast a scalar = .ok a ∧
    (broadcast a b >>= (broadcast · c)).toOption =
      (broadcast b c >>= (broadcast a ·)).toOption := by
  have twice (first : Except ShapeError Shape) (next : Shape → Except ShapeError Shape) :
      (first >>= next).toOption = first.toOption.bind fun s => (next s).toOption := by
    cases first <;> rfl
  simp only [twice, toOption_broadcast, broadcast_eq_ok]
  refine ⟨⟨?_, broadcast?_answers⟩, fun _ => broadcast?_eq_some_iff_wider,
    fun _ => broadcast?_eq_some_iff_least, broadcast?_comm a b, broadcast?_self a,
    scalar_broadcast? a, ?_, broadcast?_assoc a b c⟩
  · rintro ⟨s, joined⟩
    exact (broadcast?_eq_some_iff_wider.mp joined).1
  · rw [broadcast?_comm]
    exact scalar_broadcast? a

/-- Dimensions that are zero or still open take part like any others. -/
example : broadcast ⟨[3, 1, -1]⟩ ⟨[0, 1]⟩ = .ok ⟨[3, 0, -1]⟩ := by decide

end OperatorGraph.Shape
