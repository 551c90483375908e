import OperatorGraph.Proofs.Answers
import OperatorGraph.Proofs.Device.Blocks
import OperatorGraph.Proofs.Workspace.Alignment

set_option autoImplicit false

namespace OperatorGraph

namespace DeviceMemory

/-- The bytes of the buffer for a number of bytes: the next multiple of four, at least four. -/
def room (len : Nat) : Nat :=
  max (nextMultiple len copyAlignment) copyAlignment

/-- The addresses from the start of a block to the start of the next one. -/
def pitch (len : Nat) : Nat :=
  nextMultiple (room len) addressAlignment

theorem room_pos (len : Nat) : 0 < room len :=
  Nat.lt_of_lt_of_le (by decide) (Nat.le_max_right _ _)

theorem le_room (len : Nat) : len ≤ room len :=
  Nat.le_trans (le_nextMultiple len (by decide)) (Nat.le_max_left _ _)

theorem room_le_pitch (len : Nat) : room len ≤ pitch len :=
  le_nextMultiple _ (by decide)

theorem bufferSize_eq {len : Nat} (fits : len + copyAlignment < 2 ^ 64) :
    bufferSize len = room len := by
  have words : max len 1 + copyAlignment < 2 ^ 64 := by
    simp only [copyAlignment] at fits ⊢
    omega
  rw [bufferSize, alignUp_eq (by decide) words]
  simp only [room, nextMultiple, copyAlignment]
  omega

theorem length_padded {data : List UInt8} (fits : data.length + copyAlignment < 2 ^ 64) :
    (padded data).length = nextMultiple data.length copyAlignment := by
  have rounded := le_nextMultiple data.length (show 0 < copyAlignment by decide)
  rw [padded, List.length_append, List.length_replicate, alignUp_eq (by decide) fits]
  omega

/-- Live blocks lie before a cursor, where the next one starts. -/
structure Laid (m : DeviceMemory) (cursor : Nat) : Prop extends m.Ordered where
  start : empty.next ≤ cursor
  below : ∀ a ∈ m.live, a.base + a.size ≤ cursor
  next : m.next = Bounded.word cursor

/-- A block that was just made, with the bytes that were copied into it. -/
def filled (cursor : Nat) (data : List UInt8) : Allocation :=
  (⟨cursor, room data.length, fun _ => 0⟩ : Allocation).write 0 (padded data).toArray

theorem filled_nil (cursor : Nat) : filled cursor [] = ⟨cursor, room 0, fun _ => 0⟩ := by
  simp [filled, padded, Allocation.write, show alignUp 0 copyAlignment = 0 from rfl]

namespace Laid

variable {m : DeviceMemory} {cursor : Nat} (laid : m.Laid cursor)
include laid

theorem push {a : Allocation} {len : Nat} (range : a.range = ⟨cursor, room len⟩) :
    Laid ⟨m.live ++ [a], Bounded.word (cursor + pitch len)⟩ (cursor + pitch len) := by
  obtain ⟨base, size⟩ : a.base = cursor ∧ a.size = room len :=
    ⟨congrArg Span.ptr range, congrArg Span.len range⟩
  have start := laid.start
  have positive := room_pos len
  have fits := room_le_pitch len
  refine ⟨⟨?_, ?_, ?_⟩, ?_, ?_, rfl⟩
  · intro b member
    rcases List.mem_append.mp member with old | new
    · exact laid.based b old
    · rw [List.mem_singleton.mp new, base]
      exact Nat.lt_of_lt_of_le (by decide) start
  · intro b member
    rcases List.mem_append.mp member with old | new
    · exact laid.positive b old
    · rw [List.mem_singleton.mp new, size]
      exact positive
  · refine List.pairwise_append.mpr ⟨laid.apart, List.pairwise_singleton _ _, fun b old c new => ?_⟩
    rw [List.mem_singleton.mp new, base]
    exact laid.below b old
  · exact Nat.le_trans start (Nat.le_add_right _ _)
  · intro b member
    rcases List.mem_append.mp member with old | new
    · exact Nat.le_trans (laid.below b old) (Nat.le_add_right _ _)
    · rw [List.mem_singleton.mp new, base, size]
      exact Nat.add_le_add_left fits _

/-- A new block starts at the cursor. -/
theorem alloc {len : Nat} (fits : cursor + pitch len ≤ 2 ^ 64) :
    (m.alloc len).result = .ok ⟨cursor, len⟩ ∧
      (m.alloc len).state =
        ⟨m.live ++ [⟨cursor, room len, fun _ => 0⟩], Bounded.word (cursor + pitch len)⟩ := by
  have start : 0x10000 ≤ cursor := laid.start
  have long := le_room len
  have some := room_pos len
  have whole := room_le_pitch len
  have next : m.next = cursor := laid.next.trans (Nat.mod_eq_of_lt (by omega))
  have size : bufferSize len = room len :=
    bufferSize_eq (by simp only [copyAlignment]; omega)
  have step : alignUp (room len) addressAlignment = pitch len :=
    alignUp_eq (by decide) (by simp only [addressAlignment]; omega)
  simp only [DeviceMemory.alloc, size, step, next, Address.offset, and_self]

/-- Bytes written at the cursor reach the block that starts there only. -/
theorem write_push {a : Allocation} (base : a.base = cursor) (next offset : Nat)
    (data : List UInt8) :
    DeviceMemory.write ⟨m.live ++ [a], next⟩ cursor offset data =
      ⟨m.live ++ [a.write offset data.toArray], next⟩ := by
  have others : ∀ b ∈ m.live, b.base ≠ cursor := by
    intro b member same
    have below := laid.below b member
    rw [same] at below
    exact Nat.not_le.mpr (Nat.lt_add_of_pos_right (laid.positive b member)) below
  have kept : m.live.map (fun b => if b.base = cursor then b.write offset data.toArray else b) =
      m.live :=
    (List.map_congr_left fun b member => if_neg (others b member)).trans (List.map_id _)
  simp only [DeviceMemory.write, List.map_append, List.map_cons, List.map_nil, kept, if_pos base]

/-- A block that is made from data holds it. -/
theorem allocFrom {data : List UInt8} (fits : cursor + pitch data.length ≤ 2 ^ 64) :
    (m.allocFrom data).result = .ok ⟨cursor, data.length⟩ ∧
      (m.allocFrom data).state =
        ⟨m.live ++ [filled cursor data], Bounded.word (cursor + pitch data.length)⟩ := by
  obtain ⟨granted, state⟩ := laid.alloc fits
  rw [DeviceMemory.allocFrom, Outcome.andThen_of_ok _ granted, state]
  by_cases empty : data = []
  · subst empty
    exact ⟨rfl, by rw [filled_nil]; rfl⟩
  · have start : 0x10000 ≤ cursor := laid.start
    have whole := room_le_pitch data.length
    have long := le_room data.length
    have length : (padded data).length = nextMultiple data.length copyAlignment :=
      length_padded (by simp only [copyAlignment]; omega)
    have some : 0 < (padded data).length := by
      rw [length]
      exact Nat.lt_of_lt_of_le (List.length_pos_iff.mpr empty) (le_nextMultiple _ (by decide))
    have fitting : (padded data).length ≤ room data.length := by
      rw [length]
      exact Nat.le_max_left _ _
    have words : cursor + (padded data).length ≤ 2 ^ 64 := by omega
    have made := laid.push (show Allocation.range ⟨cursor, room data.length, fun _ => 0⟩ = _ from rfl)
    have resolved := made.resolve_base (List.mem_append_right _ (List.mem_singleton_self _))
      some fitting words
    have full : data.isEmpty = false := by simpa using empty
    simp only [full, Bool.false_eq_true, if_false, resolved]
    exact ⟨rfl, laid.write_push (by rfl) _ _ _⟩

end Laid

/-- What an upload changed: the bytes of the block that it resolved to. -/
theorem upload_eq_ok {m n : DeviceMemory} {ptr : Address} {data : List UInt8}
    (done : m.upload ptr data = .ok n) :
    (data = [] ∧ n = m) ∨ ∃ a offset, m.resolve ⟨ptr, data.length⟩ = .ok (a, offset) ∧
      offset % copyAlignment = 0 ∧ data.length % copyAlignment = 0 ∧
      n = m.write a.base offset data := by
  by_cases empty : data = []
  · subst empty
    exact .inl ⟨rfl, (Except.ok.inj done).symm⟩
  · have full : data.isEmpty = false := by simpa using empty
    simp only [upload, full, Bool.false_eq_true, if_false, Answer.bind_eq_ok] at done
    obtain ⟨⟨a, offset⟩, resolved, done⟩ := done
    split at done
    · simp at done
    · split at done
      · simp at done
      · rename_i aligned whole
        exact .inr ⟨a, offset, resolved, not_not.mp aligned, not_not.mp whole,
          (Except.ok.inj done).symm⟩

theorem ranges_write (m : DeviceMemory) (base : Address) (offset : Nat) (data : List UInt8) :
    (m.write base offset data).live.map Allocation.range = m.live.map Allocation.range := by
  rw [write, List.map_map]
  refine List.map_congr_left fun a _ => ?_
  simp only [Function.comp_apply]
  split <;> rfl

end DeviceMemory

end OperatorGraph
