import OperatorGraph.Proofs.Device.AddressTable

set_option autoImplicit false

namespace OperatorGraph

namespace DeviceMemory

/-- A run of bytes that is written from an address on. -/
structure Write where
  ptr : Address
  data : List UInt8

namespace Write

/-- The byte that a run puts at an address. -/
def byte? (w : Write) (x : Address) : Option UInt8 :=
  if w.ptr ≤ x then w.data[x - w.ptr]? else none

theorem byte?_of_outside {w : Write} {x : Address}
    (outside : x < w.ptr ∨ w.ptr + w.data.length ≤ x) : w.byte? x = none := by
  unfold byte?
  split
  · rename_i above
    apply List.getElem?_eq_none
    simp only [Address] at outside above ⊢
    omega
  · rfl

@[simp] theorem byte?_add (ptr : Address) (data : List UInt8) (i : Nat) :
    (⟨ptr, data⟩ : Write).byte? (ptr + i) = data[i]? := by
  simp only [byte?, Nat.le_add_right, if_true, Nat.add_sub_cancel_left]

end Write

/-- The byte that was last written to an address, zero if none was. -/
def lastByte (writes : List Write) (x : Address) : UInt8 :=
  writes.foldl (fun held w => (w.byte? x).getD held) 0

theorem lastByte_append (writes : List Write) (w : Write) (x : Address) :
    lastByte (writes ++ [w]) x = (w.byte? x).getD (lastByte writes x) := by
  simp only [lastByte, List.foldl_append, List.foldl_cons, List.foldl_nil]

theorem lastByte_append_of_outside {writes : List Write} {w : Write} {x : Address}
    (outside : x < w.ptr ∨ w.ptr + w.data.length ≤ x) :
    lastByte (writes ++ [w]) x = lastByte writes x := by
  rw [lastByte_append, Write.byte?_of_outside outside, Option.getD_none]

theorem lastByte_of_unwritten {writes : List Write} {x : Address}
    (unwritten : ∀ w ∈ writes, w.byte? x = none) : lastByte writes x = 0 := by
  induction writes using List.reverseRecOn with
  | nil => rfl
  | append_singleton rest w ih =>
    have last : w.byte? x = none := unwritten w (by simp)
    rw [lastByte_append, last, Option.getD_none]
    exact ih fun other member => unwritten other (by simp [member])

namespace History

/-- The run that a call writes. A call that is refused writes nothing. -/
def write? (h : History) : Call → Option Write
  | .alloc _ | .free _ => none
  | .allocFrom data => (h.memory.allocFrom data).result.toOption.map fun span => ⟨span.ptr, data⟩
  | .upload ptr data => (h.memory.upload ptr data).toOption.map fun _ => ⟨ptr, data⟩

def writesFrom (h : History) : List Call → List Write
  | [] => []
  | call :: rest => (h.write? call).toList ++ (h.next call).writesFrom rest

theorem writesFrom_append (h : History) (calls : List Call) (call : Call) :
    h.writesFrom (calls ++ [call]) =
      h.writesFrom calls ++ ((calls.foldl next h).write? call).toList := by
  induction calls generalizing h with
  | nil => simp [writesFrom]
  | cons first rest ih => simp only [List.cons_append, writesFrom, ih, List.append_assoc,
      List.foldl_cons]

end History

/-- The runs that some calls on an empty memory write, in order. -/
def writes (calls : List Call) : List Write :=
  History.fresh.writesFrom calls

theorem writes_append (calls : List Call) (call : Call) :
    writes (calls ++ [call]) = writes calls ++ ((History.of calls).write? call).toList :=
  History.fresh.writesFrom_append calls call

/-- What is uploaded does not run over the end of the address space. -/
def Call.Addressed : Call → Prop
  | .upload ptr data => ptr + data.length ≤ 2 ^ 64
  | .alloc _ | .allocFrom _ | .free _ => True

theorem contents_write (a : Allocation) (offset : Nat) (data : List UInt8) (i : Nat) :
    (a.write offset data.toArray).contents i =
      ((⟨a.base + offset, data⟩ : Write).byte? (a.base + i)).getD (a.contents i) := by
  simp only [Allocation.write, Write.byte?, List.size_toArray, Nat.add_le_add_iff_left,
    Nat.add_sub_add_left]
  by_cases above : offset ≤ i
  · by_cases inside : i - offset < data.length
    · simp [above, inside]
    · simp [above, inside]
  · simp [above]

theorem contents_filled (start : Nat) (data : List UInt8) (i : Nat) :
    (filled start data).contents i = (data[i]?).getD 0 := by
  have written := contents_write ⟨start, room data.length, fun _ => 0⟩ 0 (padded data) i
  rw [Nat.add_zero, Write.byte?_add, padded] at written
  rw [filled, padded, written]
  by_cases inside : i < data.length
  · rw [List.getElem?_append_left inside]
  · have beyond : data.length ≤ i := Nat.le_of_not_lt inside
    rw [List.getElem?_append_right beyond, List.getElem?_eq_none beyond, List.getElem?_replicate]
    split <;> rfl

theorem dvd_pitch (len : Nat) : addressAlignment ∣ pitch len :=
  dvd_nextMultiple _

theorem dvd_room (len : Nat) : copyAlignment ∣ room len := by
  unfold room
  rcases Nat.le_total (nextMultiple len copyAlignment) copyAlignment with below | above
  · rw [Nat.max_eq_right below]
  · rw [Nat.max_eq_left above]
    exact dvd_nextMultiple len

/-- An upload reaches a block that holds its whole range, if offset and length are aligned. -/
theorem Ordered.upload_eq_ok {m n : DeviceMemory} (ordered : m.Ordered) {ptr : Address}
    {data : List UInt8} (full : data ≠ []) (words : ptr + data.length ≤ 2 ^ 64) :
    m.upload ptr data = .ok n ↔ ∃ a ∈ m.live, a.Contains ⟨ptr, data.length⟩ ∧
      copyAlignment ∣ ptr - a.base ∧ copyAlignment ∣ data.length ∧
      n = m.write a.base (ptr - a.base) data := by
  have nonempty : 0 < data.length := List.length_pos_iff.mpr full
  have unmade : data.isEmpty = false := by simpa using full
  have resolves (a : Allocation) (offset : Nat) : m.resolve ⟨ptr, data.length⟩ = .ok (a, offset) ↔
      a ∈ m.live ∧ a.Contains ⟨ptr, data.length⟩ ∧ offset = ptr - a.base :=
    ordered.resolve_eq_ok nonempty words
  constructor
  · intro done
    rcases DeviceMemory.upload_eq_ok done with
      ⟨empty, -⟩ | ⟨a, offset, resolved, aligned, whole, same⟩
    · exact absurd empty full
    · obtain ⟨member, inside, rfl⟩ := (resolves a offset).mp resolved
      exact ⟨a, member, inside, Nat.dvd_of_mod_eq_zero aligned, Nat.dvd_of_mod_eq_zero whole, same⟩
  · rintro ⟨a, member, inside, aligned, whole, rfl⟩
    have resolved := (resolves a (ptr - a.base)).mpr ⟨member, inside, rfl⟩
    have atMultiple := Nat.mod_eq_zero_of_dvd aligned
    have ofMultiple := Nat.mod_eq_zero_of_dvd whole
    simp only [DeviceMemory.upload, unmade, Bool.false_eq_true, if_false, Answer.bind_eq_ok]
    exact ⟨(a, ptr - a.base), resolved, by simp [atMultiple, ofMultiple]⟩

namespace History

/-- The live blocks hold what was written last, and nothing was written from the cursor on. -/
structure Stores (h : History) (written : List Write) (cursor : Nat) : Prop where
  multiple : addressAlignment ∣ cursor
  based : ∀ a ∈ h.memory.live, addressAlignment ∣ a.base
  unwritten : ∀ w ∈ written, ∀ x, cursor ≤ x → w.byte? x = none
  holds : ∀ a ∈ h.memory.live, ∀ i < a.size, a.contents i = lastByte written (a.base + i)

theorem stores_fresh : fresh.Stores [] (cursor []) :=
  ⟨by decide, by simp [fresh, empty], by simp, by simp [fresh, empty]⟩

namespace Stores

variable {h : History} {written : List Write} {cursor : Nat} (stores : h.Stores written cursor)
include stores

theorem lastByte_beyond (x : Address) (beyond : cursor ≤ x) : lastByte written x = 0 :=
  lastByte_of_unwritten fun w member => stores.unwritten w member x beyond

theorem unwritten_append {w : Write} {limit : Nat} (ends : w.ptr + w.data.length ≤ limit)
    (more : cursor ≤ limit) : ∀ v ∈ written ++ [w], ∀ x, limit ≤ x → v.byte? x = none := by
  intro v member x beyond
  rcases List.mem_append.mp member with old | new
  · exact stores.unwritten v old x (Nat.le_trans more beyond)
  · rw [List.mem_singleton.mp new]
    exact Write.byte?_of_outside (.inr (Nat.le_trans ends beyond))

/-- A block at the cursor. What it holds is what was written there, and blocks before the cursor see
nothing of it. -/
theorem push (below : ∀ a ∈ h.memory.live, a.base + a.size ≤ cursor) {made : Allocation}
    (base : made.base = cursor) {later : List Write} {len : Nat} (granted : List Span)
    (unwritten : ∀ w ∈ later, ∀ x, cursor + DeviceMemory.pitch len ≤ x → w.byte? x = none)
    (before : ∀ x < cursor, lastByte later x = lastByte written x)
    (holds : ∀ i, made.contents i = lastByte later (cursor + i)) :
    Stores ⟨⟨h.memory.live ++ [made], Bounded.word (cursor + DeviceMemory.pitch len)⟩, granted,
      h.freed⟩ later (cursor + DeviceMemory.pitch len) := by
  refine ⟨Nat.dvd_add stores.multiple (dvd_pitch len), ?_, unwritten, ?_⟩
  · intro a member
    rcases List.mem_append.mp member with old | new
    · exact stores.based a old
    · rw [List.mem_singleton.mp new, base]
      exact stores.multiple
  · intro a member i inside
    rcases List.mem_append.mp member with old | new
    · have within := below a old
      rw [stores.holds a old i inside]
      exact (before _ (by simp only [Address] at within ⊢; omega)).symm
    · rw [List.mem_singleton.mp new, base]
      exact holds i

/-- A block at the cursor that holds zeros. -/
theorem grow (below : ∀ a ∈ h.memory.live, a.base + a.size ≤ cursor) (len : Nat)
    (granted : List Span) :
    Stores ⟨⟨h.memory.live ++ [⟨cursor, room len, fun _ => 0⟩],
      Bounded.word (cursor + DeviceMemory.pitch len)⟩, granted, h.freed⟩ written
        (cursor + DeviceMemory.pitch len) := by
  apply stores.push below rfl granted
  · intro w member x beyond
    exact stores.unwritten w member x (Nat.le_trans (Nat.le_add_right _ _) beyond)
  · intro x _
    rfl
  · intro i
    exact (stores.lastByte_beyond _ (Nat.le_add_right cursor i)).symm

/-- A block at the cursor that holds data. -/
theorem fill (below : ∀ a ∈ h.memory.live, a.base + a.size ≤ cursor) (data : List UInt8)
    (granted : List Span) :
    Stores ⟨⟨h.memory.live ++ [filled cursor data],
      Bounded.word (cursor + DeviceMemory.pitch data.length)⟩, granted, h.freed⟩
        (written ++ [⟨cursor, data⟩]) (cursor + DeviceMemory.pitch data.length) := by
  have fits : data.length ≤ DeviceMemory.pitch data.length :=
    Nat.le_trans (le_room _) (room_le_pitch _)
  apply stores.push below rfl granted
  · exact stores.unwritten_append (Nat.add_le_add_left fits _) (Nat.le_add_right _ _)
  · intro x before
    exact lastByte_append_of_outside (.inl before)
  · intro i
    rw [contents_filled, lastByte_append, Write.byte?_add,
      stores.lastByte_beyond _ (Nat.le_add_right cursor i)]

/-- Overwriting part of a block. Blocks share no address, so that the others see nothing of it. -/
theorem overwrite (laid : h.memory.Laid cursor) {a : Allocation} (member : a ∈ h.memory.live)
    {offset : Nat} {data : List UInt8} (inside : offset + data.length ≤ a.size) :
    Stores { h with memory := h.memory.write a.base offset data }
      (written ++ [⟨a.base + offset, data⟩]) cursor := by
  have before := laid.below a member
  refine ⟨stores.multiple, ?_, ?_, ?_⟩
  · intro b changed
    obtain ⟨c, old, rfl⟩ := List.mem_map.mp changed
    have based := stores.based c old
    split
    · exact based
    · exact based
  · apply stores.unwritten_append ?_ (Nat.le_refl _)
    simp only [Address] at before ⊢
    omega
  · intro b changed i within
    obtain ⟨c, old, rfl⟩ := List.mem_map.mp changed
    split at within
    · rename_i same
      obtain rfl : c = a := laid.base_unique old member same
      rw [if_pos rfl, contents_write, lastByte_append]
      exact congrArg _ (stores.holds c old i within)
    · rename_i different
      have outside : c.base + i < a.base + offset ∨ a.base + offset + data.length ≤ c.base + i := by
        -- An address in both blocks would make them one.
        by_contra reached
        apply different
        have heldC : c.Holds (c.base + i) := ⟨Nat.le_add_right _ _, Nat.add_lt_add_left within _⟩
        have heldA : a.Holds (c.base + i) := by
          simp only [Allocation.Holds, Address] at reached ⊢
          omega
        rw [laid.holds_unique old member heldC heldA]
      rw [if_neg different, lastByte_append_of_outside outside]
      exact stores.holds c old i within

theorem upload (laid : h.memory.Laid cursor) {ptr : Address} {data : List UInt8}
    {m : DeviceMemory} (words : ptr + data.length ≤ 2 ^ 64)
    (done : h.memory.upload ptr data = .ok m) :
    Stores { h with memory := m } (written ++ [⟨ptr, data⟩]) cursor := by
  by_cases empty : data = []
  · subst empty
    obtain rfl : h.memory = m := Except.ok.inj done
    have nothing (x : Address) : (⟨ptr, []⟩ : Write).byte? x = none := by
      simp [Write.byte?]
    refine ⟨stores.multiple, stores.based, ?_, ?_⟩
    · intro w listed x beyond
      rcases List.mem_append.mp listed with old | new
      · exact stores.unwritten w old x beyond
      · rw [List.mem_singleton.mp new]
        exact nothing x
    · intro a member i inside
      rw [lastByte_append, nothing, Option.getD_none]
      exact stores.holds a member i inside
  · obtain ⟨a, member, inside, -, -, rfl⟩ := (laid.upload_eq_ok empty words).mp done
    have stop := inside.2
    have start : a.base + (ptr - a.base) = ptr := Nat.add_sub_cancel' inside.1
    have fits : ptr - a.base + data.length ≤ a.size := by
      simp only [Address] at stop start ⊢
      omega
    have overwritten := stores.overwrite laid member fits
    rwa [start] at overwritten

/-- What a call leaves of the bytes. -/
theorem step (kept : h.Kept cursor) (call : Call) (addressed : call.Addressed)
    (fits : cursor + call.pitch ≤ 2 ^ 64) :
    (h.next call).Stores (written ++ (h.write? call).toList) (cursor + call.pitch) := by
  have laid := kept.laid
  cases call with
  | alloc len =>
    obtain ⟨granted, state⟩ := laid.alloc fits
    simp only [History.next, grant, granted, state, write?, Option.toList_none, List.append_nil]
    exact stores.grow laid.below len _
  | allocFrom data =>
    obtain ⟨granted, state⟩ := laid.allocFrom fits
    simp only [History.next, grant, granted, state, write?]
    exact stores.fill laid.below data _
  | upload ptr data =>
    cases done : h.memory.upload ptr data with
    | error refusal =>
      simpa only [History.next, write?, done, Call.pitch_upload, Nat.add_zero, Except.toOption,
        Option.map_none, Option.toList_none, List.append_nil] using stores
    | ok m =>
      simp only [History.next, write?, done, Call.pitch_upload, Nat.add_zero, Except.toOption,
        Option.map_some, Option.toList_some]
      exact stores.upload laid addressed done
  | free ptr =>
    cases done : h.memory.free ptr with
    | error refusal =>
      simpa only [History.next, write?, done, Call.pitch_free, Nat.add_zero, Option.toList_none,
        List.append_nil] using stores
    | ok m =>
      simp only [History.next, write?, done, Call.pitch_free, Nat.add_zero, Option.toList_none,
        List.append_nil]
      have old {a : Allocation} (member : a ∈ m.live) : a ∈ h.memory.live :=
        ((mem_live_of_free done).mp member).1
      exact ⟨stores.multiple, fun a member => stores.based a (old member), stores.unwritten,
        fun a member => stores.holds a (old member)⟩

end Stores

end History

end DeviceMemory

end OperatorGraph
