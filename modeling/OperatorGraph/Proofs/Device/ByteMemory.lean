import OperatorGraph.Proofs.Device.Writes

set_option autoImplicit false

namespace OperatorGraph

namespace DeviceMemory

namespace History

/-- What the calls have written is what the live blocks hold. -/
theorem stores_of (calls : List Call) (fits : cursor calls ≤ 2 ^ 64)
    (addressed : ∀ call ∈ calls, call.Addressed) :
    (of calls).Stores (writes calls) (cursor calls) := by
  induction calls using List.reverseRecOn with
  | nil => exact stores_fresh
  | append_singleton calls call ih =>
    rw [cursor_append] at fits ⊢
    have before : cursor calls ≤ 2 ^ 64 := Nat.le_trans (Nat.le_add_right _ _) fits
    have stores := ih before fun other member => addressed other (by simp [member])
    rw [of_append, writes_append]
    exact stores.step (kept_of calls before).1 call (addressed call (by simp)) fits

theorem Kept.dvd_size {h : History} {cursor : Nat} (kept : h.Kept cursor) {a : Allocation}
    (member : a ∈ h.memory.live) : copyAlignment ∣ a.size := by
  obtain ⟨s, -, -, range⟩ := kept.granted_of_live member
  have size : a.size = room s.len := congrArg Span.len range
  rw [size]
  exact dvd_room s.len

section

variable {h : History} {written : List Write} {cursor : Nat}

/-- As blocks start at aligned addresses, an offset is aligned if its address is. -/
theorem Stores.dvd_offset (stores : h.Stores written cursor) {a : Allocation}
    (member : a ∈ h.memory.live) {x : Address} (above : a.base ≤ x) :
    copyAlignment ∣ x - a.base ↔ copyAlignment ∣ x := by
  have based := stores.based a member
  simp only [addressAlignment, copyAlignment, Address] at based above ⊢
  omega

/-- A copy that starts at a multiple and is rounded up ends in the block that holds its range. -/
theorem Kept.contains_copied (kept : h.Kept cursor) (fits : cursor ≤ 2 ^ 64) {a : Allocation}
    (member : a ∈ h.memory.live) {span : Span} (inside : a.Contains span)
    (aligned : copyAlignment ∣ span.ptr - a.base) :
    span.len ≤ alignUp span.len copyAlignment ∧
      a.Contains ⟨span.ptr, alignUp span.len copyAlignment⟩ := by
  have laid := kept.laid
  have below := laid.below a member
  have start : 0x10000 ≤ a.base := by
    obtain ⟨s, granted, -, range⟩ := kept.granted_of_live member
    have base : a.base = s.ptr := congrArg Span.ptr range
    rw [base]
    exact kept.above s granted
  have small : span.len + copyAlignment < 2 ^ 64 := by
    simp only [Allocation.Contains, copyAlignment, Address] at inside below start ⊢
    omega
  rw [alignUp_eq (by decide) small]
  have longer := le_nextMultiple span.len (show 0 < copyAlignment by decide)
  refine ⟨longer, inside.1, ?_⟩
  -- The room behind the offset is a number of whole units, so the next multiple does not pass it.
  have rest : span.len ≤ a.size - (span.ptr - a.base) := by
    simp only [Allocation.Contains, Address] at inside ⊢
    omega
  have units : copyAlignment ∣ a.size - (span.ptr - a.base) :=
    Nat.dvd_sub (kept.dvd_size member) aligned
  have most := nextMultiple_le span.len (show 0 < copyAlignment by decide) rest units
  have offset : span.ptr - a.base ≤ a.size := by
    simp only [Allocation.Contains, Address] at inside ⊢
    omega
  simp only [Allocation.Contains, Address] at inside most offset ⊢
  omega

/-- Bytes that are copied from a block are those last written to their addresses. -/
theorem Stores.take_read (stores : h.Stores written cursor) {a : Allocation}
    (member : a ∈ h.memory.live) {span : Span} (inside : a.Contains span) {copied : Nat}
    (longer : span.len ≤ copied) :
    (a.read (span.ptr - a.base) copied).take span.len =
      (List.range span.len).map fun i => lastByte written (span.ptr + i) := by
  rw [Allocation.read, ← List.map_take, List.take_range, Nat.min_eq_left longer]
  apply List.map_congr_left
  intro i within
  have before := List.mem_range.mp within
  have address : a.base + (span.ptr - a.base + i) = span.ptr + i := by
    simp only [Allocation.Contains, Address] at inside ⊢
    omega
  rw [← address]
  apply stores.holds a member
  simp only [Allocation.Contains, Address] at inside ⊢
  omega

theorem Stores.download (stores : h.Stores written cursor) (kept : h.Kept cursor)
    (fits : cursor ≤ 2 ^ 64) {a : Allocation} (member : a ∈ h.memory.live) {span : Span}
    (nonempty : 0 < span.len) (inside : a.Contains span) (aligned : copyAlignment ∣ span.ptr) :
    h.memory.download span =
      .ok ((a.read (span.ptr - a.base) (alignUp span.len copyAlignment)).take span.len) := by
  have words : span.ptr + span.len ≤ 2 ^ 64 :=
    Nat.le_trans (Nat.le_trans inside.2 (kept.laid.below a member)) fits
  have resolved := (kept.laid.resolve_eq_ok nonempty words (a := a)).mpr ⟨member, inside, rfl⟩
  have atMultiple := Nat.mod_eq_zero_of_dvd ((stores.dvd_offset member inside.1).mpr aligned)
  have some : span.len ≠ 0 := Nat.ne_of_gt nonempty
  rw [DeviceMemory.download, Answer.bind_eq_ok]
  exact ⟨(a, span.ptr - a.base), resolved, by simp [some, atMultiple]⟩

end

end History

/-- A download reaches a block that holds its range. -/
theorem Ordered.of_download {m : DeviceMemory} (ordered : m.Ordered) {span : Span}
    (nonempty : 0 < span.len) (words : span.ptr + span.len ≤ 2 ^ 64) {bytes : List UInt8}
    (done : m.download span = .ok bytes) :
    ∃ a ∈ m.live, a.Contains span ∧ copyAlignment ∣ span.ptr - a.base := by
  rw [download, Answer.bind_eq_ok] at done
  obtain ⟨⟨a, offset⟩, resolved, done⟩ := done
  obtain ⟨member, inside, rfl⟩ := (ordered.resolve_eq_ok nonempty words).mp resolved
  have some : span.len ≠ 0 := Nat.ne_of_gt nonempty
  simp only [some, if_false] at done
  split at done
  · simp at done
  · rename_i aligned
    exact ⟨a, member, inside, Nat.dvd_of_mod_eq_zero (Decidable.not_not.mp aligned)⟩

/-- A download answers if its range lies in one block and starts at a multiple, and then with the
bytes that were written last. -/
theorem History.Stores.download_eq_ok {h : History} {written : List Write} {cursor : Nat}
    (stores : h.Stores written cursor) (kept : h.Kept cursor) (fits : cursor ≤ 2 ^ 64)
    {span : Span} (nonempty : 0 < span.len) (words : span.ptr + span.len ≤ 2 ^ 64)
    {answer : List UInt8} :
    h.memory.download span = .ok answer ↔
      (∃ a ∈ h.memory.live, a.Contains span) ∧ copyAlignment ∣ span.ptr ∧
        answer = (List.range span.len).map fun i => lastByte written (span.ptr + i) := by
  have returned {a : Allocation} (member : a ∈ h.memory.live) (inside : a.Contains span)
      (atMultiple : copyAlignment ∣ span.ptr) : h.memory.download span =
        .ok ((List.range span.len).map fun i => lastByte written (span.ptr + i)) := by
    have offset := (stores.dvd_offset member inside.1).mpr atMultiple
    have longer := (kept.contains_copied fits member inside offset).1
    rw [stores.download kept fits member nonempty inside atMultiple,
      stores.take_read member inside longer]
  constructor
  · intro done
    obtain ⟨a, member, inside, offset⟩ := kept.laid.of_download nonempty words done
    have atMultiple := (stores.dvd_offset member inside.1).mp offset
    rw [returned member inside atMultiple] at done
    exact ⟨⟨a, member, inside⟩, atMultiple, (Except.ok.inj done).symm⟩
  · rintro ⟨⟨a, member, inside⟩, atMultiple, rfl⟩
    exact returned member inside atMultiple

/-- A new block is filled by one copy, whose length is a number of whole units. -/
theorem Laid.fills {m : DeviceMemory} {cursor : Nat} (laid : m.Laid cursor) {data : List UInt8}
    (fits : cursor + pitch data.length ≤ 2 ^ 64) :
    ∃ a ∈ (m.alloc data.length).state.live, a.Contains ⟨a.base, (padded data).length⟩ ∧
      (m.allocFrom data).result = .ok ⟨a.base, data.length⟩ ∧
      (m.allocFrom data).state = (m.alloc data.length).state.write a.base 0 (padded data) := by
  obtain ⟨granted, state⟩ := laid.alloc fits
  obtain ⟨filled, final⟩ := laid.allocFrom fits
  have start : 0x10000 ≤ cursor := laid.start
  have long := le_room data.length
  have whole := room_le_pitch data.length
  have length : (padded data).length = nextMultiple data.length copyAlignment :=
    length_padded (by simp only [copyAlignment]; omega)
  refine ⟨⟨cursor, room data.length, fun _ => 0⟩, ?_, ⟨Nat.le_refl _, ?_⟩, filled, ?_⟩
  · rw [state]
    exact List.mem_append_right _ (List.mem_singleton_self _)
  · apply Nat.add_le_add_left
    rw [length]
    exact Nat.le_max_left _ _
  · rw [final, state]
    exact (laid.write_push rfl _ 0 (padded data)).symm

/-- Device memory after some calls, as bytes at addresses. -/
structure ByteMemory (calls : List Call) (h : History) : Prop where
  bytes : ∀ a ∈ h.memory.live, ∀ i < a.size, a.contents i = lastByte (writes calls) (a.base + i)
  /-- A range is read if it lies in one live block and starts at a multiple, and then byte by byte
  as it was written last. -/
  downloads : ∀ span : Span, 0 < span.len → span.ptr + span.len ≤ 2 ^ 64 → ∀ answer,
    h.memory.download span = .ok answer ↔
      (∃ a ∈ h.memory.live, a.Contains span) ∧ copyAlignment ∣ span.ptr ∧
        answer = (List.range span.len).map fun i => lastByte (writes calls) (span.ptr + i)
  /-- The copy behind a download, with its length rounded up, stays in the block. -/
  reads : ∀ a ∈ h.memory.live, ∀ span : Span, 0 < span.len → a.Contains span →
    copyAlignment ∣ span.ptr → a.Contains ⟨span.ptr, alignUp span.len copyAlignment⟩ ∧
      h.memory.download span =
        .ok ((a.read (span.ptr - a.base) (alignUp span.len copyAlignment)).take span.len)
  /-- An upload is accepted if its whole range lies in one live block, is aligned and consists of
  whole units, and then overwrites just this range. -/
  uploads : ∀ ptr data, data ≠ [] → ptr + data.length ≤ 2 ^ 64 → ∀ m,
    h.memory.upload ptr data = .ok m ↔ ∃ a ∈ h.memory.live, a.Contains ⟨ptr, data.length⟩ ∧
      copyAlignment ∣ ptr ∧ copyAlignment ∣ data.length ∧
        m = h.memory.write a.base (ptr - a.base) data
  /-- An upload that is refused leaves the memory as it was. -/
  refused : ∀ ptr data refusal, h.memory.upload ptr data = .error refusal →
    h.next (.upload ptr data) = h
  /-- The copy that fills a new block, with zeros up to a whole unit, stays in the block. -/
  fills : ∀ data, data ≠ [] → cursor calls + pitch data.length ≤ 2 ^ 64 →
    let made := (h.memory.alloc data.length).state
    ∃ a ∈ made.live, a.Contains ⟨a.base, (padded data).length⟩ ∧
      (h.memory.allocFrom data).result = .ok ⟨a.base, data.length⟩ ∧
      (h.memory.allocFrom data).state = made.write a.base 0 (padded data)

/-- Device memory behaves as bytes, after any calls that do not use up the address space. -/
theorem byte_memory (calls : List Call) (fits : cursor calls ≤ 2 ^ 64)
    (addressed : ∀ call ∈ calls, call.Addressed) : ByteMemory calls (.of calls) := by
  have kept := (History.kept_of calls fits).1
  have stores := History.stores_of calls fits addressed
  constructor
  case bytes => exact stores.holds
  case downloads =>
    intro span nonempty words answer
    exact stores.download_eq_ok kept fits nonempty words
  case reads =>
    intro a member span nonempty inside atMultiple
    have offset := (stores.dvd_offset member inside.1).mpr atMultiple
    exact ⟨(kept.contains_copied fits member inside offset).2,
      stores.download kept fits member nonempty inside atMultiple⟩
  case uploads =>
    intro ptr data full words m
    rw [kept.laid.upload_eq_ok full words]
    apply exists_congr
    intro a
    apply and_congr_right
    intro member
    apply and_congr_right
    intro inside
    rw [stores.dvd_offset member inside.1]
  case refused =>
    intro ptr data refusal failed
    simp only [History.next, failed]
  case fills =>
    intro data full more
    exact kept.laid.fills more

/-- Three bytes in a block of their own, four in the middle of another one, and two uploads that are
refused, since one starts between two multiples and one ends there. -/
def scattered : List Call :=
  [.allocFrom [1, 2, 3], .alloc 10, .upload 0x10104 [7, 7, 7, 7], .upload 0x10102 [9, 9, 9, 9],
    .upload 0x10108 [8, 8, 8], .free 0x10000]

/-- Nine bytes are read, although twelve are copied. -/
theorem scattered_downloaded : cursor scattered ≤ 2 ^ 64 ∧
    (∀ call ∈ scattered, call.Addressed) ∧ ByteMemory scattered (.of scattered) ∧
    (History.of scattered).memory.download ⟨0x10100, 9⟩ = .ok [0, 0, 0, 0, 7, 7, 7, 7, 0] := by
  have addressed : ∀ call ∈ scattered, call.Addressed := by
    simp [scattered, Call.Addressed]
  have memory := byte_memory scattered (by decide) addressed
  refine ⟨by decide, addressed, memory, ?_⟩
  refine (memory.downloads ⟨0x10100, 9⟩ (by decide) (by decide) _).mpr ⟨?_, by decide, ?_⟩
  · decide +kernel
  · decide +kernel

end DeviceMemory

end OperatorGraph
