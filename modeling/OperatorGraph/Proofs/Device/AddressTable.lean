import OperatorGraph.Proofs.Device.Granting

set_option autoImplicit false

namespace OperatorGraph

namespace DeviceMemory

/-- A call that makes, fills or releases blocks. -/
inductive Call where
  | alloc (len : Nat)
  | allocFrom (data : List UInt8)
  | upload (ptr : Address) (data : List UInt8)
  | free (ptr : Address)

namespace Call

/-- The bytes that a call asks a new block for. -/
def request? : Call → Option Nat
  | alloc len => some len
  | allocFrom data => some data.length
  | upload _ _ | free _ => none

/-- How far a call moves the cursor. -/
def pitch (call : Call) : Nat :=
  (call.request?.map DeviceMemory.pitch).getD 0

@[simp] theorem pitch_upload (ptr : Address) (data : List UInt8) : (upload ptr data).pitch = 0 :=
  rfl

@[simp] theorem pitch_free (ptr : Address) : (free ptr).pitch = 0 :=
  rfl

end Call

/-- Where the next block starts after some calls, as a number that does not wrap around. -/
def cursor (calls : List Call) : Nat :=
  empty.next + (calls.map Call.pitch).sum

/-- A memory, the ranges that it granted so far and the pointers that it took back. -/
structure History where
  memory : DeviceMemory
  granted : List Span
  freed : List Address

namespace History

def fresh : History :=
  ⟨.empty, [], []⟩

def grant (h : History) (made : Outcome DeviceMemory DeviceError Span) : History :=
  match made.result with
  | .ok span => ⟨made.state, h.granted ++ [span], h.freed⟩
  | .error _ => { h with memory := made.state }

def next (h : History) : Call → History
  | .alloc len => h.grant (h.memory.alloc len)
  | .allocFrom data => h.grant (h.memory.allocFrom data)
  | .upload ptr data =>
    match h.memory.upload ptr data with
    | .ok memory => { h with memory }
    | .error _ => h
  | .free ptr =>
    match h.memory.free ptr with
    | .ok memory => { h with memory, freed := h.freed ++ [ptr] }
    | .error _ => h

/-- The history of some calls on an empty memory. -/
def of (calls : List Call) : History :=
  calls.foldl next fresh

/-- The buffer that holds a granted range. -/
def buffer (s : Span) : Span :=
  ⟨s.ptr, room s.len⟩

/-- Grants follow one another below the cursor, and the live blocks are those that were granted and
not taken back. -/
structure Kept (h : History) (cursor : Nat) : Prop where
  start : empty.next ≤ cursor
  next : h.memory.next = Bounded.word cursor
  above : ∀ s ∈ h.granted, empty.next ≤ s.ptr
  below : ∀ s ∈ h.granted, s.ptr + room s.len ≤ cursor
  apart : h.granted.Pairwise fun s t => s.ptr + room s.len ≤ t.ptr
  freed : ∀ ptr ∈ h.freed, ∃ s ∈ h.granted, s.ptr = ptr
  live : h.memory.live.map Allocation.range =
    (h.granted.filter (·.ptr ∉ h.freed)).map buffer

theorem kept_fresh : fresh.Kept (cursor []) :=
  ⟨Nat.le_refl _, rfl, by simp [fresh], by simp [fresh], .nil, by simp [fresh], rfl⟩

namespace Kept

variable {h : History} {cursor : Nat} (kept : h.Kept cursor)
include kept

theorem granted_of_live {a : Allocation} (member : a ∈ h.memory.live) :
    ∃ s ∈ h.granted, s.ptr ∉ h.freed ∧ a.range = buffer s := by
  have listed : a.range ∈ h.memory.live.map Allocation.range := List.mem_map_of_mem member
  rw [kept.live] at listed
  obtain ⟨s, member, same⟩ := List.mem_map.mp listed
  obtain ⟨granted, unfreed⟩ := List.mem_filter.mp member
  exact ⟨s, granted, by simpa using unfreed, same.symm⟩

theorem laid : h.memory.Laid cursor := by
  have range {a : Allocation} {s : Span} (same : a.range = buffer s) :
      a.base = s.ptr ∧ a.size = room s.len :=
    ⟨congrArg Span.ptr same, congrArg Span.len same⟩
  refine ⟨⟨fun a member => ?_, fun a member => ?_, ?_⟩, kept.start, fun a member => ?_, kept.next⟩
  · obtain ⟨s, granted, -, same⟩ := kept.granted_of_live member
    rw [(range same).1]
    exact Nat.lt_of_lt_of_le (by decide) (kept.above s granted)
  · obtain ⟨s, -, -, same⟩ := kept.granted_of_live member
    rw [(range same).2]
    exact room_pos _
  · have ranges : (h.memory.live.map Allocation.range).Pairwise
        fun s t => s.ptr + s.len ≤ t.ptr := by
      rw [kept.live]
      exact List.pairwise_map.mpr (kept.apart.filter _)
    exact List.pairwise_map.mp ranges
  · obtain ⟨s, granted, -, same⟩ := kept.granted_of_live member
    rw [(range same).1, (range same).2]
    exact kept.below s granted

/-- A block made at the cursor. -/
theorem push {a : Allocation} {len : Nat} (range : a.range = ⟨cursor, room len⟩) :
    Kept ⟨⟨h.memory.live ++ [a], Bounded.word (cursor + DeviceMemory.pitch len)⟩,
      h.granted ++ [⟨cursor, len⟩], h.freed⟩ (cursor + DeviceMemory.pitch len) := by
  have unused : cursor ∉ h.freed := by
    intro member
    obtain ⟨s, granted, same⟩ := kept.freed cursor member
    have below := kept.below s granted
    rw [same] at below
    exact Nat.not_le.mpr (Nat.lt_add_of_pos_right (room_pos s.len)) below
  refine ⟨Nat.le_trans kept.start (Nat.le_add_right _ _), rfl, fun s member => ?_,
    fun s member => ?_, ?_, fun ptr member => ?_, ?_⟩
  · rcases List.mem_append.mp member with old | new
    · exact kept.above s old
    · rw [List.mem_singleton.mp new]
      exact kept.start
  · rcases List.mem_append.mp member with old | new
    · exact Nat.le_trans (kept.below s old) (Nat.le_add_right _ _)
    · rw [List.mem_singleton.mp new]
      exact Nat.add_le_add_left (room_le_pitch len) _
  · refine List.pairwise_append.mpr ⟨kept.apart, List.pairwise_singleton _ _, fun s old t new => ?_⟩
    rw [List.mem_singleton.mp new]
    exact kept.below s old
  · obtain ⟨s, granted, same⟩ := kept.freed ptr member
    exact ⟨s, List.mem_append_left _ granted, same⟩
  · simp only [List.map_append, kept.live, List.filter_append, List.map_cons, range, List.map_nil,
      List.filter_cons, unused, not_false_eq_true, decide_true, if_true, List.filter_nil, buffer]

theorem free {ptr : Address} {m : DeviceMemory} (done : h.memory.free ptr = .ok m) :
    Kept { h with memory := m, freed := h.freed ++ [ptr] } cursor := by
  obtain ⟨⟨a, member, based⟩, rfl⟩ := free_eq_ok.mp done
  refine ⟨kept.start, kept.next, kept.above, kept.below, kept.apart, fun other freed => ?_, ?_⟩
  · rcases List.mem_append.mp freed with old | new
    · exact kept.freed other old
    · obtain ⟨s, granted, -, same⟩ := kept.granted_of_live member
      exact ⟨s, granted, by
        rw [List.mem_singleton.mp new, ← based]
        exact (congrArg Span.ptr same).symm⟩
  · have ranges : (h.memory.live.filter (·.base ≠ ptr)).map Allocation.range =
        (h.memory.live.map Allocation.range).filter (·.ptr ≠ ptr) := by
      rw [List.filter_map]
      rfl
    rw [ranges, kept.live, List.filter_map, List.filter_filter]
    congr 1
    refine List.filter_congr fun s _ => Bool.eq_iff_iff.mpr ?_
    simp only [Function.comp_apply, Bool.and_eq_true, decide_eq_true_eq, List.mem_append,
      List.mem_singleton, not_or]
    exact and_comm

theorem upload {ptr : Address} {data : List UInt8} {m : DeviceMemory}
    (done : h.memory.upload ptr data = .ok m) : Kept { h with memory := m } cursor := by
  rcases upload_eq_ok done with ⟨-, rfl⟩ | ⟨a, offset, -, -, -, rfl⟩
  · exact kept
  · exact { kept with live := (ranges_write _ _ _ _).trans kept.live }

/-- What a call keeps, as long as the cursor does not run over the end of the address space. -/
theorem step (call : Call) (fits : cursor + call.pitch ≤ 2 ^ 64) :
    (h.next call).Kept (cursor + call.pitch) := by
  cases call with
  | alloc len =>
    obtain ⟨granted, state⟩ := kept.laid.alloc fits
    simp only [History.next, grant, granted, state]
    exact kept.push rfl
  | allocFrom data =>
    obtain ⟨granted, state⟩ := kept.laid.allocFrom fits
    simp only [History.next, grant, granted, state]
    exact kept.push rfl
  | upload ptr data =>
    cases done : h.memory.upload ptr data with
    | error => simpa only [History.next, done, Call.pitch_upload, Nat.add_zero] using kept
    | ok m => simpa only [History.next, done, Call.pitch_upload, Nat.add_zero] using kept.upload done
  | free ptr =>
    cases done : h.memory.free ptr with
    | error => simpa only [History.next, done, Call.pitch_free, Nat.add_zero] using kept
    | ok m => simpa only [History.next, done, Call.pitch_free, Nat.add_zero] using kept.free done

/-- A request for a block is granted, with the length that it asks for. -/
theorem granted_next (call : Call) (fits : cursor + call.pitch ≤ 2 ^ 64) :
    (h.next call).granted.map Span.len = h.granted.map Span.len ++ call.request?.toList := by
  cases call with
  | alloc len =>
    obtain ⟨granted, -⟩ := kept.laid.alloc fits
    simp [History.next, grant, granted, Call.request?]
  | allocFrom data =>
    obtain ⟨granted, -⟩ := kept.laid.allocFrom fits
    simp [History.next, grant, granted, Call.request?]
  | upload ptr data =>
    cases done : h.memory.upload ptr data <;> simp [History.next, done, Call.request?]
  | free ptr =>
    cases done : h.memory.free ptr <;> simp [History.next, done, Call.request?]

end Kept

theorem of_append (calls : List Call) (call : Call) : of (calls ++ [call]) = (of calls).next call :=
  List.foldl_concat ..

theorem cursor_append (calls : List Call) (call : Call) :
    cursor (calls ++ [call]) = cursor calls + call.pitch := by
  simp [cursor, Nat.add_assoc]

theorem kept_of (calls : List Call) (fits : cursor calls ≤ 2 ^ 64) :
    (of calls).Kept (cursor calls) ∧
      (of calls).granted.map Span.len = calls.filterMap Call.request? := by
  induction calls using List.reverseRecOn with
  | nil => exact ⟨kept_fresh, rfl⟩
  | append_singleton calls call ih =>
    rw [cursor_append] at fits ⊢
    obtain ⟨kept, lengths⟩ := ih (Nat.le_trans (Nat.le_add_right _ _) fits)
    rw [of_append]
    refine ⟨kept.step call fits, ?_⟩
    rw [kept.granted_next call fits, lengths, List.filterMap_append]
    cases asked : call.request? <;> simp [asked]

theorem granted_stays (h : History) (calls : List Call) :
    h.granted ⊆ (calls.foldl next h).granted ∧ h.freed ⊆ (calls.foldl next h).freed := by
  induction calls generalizing h with
  | nil => exact ⟨List.Subset.refl _, List.Subset.refl _⟩
  | cons call rest ih =>
    have first : h.granted ⊆ (h.next call).granted ∧ h.freed ⊆ (h.next call).freed := by
      cases call with
      | alloc len => exact ⟨List.subset_append_left _ _, List.Subset.refl _⟩
      | allocFrom data =>
        simp only [next, grant]
        split <;> simp
      | upload ptr data =>
        simp only [next]
        split <;> simp
      | free ptr =>
        simp only [next]
        split <;> simp
    exact ⟨List.Subset.trans first.1 (ih _).1, List.Subset.trans first.2 (ih _).2⟩

/-- Grants do not wrap around, so their buffers share no address. -/
theorem Kept.disjoint {h : History} {cursor : Nat} (kept : h.Kept cursor)
    (fits : cursor ≤ 2 ^ 64) :
    h.granted.Pairwise fun s t => (buffer s).Disjoint (buffer t) := by
  have parts : ∀ s ∈ h.granted, buffer s = ⟨Address.offset 0 s.ptr, room s.len⟩ := by
    intro s granted
    have below := kept.below s granted
    have positive := room_pos s.len
    have word : s.ptr < 2 ^ 64 :=
      Nat.lt_of_lt_of_le (Nat.lt_add_of_pos_right positive) (Nat.le_trans below fits)
    rw [Address.offset, Nat.zero_add, show Bounded.word s.ptr = s.ptr from Nat.mod_eq_of_lt word]
    rfl
  refine List.Pairwise.imp_of_mem (fun {s t} grantedS grantedT apart => ?_) kept.apart
  rw [parts s grantedS, parts t grantedT]
  exact Span.disjoint_parts (.inl apart) (Nat.le_trans (kept.below s grantedS) fits)
    (Nat.le_trans (kept.below t grantedT) fits)

/-- Two grants lie one behind the other, so no address is in both. -/
theorem Kept.apart_of_ne {h : History} {cursor : Nat} (kept : h.Kept cursor) {s t : Span}
    (grantedS : s ∈ h.granted) (grantedT : t ∈ h.granted) (different : s ≠ t) :
    Apart s.ptr (room s.len) t.ptr (room t.len) := by
  have symmetric : Std.Symm fun s t : Span => Apart s.ptr (room s.len) t.ptr (room t.len) :=
    ⟨fun _ _ => Or.symm⟩
  have apart : h.granted.Pairwise fun s t => Apart s.ptr (room s.len) t.ptr (room t.len) :=
    kept.apart.imp Or.inl
  exact apart.forall grantedS grantedT different

/-- No address of a buffer that was taken back resolves. -/
theorem Kept.resolve_freed {h : History} {cursor : Nat} (kept : h.Kept cursor) {s : Span}
    (granted : s ∈ h.granted) (freed : s.ptr ∈ h.freed) {span : Span} (nonempty : 0 < span.len)
    (start : s.ptr ≤ span.ptr) (stop : span.ptr < s.ptr + room s.len) :
    h.memory.resolve span = .error (.unknownAddress span.ptr) := by
  refine resolve_of_unheld nonempty fun a member held => ?_
  obtain ⟨t, grantedT, unfreed, range⟩ := kept.granted_of_live member
  have base : a.base = t.ptr := congrArg Span.ptr range
  have size : a.size = room t.len := congrArg Span.len range
  have different : s ≠ t := fun same => unfreed (same ▸ freed)
  have apart := kept.apart_of_ne granted grantedT different
  rw [Allocation.Holds, base, size] at held
  simp only [Apart, Address] at apart held start stop
  omega

end History

/-- What the table of blocks is after some calls. -/
structure AddressTable (calls : List Call) (h : History) : Prop where
  /-- Every request is granted, with the length that it asks for. -/
  granted : h.granted.map Span.len = calls.filterMap Call.request?
  /-- Bytes that were granted to a request belong to no other one. -/
  disjoint : h.granted.Pairwise fun s t => (History.buffer s).Disjoint (History.buffer t)
  inside : ∀ s ∈ h.granted, s.ptr + room s.len ≤ 2 ^ 64
  live : h.memory.live.map Allocation.range =
    (h.granted.filter (·.ptr ∉ h.freed)).map History.buffer
  resolves : ∀ span : Span, 0 < span.len → span.ptr + span.len ≤ 2 ^ 64 → ∀ a offset,
    h.memory.resolve span = .ok (a, offset) ↔
      a ∈ h.memory.live ∧ a.Contains span ∧ offset = span.ptr - a.base
  /-- An address in a block that was taken back at some time is unknown from then on. -/
  forgets : ∀ earlier later, calls = earlier ++ later → ∀ s ∈ (History.of earlier).granted,
    s.ptr ∈ (History.of earlier).freed → ∀ span : Span, 0 < span.len → s.ptr ≤ span.ptr →
      span.ptr < s.ptr + room s.len →
      h.memory.resolve span = .error (.unknownAddress span.ptr)
  frees : ∀ ptr, (∃ m, h.memory.free ptr = .ok m) ↔ ∃ a ∈ h.memory.live, a.base = ptr
  /-- Taking a block back changes what its own addresses resolve to, and nothing else. -/
  spares : ∀ ptr m, h.memory.free ptr = .ok m → ∀ a ∈ h.memory.live, a.base = ptr →
    ∀ span : Span, 0 < span.len → span.ptr + span.len ≤ 2 ^ 64 →
      m.resolve span = if a.Holds span.ptr then .error (.unknownAddress span.ptr)
        else h.memory.resolve span
  fills : ∀ data, cursor calls + pitch data.length ≤ 2 ^ 64 →
    (h.memory.allocFrom data).result = .ok ⟨cursor calls, data.length⟩

/-- The table of blocks after any calls that do not use up the address space. -/
theorem address_table (calls : List Call) (fits : cursor calls ≤ 2 ^ 64) :
    AddressTable calls (.of calls) := by
  obtain ⟨kept, granted⟩ := History.kept_of calls fits
  have laid := kept.laid
  refine ⟨granted, kept.disjoint fits, fun s member => Nat.le_trans (kept.below s member) fits,
    kept.live, fun span nonempty words a offset => laid.resolve_eq_ok nonempty words, ?_, ?_, ?_,
    fun data more => (laid.allocFrom more).1⟩
  · intro earlier later parts s granted freed span nonempty start stop
    have stays := (History.of earlier).granted_stays later
    rw [History.of, ← List.foldl_append, ← History.of, ← parts] at stays
    exact kept.resolve_freed (stays.1 granted) (stays.2 freed) nonempty start stop
  · intro ptr
    simp only [free_eq_ok, exists_and_left, exists_eq, and_true]
  · intro ptr m freed a member based span nonempty words
    split
    · rename_i held
      exact laid.resolve_freed freed nonempty member based held
    · rename_i unheld
      exact laid.resolve_kept freed nonempty member based words unheld

/-- A block of 100 bytes that is taken back from between two others. -/
def hole : List Call :=
  [.allocFrom [1, 2, 3], .alloc 100, .alloc 8, .free 0x10100, .free 0x10100]

/-- The addresses of the hole are unknown, those behind it are not. -/
theorem hole_forgotten : cursor hole = 0x10300 ∧ AddressTable hole (.of hole) ∧
    (History.of hole).memory.resolve ⟨0x10160, 4⟩ = .error (.unknownAddress 0x10160) ∧
    ∃ a, (History.of hole).memory.resolve ⟨0x10204, 4⟩ = .ok (a, 4) := by
  have table := address_table hole (by decide)
  have third : (⟨0x10200, 8⟩ : Span) ∈ (History.of hole).memory.live.map Allocation.range := by
    rw [table.live]
    decide
  obtain ⟨a, member, range⟩ := List.mem_map.mp third
  have base : a.base = 0x10200 := congrArg Span.ptr range
  have size : a.size = 8 := congrArg Span.len range
  have forgotten := table.forgets hole [] (List.append_nil hole).symm ⟨0x10100, 100⟩
    (by decide) (by decide) ⟨0x10160, 4⟩ (by decide) (by decide) (by decide)
  refine ⟨by decide, table, forgotten, a, ?_⟩
  refine (table.resolves ⟨0x10204, 4⟩ (by decide) (by decide) a 4).mpr ⟨member, ?_, ?_⟩
  · rw [Allocation.Contains, base, size]
    decide
  · rw [base]
    rfl

end DeviceMemory

end OperatorGraph
