import OperatorGraph.Device.Error
import OperatorGraph.Outcome
import OperatorGraph.Workspace

set_option autoImplicit false

namespace OperatorGraph

structure Allocation where
  base : Address
  size : Nat
  contents : Nat → UInt8

/-- Buffers in a flat address space. An address belongs to the live allocation with the greatest
base that is not above it. -/
structure DeviceMemory where
  /-- The live allocations, in the order in which they were made. -/
  live : List Allocation
  next : Address

namespace Allocation

/-- Overwrites the bytes from an offset on. -/
def write (a : Allocation) (offset : Nat) (data : Array UInt8) : Allocation :=
  { a with contents := fun i =>
      if inside : offset ≤ i ∧ i - offset < data.size then data[i - offset] else a.contents i }

def read (a : Allocation) (offset len : Nat) : List UInt8 :=
  (List.range len).map fun i => a.contents (offset + i)

end Allocation

namespace DeviceMemory

/-- Copies to and from a buffer start at multiples of this many bytes. -/
def copyAlignment : Nat := 4

/-- Allocations start at multiples of this many bytes. -/
def addressAlignment : Nat := 256

/-- Nothing is allocated at address zero. -/
def empty : DeviceMemory :=
  ⟨[], 0x10000⟩

/-- The size of the buffer that holds a number of bytes. -/
def bufferSize (len : Nat) : Nat :=
  alignUp (max len 1) copyAlignment

/-- Allocates at least so many bytes, all zero. -/
def alloc (m : DeviceMemory) (len : Nat) : Outcome DeviceMemory DeviceError Span :=
  let size := bufferSize len
  let allocation : Allocation := ⟨m.next, size, fun _ => 0⟩
  ⟨⟨m.live ++ [allocation], m.next.offset (alignUp size addressAlignment)⟩,
    [⟨.trace, s!"allocated {size} bytes at " ++ m.next.render⟩], .ok ⟨m.next, len⟩⟩

/-- Releases the allocation that starts at an address. -/
def free (m : DeviceMemory) (ptr : Address) : Except DeviceError DeviceMemory :=
  if m.live.any (·.base = ptr) then
    .ok { m with live := m.live.filter (·.base ≠ ptr) }
  else .error (.unknownAddress ptr)

/-- The live allocation with the greatest base up to an address. -/
def below? (m : DeviceMemory) (ptr : Address) : Option Allocation :=
  (m.live.filter (·.base ≤ ptr)).getLast?

/-- The allocation that a range lies in, and the offset of the range. -/
def resolve (m : DeviceMemory) (span : Span) : Except DeviceError (Allocation × Nat) :=
  match m.below? span.ptr with
  | none => .error (.unknownAddress span.ptr)
  | some a =>
    let offset := span.ptr - a.base
    if a.size ≤ offset ∧ 0 < span.len then .error (.unknownAddress span.ptr)
    else if a.size < Bounded.word (offset + span.len) then
      .error (.outOfBounds span.ptr span.len)
    else .ok (a, offset)

/-- Overwrites bytes of a live allocation. -/
def write (m : DeviceMemory) (base : Address) (offset : Nat) (data : List UInt8) :
    DeviceMemory :=
  { m with live := m.live.map fun a =>
      if a.base = base then a.write offset data.toArray else a }

/-- Writes bytes from an address on. Their offset and their number have to be aligned. -/
def upload (m : DeviceMemory) (ptr : Address) (data : List UInt8) :
    Except DeviceError DeviceMemory := do
  if data.isEmpty then return m
  let (a, offset) ← m.resolve ⟨ptr, data.length⟩
  if offset % copyAlignment ≠ 0 then .error (.misaligned ptr offset copyAlignment)
  else if data.length % copyAlignment ≠ 0 then
    .error (.unalignedLength ptr data.length copyAlignment)
  else return m.write a.base offset data

/-- Reads the bytes of a range, whose offset has to be aligned. The copy goes on to the next
multiple of the copy alignment, and what it brings beyond the range is dropped. -/
def download (m : DeviceMemory) (span : Span) : Except DeviceError (List UInt8) := do
  let (a, offset) ← m.resolve span
  if span.len = 0 then return []
  else if offset % copyAlignment ≠ 0 then
    .error (.misaligned span.ptr offset copyAlignment)
  else return (a.read offset (alignUp span.len copyAlignment)).take span.len

/-- The bytes of an allocation up to the next multiple of the copy alignment. -/
def padded (data : List UInt8) : List UInt8 :=
  data ++ List.replicate (alignUp data.length copyAlignment - data.length) 0

/-- Allocates a buffer that holds the given bytes. -/
def allocFrom (m : DeviceMemory) (data : List UInt8) : Outcome DeviceMemory DeviceError Span :=
  (m.alloc data.length).andThen fun next span =>
    if data.isEmpty then .done next span
    else match next.resolve ⟨span.ptr, (padded data).length⟩ with
      | .error refusal => .failed next refusal
      | .ok (a, offset) => .done (next.write a.base offset (padded data)) span

end DeviceMemory

end OperatorGraph
