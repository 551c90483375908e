set_option autoImplicit false

namespace OperatorGraph

inductive WordType where
  | u8 | i32 | u32 | u64
  deriving DecidableEq, Repr

namespace WordType

def all : List WordType :=
  [u8, i32, u32, u64]

def name : WordType → String
  | u8 => "u8"
  | i32 => "i32"
  | u32 => "u32"
  | u64 => "u64"

/-- Bytes per word. -/
def size : WordType → Nat
  | u8 => 1
  | i32 | u32 => 4
  | u64 => 8

def isSigned : WordType → Bool
  | i32 => true
  | u8 | u32 | u64 => false

/-- A number of bytes of a natural, least significant first. -/
def bytesOf : Nat → Nat → List UInt8
  | 0, _ => []
  | width + 1, n => n.toUInt8 :: bytesOf width (n / 256)

/-- The natural with the given bytes, least significant first. -/
def ofBytes : List UInt8 → Nat
  | [] => 0
  | b :: rest => b.toNat + 256 * ofBytes rest

/-- Bits beyond the width of the word are dropped. -/
def encode (w : WordType) (value : Int) : List UInt8 :=
  bytesOf w.size (value % (1 <<< (8 * w.size) : Nat)).toNat

def encodeAll (w : WordType) (values : List Int) : List UInt8 :=
  values.flatMap w.encode

def decode (w : WordType) (bytes : List UInt8) : Int :=
  let n : Int := ofBytes bytes
  if w.isSigned then n.bmod (1 <<< (8 * w.size)) else n

/-- Reads a number of words from the front. -/
def decodeFirst (w : WordType) : Nat → List UInt8 → List Int
  | 0, _ => []
  | count + 1, bytes => w.decode (bytes.take w.size) :: decodeFirst w count (bytes.drop w.size)

/-- Reads the whole words and drops what is left over. -/
def decodeAll (w : WordType) (bytes : List UInt8) : List Int :=
  w.decodeFirst (bytes.length / w.size) bytes

end WordType

end OperatorGraph
