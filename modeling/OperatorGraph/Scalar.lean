import OperatorGraph.Decimal.Shortest

set_option autoImplicit false

namespace OperatorGraph

/-- A single precision number as its bit pattern. Two parameters are the same value exactly when
they are the same bits; arithmetic equality is a relation of its own. -/
structure Scalar where
  bits : UInt32
  deriving DecidableEq, Repr

namespace Scalar

def one : Scalar := ⟨0x3f800000⟩

def fractionBits (x : Scalar) : Nat :=
  x.bits.toNat % 0x80_0000

def exponentBits (x : Scalar) : Nat :=
  x.bits.toNat / 0x80_0000 % 0x100

def isNegative (x : Scalar) : Bool :=
  x.bits.toNat / 0x8000_0000 = 1

def isNaN (x : Scalar) : Bool :=
  x.exponentBits = 255 && x.fractionBits ≠ 0

def isZero (x : Scalar) : Bool :=
  x.exponentBits = 0 && x.fractionBits = 0

/-- Arithmetic equality: no NaN equals anything, and the two zeros are equal. -/
def equals (x y : Scalar) : Bool :=
  !x.isNaN && !y.isNaN && (x.bits = y.bits || (x.isZero && y.isZero))

/-- The nearest scalar to an integer. -/
def ofInt (n : Int) : Scalar :=
  ⟨(Float32.ofInt n).toBits⟩

/-- The NaN that stands for a result which no real number is. -/
def indefinite : Scalar := ⟨0xffc00000⟩

/-- One over the square root, each step rounded to nearest. -/
def inverseSqrt (x : Scalar) : Scalar :=
  if x.isNegative && !x.isZero then indefinite
  else ⟨(1 / (Float32.ofBits x.bits).sqrt).toBits⟩

/-- The magnitude of a finite scalar other than zero, with its rounding interval. -/
def rounded (x : Scalar) : Decimal.Rounded :=
  let normal := x.exponentBits ≠ 0
  let mantissa := if normal then 0x80_0000 + x.fractionBits else x.fractionBits
  let exponent : Int := (max x.exponentBits 1 : Nat) - 150
  let below := if x.fractionBits = 0 && 1 < x.exponentBits then 1 else 2
  let up := 1 <<< (exponent - 2).toNat
  { numerator := 4 * mantissa * up
    below := below * up
    above := 2 * up
    denominator := 1 <<< (2 - exponent).toNat
    endsIncluded := mantissa % 2 = 0 }

def shortest (x : Scalar) : Decimal.Digits :=
  let v := x.rounded
  v.search (Decimal.powerAbove v.numerator v.denominator (-46) 90) 1 9

/-- Which decimals are written positionally: those from `10 ^ firstPower` up to, but not
including, `10 ^ lastPower`. -/
structure PositionalRange where
  firstPower : Int
  lastPower : Int

/-- Debugging output writes `0.0001` and `1000000000000000.0` in full, `1e-5` and `1e16` not. -/
def debugRange : PositionalRange where
  firstPower := -4
  lastPower := 16

def renderDigits (digits : List Nat) : String :=
  String.join (digits.map toString)

/-- Digits with a point in their place and at least one digit on either side of it. -/
def positional (d : Decimal.Digits) : String :=
  let count : Int := d.digits.length
  if d.power ≤ 0 then
    "0." ++ String.ofList (List.replicate (-d.power).toNat '0') ++ renderDigits d.digits
  else if count ≤ d.power then
    renderDigits d.digits ++ String.ofList (List.replicate (d.power - count).toNat '0') ++ ".0"
  else
    renderDigits (d.digits.take d.power.toNat) ++ "." ++ renderDigits (d.digits.drop d.power.toNat)

/-- One digit, a point if more follow, and the power of ten. -/
def scientific (d : Decimal.Digits) : String :=
  let rest := d.digits.drop 1
  renderDigits (d.digits.take 1) ++ (if rest.isEmpty then "" else "." ++ renderDigits rest) ++
    "e" ++ toString (d.power - 1)

/-- The shortest decimal that reads back as the scalar. -/
def describe (x : Scalar) : String :=
  if x.isNaN then "NaN"
  else
    let sign := if x.isNegative then "-" else ""
    let magnitude :=
      if x.exponentBits = 255 then "inf"
      else if x.isZero then "0.0"
      else
        let d := x.shortest
        if debugRange.firstPower < d.power ∧ d.power ≤ debugRange.lastPower then positional d
        else scientific d
    sign ++ magnitude

end Scalar

end OperatorGraph
