set_option autoImplicit false

/-!
The shortest decimal that lies in the rounding interval of a binary number: the one with the
fewest digits, and of those the nearest. Values and interval ends are exact fractions of
naturals, so nothing is rounded on the way.
-/
namespace OperatorGraph.Decimal

/-- A positive value `numerator / denominator` with the distances to the ends of the interval of
reals that round to it, over the same denominator. -/
structure Rounded where
  numerator : Nat
  below : Nat
  above : Nat
  denominator : Nat
  endsIncluded : Bool

/-- Decimal digits `d` and a power `p` that stand for `0.d * 10 ^ p`. -/
structure Digits where
  digits : List Nat
  power : Int
  deriving DecidableEq, Repr

/-- `n * 10 ^ p / d` as a fraction without negative powers. -/
def scale (n d : Nat) (p : Int) : Nat × Nat :=
  if 0 ≤ p then (n * Nat.pow 10 p.toNat, d) else (n, d * Nat.pow 10 (-p).toNat)

/-- The least power of ten above the value, searched from a lower bound. -/
def powerAbove (n d : Nat) (start : Int) : Nat → Int
  | 0 => start
  | fuel + 1 =>
    let (scaled, unit) := scale n d (-start)
    if scaled < unit then start else powerAbove n d (start + 1) fuel

/-- Whether `candidate` units of `10 ^ unit` lie in the interval of the value. -/
def Rounded.holds (v : Rounded) (candidate : Nat) (unit : Int) : Bool :=
  let (point, d) := scale (candidate * v.denominator) 1 unit
  let low := (v.numerator - v.below) * d
  let high := (v.numerator + v.above) * d
  if v.endsIncluded then low ≤ point && point ≤ high else low < point && point < high

/-- The nearest point of a decimal grid in the interval, if one of the two next to the value is
there. Of two equally near points the greater is taken. -/
def Rounded.onGrid? (v : Rounded) (unit : Int) : Option Nat :=
  let (scaled, d) := scale v.numerator v.denominator (-unit)
  let floor := scaled / d
  let rest := scaled % d
  let order := if d ≤ 2 * rest then [floor + 1, floor] else [floor, floor + 1]
  order.find? (v.holds · unit)

def digitsOf (n : Nat) : List Nat :=
  (Nat.toDigits 10 n).map fun c => c.toNat - '0'.toNat

def dropTrailingZeros (digits : List Nat) : List Nat :=
  (digits.reverse.dropWhile (· = 0)).reverse

/-- The first grid that hits the interval, trying `count` digits, then one more, up to the fuel. -/
def Rounded.search (v : Rounded) (power : Int) (count : Nat) : Nat → Digits
  | 0 => ⟨[], power⟩
  | fuel + 1 =>
    match v.onGrid? (power - count) with
    | some n =>
      let digits := digitsOf n
      ⟨dropTrailingZeros digits, power + digits.length - count⟩
    | none => v.search power (count + 1) fuel

end OperatorGraph.Decimal
