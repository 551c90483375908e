set_option autoImplicit false

namespace OperatorGraph.Text

/-- The digits of a number in base sixteen, without leading zeros. -/
def hexDigits (n : Nat) : String :=
  String.ofList (Nat.toDigits 16 n)

/-- A hexadecimal numeral with its marker in front. -/
def hex (n : Nat) : String :=
  "0x" ++ hexDigits n

end OperatorGraph.Text
