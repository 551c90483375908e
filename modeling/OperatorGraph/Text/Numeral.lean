set_option autoImplicit false

/-!
Numerals in the text of a document. One that is written with a point, with an exponent or as a
negative zero is no integer, whatever its value. No setting is a fraction, so that all of these
numerals may be read as the same one.
-/
namespace OperatorGraph.Text

/-- Where a character of a document stands: outside of all texts, in a text, or behind the
backslash of an escape. -/
inductive Region where
  | bare
  | quoted
  | escaped
  deriving DecidableEq, Repr

/-- A document that was read up to some place: what is behind, and the numeral at that place. -/
structure Reading where
  passed : String
  numeral : String
  region : Region

def isIntegral (numeral : String) : Bool :=
  numeral ≠ "-0" && numeral.all fun c => c.isDigit || c = '-'

namespace Reading

def start : Reading :=
  ⟨"", "", .bare⟩

/-- Ends the numeral, if there is one. -/
def close (r : Reading) : Reading :=
  { r with
    passed := r.passed ++ if isIntegral r.numeral then r.numeral else "0.5"
    numeral := "" }

/-- The character begins a numeral or goes on with one. -/
def takes (r : Reading) (c : Char) : Bool :=
  c.isDigit || c = '-' || (r.numeral ≠ "" && c ∈ ['+', '.', 'e', 'E'])

/-- Passes a character that is part of no numeral. -/
def pass (r : Reading) (c : Char) (region : Region) : Reading :=
  { r with passed := r.passed.push c, region }

def next (r : Reading) (c : Char) : Reading :=
  match r.region with
  | .escaped => r.pass c .quoted
  | .quoted => r.pass c (if c = '"' then .bare else if c = '\\' then .escaped else .quoted)
  | .bare =>
    if r.takes c then { r with numeral := r.numeral.push c }
    else r.close.pass c (if c = '"' then .quoted else .bare)

end Reading

/-- A document in which every numeral that is no integer is the same fraction. -/
def markFractions (document : String) : String :=
  (document.foldl Reading.next .start).close.passed

end OperatorGraph.Text
