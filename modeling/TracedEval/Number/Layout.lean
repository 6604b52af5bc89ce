import TracedEval.Number.Decimal

/-!
# Number texts

A `NumberLayout` says how the shortest digits of a double become a text: where positional form
ends, what follows a whole number, how ties between equally short digits go, and whether a zero
keeps its sign. The layouts themselves stand with the things they are written for; here is the one
function that follows a layout.
-/

namespace TracedEval

open Float.Model

/-- How a double is written. -/
structure NumberLayout where
  /-- Positional form is for decimal points greater than this. -/
  positionalAbove : Int
  /-- Positional form is for decimal points up to this. -/
  positionalUpTo : Int
  /-- What stands after the digits of a whole number in positional form. -/
  wholeEnding : String
  /-- The texts of zero and of negative zero. -/
  zero : String
  negativeZero : String
  tie : Tie

namespace NumberLayout

/-- Digits with a point in their midst, or padded with zeros where the point stands outside. -/
def positional (wholeEnding : String) (digits : String) (point : Int) : String :=
  let count := digits.length
  if point ≤ 0 then
    "0." ++ "".pushn '0' (-point).toNat ++ digits
  else if point < count then
    String.ofList (digits.toList.take point.toNat) ++ "." ++
      String.ofList (digits.toList.drop point.toNat)
  else
    digits ++ "".pushn '0' (point - count).toNat ++ wholeEnding

/-- One digit, the others after a point if there are any, and a power of ten; `plus` stands in front
of a power that is not negative. -/
def scientific (plus : String) (digits : String) (point : Int) : String :=
  let first := String.ofList (digits.toList.take 1)
  let others := String.ofList (digits.toList.drop 1)
  let power := point - 1
  first ++ (if others.isEmpty then "" else "." ++ others) ++
    "e" ++ (if power < 0 then "-" else plus) ++ toString power.natAbs

/-- The text of a positive decimal. -/
def decimal (layout : NumberLayout) (d : Decimal) : String :=
  let digits := toString d.coefficient
  if layout.positionalAbove < d.point ∧ d.point ≤ layout.positionalUpTo then
    positional layout.wholeEnding digits d.point
  else
    scientific "+" digits d.point

/-- The text of a double. -/
def write (layout : NumberLayout) (x : Float) : String :=
  match x.toModel.unpack with
  | .notANumber => "NaN"
  | .infinity .positive => "Infinity"
  | .infinity .negative => "-Infinity"
  | .zero .positive => layout.zero
  | .zero .negative => layout.negativeZero
  | .finite .positive m q _ => layout.decimal (Decimal.shortest layout.tie m q)
  | .finite .negative m q _ => "-" ++ layout.decimal (Decimal.shortest layout.tie m q)

end NumberLayout

end TracedEval
