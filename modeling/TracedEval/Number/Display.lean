import TracedEval.Number.Layout

/-!
# How numbers are shown

A number is shown by its shortest digits, positionally as long as its magnitude is neither very great
nor very small, and otherwise with a power of ten that always has a sign. Zero has no sign. Of two
equally short and equally near decimals the greater one counts.
-/

namespace TracedEval

/-- The shortest decimal of the magnitude of a number. -/
def shortestDecimal (x : Float) : Decimal :=
  match x.toModel.unpack with
  | .finite _ m q _ => Decimal.shortest .up m q
  | _ => ⟨0, 0⟩

/-- The sign of a number, if it is negative. -/
def signText (x : Float) : String := if x < 0 then "-" else ""

/-- The shortest digits of a number, positionally. -/
def positionalText (x : Float) : String :=
  let d := shortestDecimal x
  signText x ++ NumberLayout.positional "" (toString d.coefficient) d.point

/-- The shortest digits of a number with a power of ten, which has a sign only if it is negative. -/
def scientificText (x : Float) : String :=
  let d := shortestDecimal x
  signText x ++ NumberLayout.scientific "" (toString d.coefficient) d.point

/-- The text with a plus in front of a power of ten that has no minus. -/
def withPowerSign (text : String) : String :=
  let mantissa := text.toList.takeWhile (· != 'e')
  match text.toList.dropWhile (· != 'e') with
  | [] => text
  | _ :: power =>
    if power.head? = some '-' then text else String.ofList (mantissa ++ 'e' :: '+' :: power)

/-- The text of a number. -/
def formatNumber (x : Float) : String :=
  if x.isNaN then "NaN"
  else if x.isInf then if 0 < x then "Infinity" else "-Infinity"
  else if x == 0 then "0"
  else if 1e21 ≤ x.abs ∨ x.abs < 1e-6 then withPowerSign (scientificText x)
  else positionalText x

end TracedEval
