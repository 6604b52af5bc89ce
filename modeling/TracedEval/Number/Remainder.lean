/-!
# Exact remainder

The remainder of two doubles after division toward zero. It has the sign of the dividend and is
itself always a double, so nothing is rounded: both operands are brought to the smaller of the two
exponents and divided as natural numbers.
-/

namespace TracedEval

open Float.Model

/-- The remainder on decoded doubles. The last rounding is exact: the remainder is smaller than one
of the two significands. -/
def remainderUnpacked : UnpackedFloat → UnpackedFloat → UnpackedFloat
  | .notANumber, _ => .notANumber
  | _, .notANumber => .notANumber
  | .infinity _, _ => .notANumber
  | _, .zero _ => .notANumber
  | x, .infinity _ => x
  | .zero sign, _ => .zero sign
  | .finite sign m p _, .finite _ n q _ =>
    let exponent := min p q
    let rest := (m <<< (p - exponent).toNat) % (n <<< (q - exponent).toNat)
    if rest = 0 then .zero sign else .round Format.binary64 sign rest exponent

/-- The remainder of `x` divided by `y` toward zero. -/
def remainder (x y : Float) : Float :=
  .ofModel (.pack (remainderUnpacked x.toModel.unpack y.toModel.unpack))

end TracedEval
