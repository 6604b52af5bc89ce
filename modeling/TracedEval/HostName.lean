/-!
# Host names

Program names may hold any character; host names are made of ASCII letters, digits and underscores
only. Every other character is replaced by its code point in decimal, without any delimiter:
`sum-of-squares` becomes `sum45of45squares`.
-/

namespace TracedEval

/-- Whether a character stands in a host name as it is. -/
def isHostChar (c : Char) : Bool := c.isAlphanum || c == '_'

/-- What one character of a name contributes to the host name. -/
def hostChars (c : Char) : List Char :=
  if isHostChar c then [c] else Nat.toDigits 10 c.toNat

/-- The host name of a name. -/
def hostName (name : String) : String :=
  String.ofList (name.toList.flatMap hostChars)

end TracedEval
