/-!
# Source positions

A row and a column in a program's source, as compiled code carries them.
-/

namespace TracedEval

/-- A place in a program's source. -/
structure Position where
  row : Nat
  col : Nat
  deriving DecidableEq, Repr, Inhabited

/-- The row and the column in brackets. -/
def Position.text (p : Position) : String := s!"[{p.row}:{p.col}]"

end TracedEval
