/-!
# Operators

The two-place operators of compiled bodies. What they compute is in `TracedEval.Arithmetic`.
-/

namespace TracedEval

/-- A two-place operator. -/
inductive Operator
  | add
  | sub
  | mul
  | div
  | mod
  | less
  | lessEq
  | greater
  | greaterEq
  | equal
  | notEqual
  deriving DecidableEq, Repr

namespace Operator

def all : List Operator :=
  [add, sub, mul, div, mod, less, lessEq, greater, greaterEq, equal, notEqual]

/-- How the operator is written. -/
def symbol : Operator → String
  | add => "+"
  | sub => "-"
  | mul => "*"
  | div => "/"
  | mod => "%"
  | less => "<"
  | lessEq => "<="
  | greater => ">"
  | greaterEq => ">="
  | equal => "==="
  | notEqual => "!=="

end Operator

end TracedEval
