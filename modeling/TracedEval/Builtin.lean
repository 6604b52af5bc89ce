/-!
# Builtin functions

The functions that every program starts with.
-/

namespace TracedEval

/-- A function that every program starts with. -/
inductive Builtin
  | sum
  | sub
  | print
  deriving DecidableEq, Repr

namespace Builtin

def all : List Builtin := [sum, sub, print]

def name : Builtin → String
  | sum => "sum"
  | sub => "sub"
  | print => "print"

/-- The builtin of that name. -/
def ofName? (name : String) : Option Builtin :=
  all.find? fun b => b.name == name

theorem ofName?_name (b : Builtin) : ofName? b.name = some b := by
  cases b <;> decide

end Builtin

end TracedEval
