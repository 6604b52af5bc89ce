import TracedEval.Expr
import TracedEval.HostName
import TracedEval.Text.Quoted
import TracedEval.Value

/-!
# Programs

A compiled program is a body with a name. The body runs without arguments and without locals.
-/

namespace TracedEval

/-- A compiled program. -/
structure Program where
  name : String
  body : Expr

namespace Program

/-- The name that the program has on the host. -/
def hostName (p : Program) : String := TracedEval.hostName p.name

/-- Whether the program is meant by a name, which may be its own or its host name. -/
def isNamed (p : Program) (name : String) : Bool := p.name == name || p.hostName == name

/-- A one-line description. -/
def describe (p : Program) : String :=
  s!"CompiledProgram \x7b name: {Text.quoted p.name}, .. \x7d"

end Program

/-- A one-line description of a function. -/
def Closure.describe (f : Closure) : String :=
  s!"Closure \x7b name: {Text.quoted f.name}, arity: {f.arity}, .. \x7d"

end TracedEval
