import TracedEval.Fault
import TracedEval.Value

/-!
# Environment

The global bindings of a context. Every program starts with the builtins under their names, with
`else` for the guard that always holds, and with `nil` for the absent value.
-/

namespace TracedEval

/-- Global bindings, at most one for each name. -/
structure Environment where
  bindings : List (String × Value)

namespace Environment

/-- No bindings. -/
def empty : Environment := ⟨[]⟩

/-- Binds a name, in place of any earlier binding of it. -/
def define (env : Environment) (name : String) (value : Value) : Environment :=
  ⟨(name, value) :: env.bindings.filter fun binding => binding.1 != name⟩

/-- The value that a name is bound to. -/
def get? (env : Environment) (name : String) : Option Value :=
  env.bindings.lookup name

/-- The value that a name is bound to, or the fault of a name that is not. -/
def get (env : Environment) (name : String) : Except Fault Value :=
  match env.get? name with
  | some value => .ok value
  | none => .error (.undefinedName name)

/-- The bindings that every program starts with. -/
def initial : Environment :=
  let builtins := Builtin.all.foldl (fun env b => env.define b.name (.builtin b)) empty
  (builtins.define "else" (.boolean true)).define "nil" .nil

end Environment

end TracedEval
