import TracedEval.Builtin
import TracedEval.Operator
import TracedEval.Position

/-!
# Compiled bodies

What the body of a function or of a program consists of once it has been compiled: constants, the
arguments of the innermost function, lexical locals, and operations on the context that the body
runs in. Each operation that can fail carries the place it came from.
-/

namespace TracedEval

/-- A constant. -/
inductive Literal
  | nil
  | boolean (b : Bool)
  | number (x : Float)
  | string (s : String)
  | builtin (b : Builtin)
  deriving DecidableEq

/-- A compiled body. -/
inductive Expr
  | literal (value : Literal)
  /-- An argument of the innermost function, `nil` beyond the last. -/
  | argument (index : Nat)
  /-- A lexical local and the body that sees it. -/
  | letIn (name : String) (bound body : Expr)
  | localVar (name : String)
  /-- A global binding. -/
  | global (name : String) (position : Position)
  /-- A tracked call of the global `name`. -/
  | call (name : String) (position : Position) (args : List Expr)
  /-- A tracked call of the function that `callee` gives, recorded under `name`. -/
  | apply (callee : Expr) (name : String) (position : Position) (args : List Expr)
  /-- A builtin called directly, which is not tracked. -/
  | builtin (function : Builtin) (position : Position) (args : List Expr)
  | binary (operator : Operator) (position : Position) (left right : Expr)
  | negate (position : Position) (operand : Expr)
  | cond (guard branch otherwise : Expr)
  /-- One after the other; the value is the last one, `nil` if there is none. -/
  | seq (parts : List Expr)
  | raise (position : Position) (message : String)
  /-- A new function, which captures the locals in scope. -/
  | function (name : String) (arity : Nat) (body : Expr)
  /-- Binds a global. -/
  | define (name : String) (value : Expr)
  /-- How many frames the call stack holds. -/
  | depth
  /-- The text of a value, as a string. -/
  | display (operand : Expr)
  /-- The handler's value if the body fails. -/
  | attempt (body handler : Expr)
  /-- A program run inside the running one; the handler's value if it fails. -/
  | execute (body handler : Expr)

namespace Expr

/-- A chain of guarded branches; `nil` if no guard holds. -/
def chain (branches : List (Expr × Expr)) : Expr :=
  branches.foldr (fun (guard, branch) rest => cond guard branch rest) (literal .nil)

/-- Binds a global to a new function of the same name. -/
def defineFunction (name : String) (arity : Nat) (body : Expr) : Expr :=
  define name (function name arity body)

end Expr

end TracedEval
