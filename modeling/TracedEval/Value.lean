import TracedEval.Expr
import TracedEval.Number.Display

/-!
# Values

What evaluation computes with. A function value carries its body, the locals it captured and an
identity given to it when it was made; copies of one function share the identity, and it alone
decides equality of functions.
-/

namespace TracedEval

mutual

/-- A value of a running program. -/
inductive Value
  | nil
  | boolean (b : Bool)
  | number (x : Float)
  | string (s : String)
  | function (f : Closure)
  | builtin (b : Builtin)

/-- A function made by a running program. -/
structure Closure where
  name : String
  arity : Nat
  body : Expr
  scope : Scope
  identity : Nat

/-- The lexical locals in scope, the innermost first. -/
inductive Scope
  | empty
  | bind (name : String) (value : Value) (outer : Scope)

end

/-- The value of a local; the innermost binding of a name counts. -/
def Scope.get? (scope : Scope) (name : String) : Option Value :=
  match scope with
  | .empty => none
  | .bind bound value outer => if bound = name then some value else outer.get? name

/-- The value of a constant. -/
def Literal.value : Literal → Value
  | .nil => .nil
  | .boolean b => .boolean b
  | .number x => .number x
  | .string s => .string s
  | .builtin b => .builtin b

/-- What kind of value a value is, as far as a program can tell. -/
inductive ValueType
  | nil
  | boolean
  | number
  | string
  | function
  deriving DecidableEq, Repr

def ValueType.name : ValueType → String
  | nil => "nil"
  | boolean => "boolean"
  | number => "number"
  | string => "string"
  | function => "function"

namespace Value

/-- The kind of a value; builtins are functions too. -/
def type : Value → ValueType
  | nil => .nil
  | boolean _ => .boolean
  | number _ => .number
  | string _ => .string
  | function _ => .function
  | builtin _ => .function

/-- The text of a value. -/
def display : Value → String
  | nil => "undefined"
  | boolean b => if b then "true" else "false"
  | number x => formatNumber x
  | string s => s
  | function f => s!"[Function: {f.name}]"
  | builtin b => s!"[Function: {b.name}]"

/-- Whether a guard with this value holds. Nil, false, both zeros, not-a-number and the empty
string do not. -/
def isTruthy : Value → Bool
  | nil => false
  | boolean b => b
  | number x => x != 0 && !x.isNaN
  | string s => !s.isEmpty
  | function _ => true
  | builtin _ => true

def isNil : Value → Bool
  | nil => true
  | _ => false

/-- The number that a value is. -/
def number? : Value → Option Float
  | number x => some x
  | _ => none

/-- Equality without conversion: values of different kinds differ, numbers compare as numbers, and
functions are equal when they are copies of one function. -/
def strictEquals : Value → Value → Bool
  | nil, nil => true
  | boolean a, boolean b => a == b
  | number x, number y => x == y
  | string s, string t => s == t
  | function f, function g => f.identity == g.identity
  | builtin a, builtin b => a == b
  | _, _ => false

end Value

end TracedEval
