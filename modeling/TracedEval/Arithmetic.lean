import TracedEval.Fault
import TracedEval.Number.Remainder
import TracedEval.Output
import TracedEval.Value

/-!
# Operators and builtins on values

What the two-place operators, negation and the builtins compute, or which fault they end in.
Operators work on two operands; the builtins take any number of arguments, and `sum` and `sub` fix
the order in which theirs are accumulated, since rounding depends on it.
-/

namespace TracedEval

/-! ## Operators -/

/-- The fault of an operator on operands it does not take. -/
def Operator.mismatch (op : Operator) (left right : Value) : Fault :=
  .typeError s!"unsupported operands for '{op.symbol}': {left.type.name} and {right.type.name}"

/-- An operator on numbers. -/
def Operator.onNumbers (op : Operator) (x y : Float) : Value :=
  match op with
  | add => .number (x + y)
  | sub => .number (x - y)
  | mul => .number (x * y)
  | div => .number (x / y)
  | mod => .number (remainder x y)
  | less => .boolean (x < y)
  | lessEq => .boolean (x ≤ y)
  | greater => .boolean (y < x)
  | greaterEq => .boolean (y ≤ x)
  | equal => .boolean (x == y)
  | notEqual => .boolean (x != y)

/-- An operator on strings, for those that take strings: joining and the order of code points. -/
def Operator.onStrings? (op : Operator) (s t : String) : Option Value :=
  match op with
  | add => some (.string (s ++ t))
  | less => some (.boolean (s < t))
  | lessEq => some (.boolean (s ≤ t))
  | greater => some (.boolean (t < s))
  | greaterEq => some (.boolean (t ≤ s))
  | _ => none

/-- The value of an operator. The equalities take any operands; adding a string to anything joins
the texts of both. -/
def Operator.apply (op : Operator) (left right : Value) : Except Fault Value :=
  match op with
  | equal => .ok (.boolean (left.strictEquals right))
  | notEqual => .ok (.boolean (!left.strictEquals right))
  | op =>
    match left, right with
    | .number x, .number y => .ok (op.onNumbers x y)
    | .string s, .string t =>
      match op.onStrings? s t with
      | some value => .ok value
      | none => .error (op.mismatch left right)
    | .string _, _ | _, .string _ =>
      if op = .add then .ok (.string (left.display ++ right.display))
      else .error (op.mismatch left right)
    | _, _ => .error (op.mismatch left right)

/-- The value with the opposite sign. -/
def Value.negate : Value → Except Fault Value
  | .number x => .ok (.number (-x))
  | value => .error (.typeError s!"cannot negate a {value.type.name}")

/-! ## Builtins -/

/-- The arguments as numbers; the first one that is none makes the fault. -/
def Builtin.numbers (b : Builtin) : List Value → Except Fault (List Float)
  | [] => .ok []
  | .number x :: rest => (b.numbers rest).map (x :: ·)
  | value :: _ =>
    .error (.typeError s!"builtin function '{b.name}' expects numbers, got {value.type.name}")

section Accumulation

variable {α : Type} [OfNat α 0] [Add α] [Sub α] [Neg α]

/-- Everything added to zero, from left to right. -/
def sumNumbers (xs : List α) : α := xs.foldl (· + ·) 0

/-- The first number less the others; a single number is negated. All numbers, the first included,
are subtracted from zero from left to right, and then the first is added twice. -/
def subNumbers : List α → α
  | [] => 0
  | [x] => -x
  | x :: rest => (x :: rest).foldl (· - ·) 0 + x + x

end Accumulation

/-- The line that a value list is printed as. -/
def printedLine (args : List Value) : String :=
  " ".intercalate (args.map Value.display)

/-- Calls a builtin. How many arguments there are is checked before what they are. -/
def Builtin.call (b : Builtin) (args : List Value) (output : Output) :
    Except Fault Value × Output :=
  match b with
  | sum =>
    if args.length < 2 then (.error (.tooFewArguments sum.name 2), output)
    else ((sum.numbers args).map fun xs => .number (sumNumbers xs), output)
  | sub =>
    if args.length < 1 then (.error (.tooFewArguments sub.name 1), output)
    else ((sub.numbers args).map fun xs => .number (subNumbers xs), output)
  | print =>
    match output.writeLine (printedLine args) with
    | (output, none) => (.ok .nil, output)
    | (output, some error) => (.error (.output error), output)

end TracedEval
