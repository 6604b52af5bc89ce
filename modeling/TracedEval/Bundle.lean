import TracedEval.Program

/-!
# Bundled programs

The programs that come with the launcher: first exercises in expressions, functions, conditions,
recursion and function values. An expression statement prints its value.
-/

namespace TracedEval

namespace Bundle

/-! ## Building blocks -/

private def num (x : Float) : Expr := .literal (.number x)

/-- An operator form with any number of operands, as a left fold of the two-place operator. -/
def fold (op : Operator) (pos : Position) : List Expr → Expr
  | [] => .literal .nil
  | first :: rest => rest.foldl (fun acc operand => .binary op pos acc operand) first

/-- Prints the value of an expression and gives it back. -/
def shown (pos : Position) (e : Expr) : Expr :=
  .letIn "shown" e <| .seq [.builtin .print pos [.localVar "shown"], .localVar "shown"]

/-- Defines the square of a number; the definition stands in the given row. -/
def defineSquare (row : Nat) : Expr :=
  .defineFunction "square" 1 (.binary .mul ⟨row, 20⟩ (.argument 0) (.argument 0))

/-! ## The programs -/

/-- Operator forms, and bindings of globals. -/
def expressions : Program where
  name := "run-1.1.1"
  body := .seq [
    shown ⟨1, 1⟩ (fold .add ⟨1, 1⟩ [num 137, num 349]),
    shown ⟨2, 1⟩ (fold .sub ⟨2, 1⟩ [num 1000, num 334]),
    shown ⟨3, 1⟩ (fold .mul ⟨3, 1⟩ [num 5, num 99]),
    shown ⟨4, 1⟩ (fold .div ⟨4, 1⟩ [num 10, num 5]),
    shown ⟨5, 1⟩ (fold .add ⟨5, 1⟩ [num 2.7, num 10]),
    shown ⟨6, 1⟩ (fold .add ⟨6, 1⟩ [num 21, num 35, num 12, num 7]),
    shown ⟨7, 1⟩ (fold .mul ⟨7, 1⟩ [num 25, num 4, num 12]),
    shown ⟨8, 1⟩ (fold .add ⟨8, 1⟩ [
      fold .mul ⟨8, 4⟩ [num 3, num 5],
      fold .sub ⟨8, 12⟩ [num 10, num 6]]),
    shown ⟨9, 1⟩ (fold .add ⟨9, 1⟩ [
      fold .mul ⟨9, 4⟩ [
        num 3,
        fold .add ⟨9, 7⟩ [
          fold .mul ⟨9, 10⟩ [num 2, num 4],
          fold .add ⟨9, 18⟩ [num 3, num 5]]],
      fold .add ⟨10, 4⟩ [fold .sub ⟨10, 7⟩ [num 10, num 7], num 6]]),
    .define "size" (num 2),
    .letIn "size" (.global "size" ⟨12, 7⟩) <| .seq [
      .call "print" ⟨12, 1⟩ [.localVar "size"],
      shown ⟨13, 1⟩ (fold .mul ⟨13, 1⟩ [num 5, .localVar "size"])],
    .define "pi" (num 3.142),
    .define "radius" (num 10),
    .letIn "pi" (.global "pi" ⟨16, 4⟩) <|
      .letIn "radius" (.global "radius" ⟨16, 8⟩) <| .seq [
        shown ⟨16, 1⟩ (fold .mul ⟨16, 1⟩ [
          .localVar "pi",
          fold .mul ⟨16, 7⟩ [.localVar "radius", .localVar "radius"]]),
        .letIn "circumference"
          (fold .mul ⟨17, 22⟩ [num 2, .localVar "pi", .localVar "radius"]) <| .seq [
            .define "circumference" (.localVar "circumference"),
            .call "print" ⟨18, 1⟩ [.localVar "circumference"]]],
    .literal .nil]

/-- Functions of functions. -/
def compoundProcedures : Program where
  name := "run-1.1.5"
  body := .seq [
    defineSquare 1,
    shown ⟨2, 1⟩ (.call "square" ⟨2, 1⟩ [num 21]),
    shown ⟨3, 1⟩ (.call "square" ⟨3, 1⟩ [fold .add ⟨3, 9⟩ [num 2, num 5]]),
    shown ⟨4, 1⟩ (.call "square" ⟨4, 1⟩ [.call "square" ⟨4, 9⟩ [num 3]]),
    .defineFunction "sum-of-squares" 2
      (fold .add ⟨5, 30⟩ [
        .call "square" ⟨5, 33⟩ [.argument 0],
        .call "square" ⟨5, 44⟩ [.argument 1]]),
    shown ⟨6, 1⟩ (.call "sum-of-squares" ⟨6, 1⟩ [num 3, num 4]),
    .defineFunction "f" 1
      (.call "sum-of-squares" ⟨7, 16⟩ [
        fold .add ⟨7, 33⟩ [.argument 0, num 1],
        fold .mul ⟨7, 43⟩ [.argument 0, num 2]]),
    shown ⟨8, 1⟩ (.call "f" ⟨8, 1⟩ [num 5])]

/-- Conditions. The last statement calls a function that is defined nowhere. -/
def conditionals : Program where
  name := "run-1.1.6"
  body := .seq [
    .defineFunction "abs" 1
      (.chain [
        (.binary .greater ⟨2, 10⟩ (.argument 0) (num 0), .argument 0),
        (.binary .equal ⟨3, 10⟩ (.argument 0) (num 0), num 0),
        (.binary .less ⟨4, 10⟩ (.argument 0) (num 0), .negate ⟨4, 18⟩ (.argument 0))]),
    shown ⟨5, 1⟩ (.call "abs" ⟨5, 1⟩ [num (-123)]),
    .defineFunction "abs-with-else" 1
      (.chain [
        (.binary .greaterEq ⟨7, 10⟩ (.argument 0) (num 0), .argument 0),
        (.literal (.boolean true), .negate ⟨8, 12⟩ (.argument 0))]),
    shown ⟨9, 1⟩ (.call "abs-with-else-123" ⟨9, 1⟩ [])]

/-- The factorial of its argument, which calls itself once. -/
def factorialBody : Expr :=
  .cond (.binary .equal ⟨2, 7⟩ (.argument 0) (num 1)) (num 1) <|
    .letIn "previous" (.binary .sub ⟨3, 24⟩ (.argument 0) (num 1)) <|
      .binary .mul ⟨3, 10⟩ (.argument 0) (.call "factorial" ⟨3, 13⟩ [.localVar "previous"])

/-- The Fibonacci number at its argument, which calls itself twice. -/
def fibonacciBody : Expr :=
  .chain [
    (.binary .equal ⟨6, 7⟩ (.argument 0) (num 0), num 0),
    (.binary .equal ⟨7, 7⟩ (.argument 0) (num 1), num 1),
    (.literal (.boolean true),
      .letIn "one-less" (.binary .sub ⟨8, 21⟩ (.argument 0) (num 1)) <|
        .letIn "two-less" (.binary .sub ⟨8, 37⟩ (.argument 0) (num 2)) <|
          .binary .add ⟨8, 12⟩
            (.call "fibb" ⟨8, 15⟩ [.localVar "one-less"])
            (.call "fibb" ⟨8, 31⟩ [.localVar "two-less"]))]

/-- Recursive functions. -/
def recursion : Program where
  name := "run-1.2"
  body := .seq [
    .defineFunction "factorial" 1 factorialBody,
    shown ⟨4, 1⟩ (.call "factorial" ⟨4, 1⟩ [num 10]),
    .defineFunction "fibb" 1 fibonacciBody,
    shown ⟨9, 1⟩ (.call "fibb" ⟨9, 1⟩ [num 10])]

/-- A function that makes another one and applies it at once. -/
def lambdas : Program where
  name := "run-1.3.2"
  body := .seq [
    defineSquare 1,
    .defineFunction "f" 2
      (.letIn "x" (.argument 0) <| .letIn "y" (.argument 1) <|
        .apply
          (.function "lambda" 2
            (.letIn "a-squared" (.call "square" ⟨3, 26⟩ [.argument 0]) <|
              fold .add ⟨3, 17⟩ [
                .binary .mul ⟨3, 20⟩ (.localVar "x") (.localVar "a-squared"),
                .binary .mul ⟨4, 20⟩ (.localVar "y") (.argument 1),
                .binary .mul ⟨5, 20⟩ (.argument 0) (.argument 1)]))
          "lambda" ⟨2, 5⟩ [
            .binary .add ⟨6, 9⟩ (num 1) (.binary .mul ⟨6, 12⟩ (.localVar "x") (.localVar "y")),
            .binary .sub ⟨7, 9⟩ (num 1) (.localVar "y")]),
    shown ⟨8, 1⟩ (.call "f" ⟨8, 1⟩ [num 5, num 5])]

/-- All bundled programs. -/
def programs : List Program :=
  [expressions, compoundProcedures, conditionals, recursion, lambdas]

end Bundle

/-- The program that is meant by a name. -/
def Program.find? (programs : List Program) (name : String) : Option Program :=
  programs.find? (·.isNamed name)

end TracedEval
