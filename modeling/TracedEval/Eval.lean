import TracedEval.Context

/-!
# Evaluation

The meaning of compiled bodies. `Expr.eval` follows the structure of a body and leaves the bodies of
the functions it calls to a parameter; `runBody` closes the circle, spending one unit of its bound
on each function body that it enters. The bound thus limits how deeply function bodies nest, not how
long they run.

Operands are evaluated from left to right, and the first failure ends the evaluation. A failing call
leaves its frame on the call stack, also when the failure is handled.
-/

namespace TracedEval

mutual

/-- Evaluates a body with the arguments of the innermost function and the locals in scope. -/
def Expr.eval (run : BodyRunner) (args : List Value) (scope : Scope) (ctx : Context) :
    Expr → Outcome Failure Value
  | .literal value => .ok value.value ctx
  | .argument index => .ok (args[index]?.getD .nil) ctx
  | .letIn name bound body =>
    (bound.eval run args scope ctx).bind fun value ctx =>
      body.eval run args (.bind name value scope) ctx
  | .localVar name => .ok ((scope.get? name).getD .nil) ctx
  | .global name pos => ctx.lookup name pos
  | .call name pos operands =>
    (Expr.evalAll run args scope ctx operands).bind fun values ctx =>
      ctx.call run name pos values
  | .apply callee name pos operands =>
    (callee.eval run args scope ctx).bind fun called ctx =>
    (Expr.evalAll run args scope ctx operands).bind fun values ctx =>
      ctx.callValue run called name pos values
  | .builtin b pos operands =>
    (Expr.evalAll run args scope ctx operands).bind fun values ctx =>
      ctx.builtin b pos values
  | .binary op pos left right =>
    (left.eval run args scope ctx).bind fun x ctx =>
    (right.eval run args scope ctx).bind fun y ctx =>
      match op.apply x y with
      | .ok value => .ok value ctx
      | .error fault => .error ⟨pos, fault⟩ ctx
  | .negate pos operand =>
    (operand.eval run args scope ctx).bind fun x ctx =>
      match x.negate with
      | .ok value => .ok value ctx
      | .error fault => .error ⟨pos, fault⟩ ctx
  | .cond guard branch otherwise =>
    (guard.eval run args scope ctx).bind fun value ctx =>
      if value.isTruthy then branch.eval run args scope ctx
      else otherwise.eval run args scope ctx
  | .seq parts =>
    (Expr.evalAll run args scope ctx parts).bind fun values ctx =>
      .ok (values.getLast?.getD .nil) ctx
  | .raise pos message => .error ⟨pos, .raised message⟩ ctx
  | .function name arity body =>
    let (made, ctx) := ctx.newFunction name arity body scope
    .ok made ctx
  | .define name value =>
    (value.eval run args scope ctx).bind fun x ctx =>
      .ok .nil (ctx.define name x)
  | .depth => .ok (.number (Float.ofNat ctx.callStack.size)) ctx
  | .display operand =>
    (operand.eval run args scope ctx).bind fun x ctx =>
      .ok (.string x.display) ctx
  | .attempt body handler =>
    (body.eval run args scope ctx).handle fun _ ctx => handler.eval run args scope ctx
  | .execute body handler =>
    (Context.settle (body.eval run [] scope ctx)).handle fun _ ctx =>
      handler.eval run args scope ctx

/-- Evaluates bodies one after the other, in the order they stand. -/
def Expr.evalAll (run : BodyRunner) (args : List Value) (scope : Scope) (ctx : Context) :
    List Expr → Outcome Failure (List Value)
  | [] => .ok [] ctx
  | first :: rest =>
    (first.eval run args scope ctx).bind fun value ctx =>
    (Expr.evalAll run args scope ctx rest).bind fun values ctx =>
      .ok (value :: values) ctx

end

/-- Runs the body of a function, with at most `bound` function bodies inside one another. -/
def runBody (bound : Nat) : BodyRunner := fun function args ctx =>
  match bound with
  | 0 => .exhausted
  | bound + 1 => function.body.eval (runBody bound) args function.scope ctx

/-- How deeply function bodies may nest. Without programs run inside programs, the depth limit keeps
them below this; those clear the call stack under the calls that are still going on, and a million
more levels are for them. -/
def Context.nestingBound (ctx : Context) : Nat := ctx.maxDepth + 1000000

namespace Context

/-- Evaluates a body directly: no arguments, no locals, nobody to report a failure. -/
def evaluate (ctx : Context) (body : Expr) : Outcome Failure Value :=
  body.eval (runBody ctx.nestingBound) [] .empty ctx

/-- Runs a program's body; a failure is reported, once. -/
def execute (ctx : Context) (body : Expr) : Outcome RunError Value :=
  settle (ctx.evaluate body)

end Context

end TracedEval
