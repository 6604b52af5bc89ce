import Mathlib.Data.List.Forall2
import TracedEval.Bundle
import TracedEval.Proofs.Shape

/-!
# Operator forms

An operator form with any number of operands is a left fold of the two-place operator. If its
operands only give values, the form does to these what `Operator.fold` does: the first fault ends
it, and it is blamed on the place of the form, whichever operand it is.
-/

namespace TracedEval

/-- The operand has this value, and nothing is changed by evaluating it. -/
def Expr.Yields (run : BodyRunner) (args : List Value) (scope : Scope) (ctx : Context) (e : Expr)
    (value : Value) : Prop :=
  e.eval run args scope ctx = .ok value ctx

/-- An operator between all the values, from left to right. A single value is left as it is, and
without values there is nil. -/
def Operator.fold (op : Operator) : List Value → Except Fault Value
  | [] => .ok .nil
  | first :: rest => rest.foldlM op.apply first

/-- Numbers in front are folded as numbers, by an operator that makes a number of two. -/
theorem Operator.foldlM_numbers {op : Operator} {f : Float → Float → Float}
    (hop : ∀ x y, op.apply (.number x) (.number y) = .ok (.number (f x y))) (x : Float)
    (xs : List Float) (rest : List Value) :
    (xs.map Value.number ++ rest).foldlM op.apply (.number x) =
      rest.foldlM op.apply (.number (xs.foldl f x)) := by
  induction xs generalizing x with
  | nil => rfl
  | cons y ys ih =>
    rw [List.map_cons, List.cons_append, List.foldlM_cons, hop]
    exact ih (f x y)

theorem Operator.fold_numbers {op : Operator} {f : Float → Float → Float}
    (hop : ∀ x y, op.apply (.number x) (.number y) = .ok (.number (f x y))) (x : Float)
    (xs : List Float) : op.fold ((x :: xs).map .number) = .ok (.number (xs.foldl f x)) := by
  have hfold := foldlM_numbers hop x xs []
  rwa [List.append_nil] at hfold

namespace Bundle

variable {run : BodyRunner} {args : List Value} {scope : Scope} {ctx : Context}

/-- One more operand is put to what the form has come to so far. -/
theorem eval_binary {op : Operator} {pos : Position} {left right : Expr}
    {result : Except Fault Value} {value : Value}
    (hleft : left.eval run args scope ctx = .ofWorld ctx (pos.blame result, ctx.world))
    (hright : right.Yields run args scope ctx value) :
    (Expr.binary op pos left right).eval run args scope ctx =
      .ofWorld ctx (pos.blame (result >>= fun x => op.apply x value), ctx.world) := by
  rw [Expr.eval, hleft]
  cases result with
  | error fault => rfl
  | ok x =>
    show (right.eval run args scope ctx).bind _ = _
    rw [hright, Outcome.bind_ok]
    show _ = Outcome.ofWorld ctx (pos.blame (op.apply x value), ctx.world)
    cases op.apply x value <;> rfl

theorem eval_foldl_binary {op : Operator} {pos : Position} {rest : List Expr}
    {values : List Value} (h : List.Forall₂ (Expr.Yields run args scope ctx) rest values)
    {left : Expr} {result : Except Fault Value}
    (hleft : left.eval run args scope ctx = .ofWorld ctx (pos.blame result, ctx.world)) :
    (rest.foldl (fun acc operand => .binary op pos acc operand) left).eval run args scope ctx =
      .ofWorld ctx (pos.blame (result >>= fun x => values.foldlM op.apply x), ctx.world) := by
  induction h generalizing left result with
  | nil =>
    rw [List.foldl_nil, hleft]
    cases result <;> rfl
  | cons hright _ ih =>
    rw [List.foldl_cons, ih (eval_binary hleft hright)]
    cases result <;> rfl

/-- A form with these operands folds their values. -/
theorem eval_fold (op : Operator) (pos : Position) {operands : List Expr} {values : List Value}
    (h : List.Forall₂ (Expr.Yields run args scope ctx) operands values) :
    (fold op pos operands).eval run args scope ctx =
      .ofWorld ctx (pos.blame (op.fold values), ctx.world) := by
  cases h with
  | nil => rfl
  | @cons first value _ _ hfirst hrest =>
    have hleft : first.eval run args scope ctx =
        .ofWorld ctx (pos.blame (.ok value), ctx.world) := hfirst
    exact eval_foldl_binary hrest hleft

end Bundle
end TracedEval
