import TracedEval.Proofs.Folding
import TracedEval.Proofs.Number.Exact

/-!
# Reducing numbers

The builtins `sum` and `sub` come to the same numbers as the operators `+` and `-` between their
arguments, as long as nothing is rounded. The orders in which they accumulate are not the same:
`sum` starts from zero, and `sub` subtracts its first argument as well and makes up for it
afterwards.

* `ExactOn` is that an operation on doubles is an operation on integers, up to `2 ^ 53`, and
  `ExactOn.foldl` that this carries over to folds if all of the numbers together stay below that;
* `denotes_sumNumbers` and `denotes_subNumbers` are the two accumulations;
* `reductions_agree` is the statement about the builtins and the operators.
-/

namespace TracedEval

/-! ## Exact accumulation -/

section Group

variable {α : Type} [AddCommGroup α]

theorem foldl_add (a : α) (rest : List α) : rest.foldl (· + ·) a = a + rest.sum := by
  induction rest generalizing a with
  | nil => simp
  | cons b rest ih => rw [List.foldl_cons, ih, List.sum_cons, add_assoc]

theorem foldl_sub (a : α) (rest : List α) : rest.foldl (· - ·) a = a - rest.sum := by
  induction rest generalizing a with
  | nil => simp
  | cons b rest ih => rw [List.foldl_cons, ih, List.sum_cons, sub_sub]

theorem sumNumbers_cons (a : α) (rest : List α) : sumNumbers (a :: rest) = a + rest.sum := by
  rw [sumNumbers, foldl_add, List.sum_cons, zero_add]

theorem subNumbers_cons (a : α) {rest : List α} (h : rest ≠ []) :
    subNumbers (a :: rest) = a - rest.sum := by
  rw [subNumbers, foldl_sub, List.sum_cons]
  · abel
  · exact h

end Group

/-! ## Accumulation of doubles -/

/-- The operation on doubles is the operation on integers, as far as these are doubles. No result is
farther from zero than both operands together. -/
structure ExactOn (f : Float → Float → Float) (g : ℤ → ℤ → ℤ) : Prop where
  natAbs_le (m n : ℤ) : (g m n).natAbs ≤ m.natAbs + n.natAbs
  denotes {x y : Float} {m n : ℤ} (hx : Denotes x m) (hy : Denotes y n)
    (h : (g m n).natAbs ≤ 2 ^ 53) : Denotes (f x y) (g m n)

theorem exactOn_add : ExactOn (· + ·) (· + ·) where
  natAbs_le := Int.natAbs_add_le
  denotes hx hy h := by
    have hr := representable_intCast h
    rw [Int.cast_add] at hr ⊢
    exact hx.add hy hr

theorem exactOn_sub : ExactOn (· - ·) (· - ·) where
  natAbs_le := Int.natAbs_sub_le
  denotes hx hy h := by
    have hr := representable_intCast h
    rw [Int.cast_sub] at hr ⊢
    exact hx.sub hy hr

/-- How far the integers reach together. -/
def reach (integers : List ℤ) : ℕ := (integers.map Int.natAbs).sum

theorem natAbs_sum_le (integers : List ℤ) : integers.sum.natAbs ≤ reach integers := by
  induction integers with
  | nil => exact le_rfl
  | cons n rest ih =>
    have hadd := Int.natAbs_add_le n rest.sum
    rw [List.sum_cons, reach, List.map_cons, List.sum_cons]
    rw [reach] at ih
    omega

variable {xs : List Float} {integers : List ℤ} {x : Float} {n : ℤ}

/-- Whatever has been accumulated, the integers that are left do not take it too far. -/
theorem ExactOn.foldl {f : Float → Float → Float} {g : ℤ → ℤ → ℤ} (hf : ExactOn f g)
    (h : List.Forall₂ (fun y (m : ℤ) => Denotes y m) xs integers) (hx : Denotes x n)
    (hbound : n.natAbs + reach integers ≤ 2 ^ 53) :
    Denotes (xs.foldl f x) (integers.foldl g n : ℤ) := by
  induction h generalizing x n with
  | nil => exact hx
  | @cons y m ys rest hy _ ih =>
    have hgrow := hf.natAbs_le n m
    have hreach : reach (m :: rest) = m.natAbs + reach rest := rfl
    exact ih (hf.denotes hx hy (by omega)) (by omega)

/-- Nothing is rounded on the way of `sum`. -/
theorem denotes_sumNumbers (h : List.Forall₂ (fun y (m : ℤ) => Denotes y m) xs integers)
    (hbound : reach integers ≤ 2 ^ 53) : Denotes (sumNumbers xs) (integers.sum : ℤ) := by
  have hzero : Denotes 0 (0 : ℤ) := denotes_ofInt (n := 0) (by decide)
  have hfold := exactOn_add.foldl h hzero (by simpa using hbound)
  rwa [foldl_add, zero_add] at hfold

/-- On the way of `sub` the first number is missing twice in the end, and the sum of the others is
never exceeded when it is put back. -/
theorem denotes_subNumbers (h : List.Forall₂ (fun y (m : ℤ) => Denotes y m) xs integers)
    (hx : Denotes x n) (hxs : xs ≠ []) (hbound : n.natAbs + reach integers ≤ 2 ^ 53) :
    Denotes (subNumbers (x :: xs)) (n - integers.sum : ℤ) := by
  have hsum := natAbs_sum_le integers
  have hzero : Denotes 0 (0 : ℤ) := denotes_ofInt (n := 0) (by decide)
  have hfold := exactOn_sub.foldl (.cons hx h) hzero (by simpa [reach] using hbound)
  rw [foldl_sub, List.sum_cons] at hfold
  have honce := exactOn_add.denotes hfold hx (by omega)
  have htwice := exactOn_add.denotes honce hx (by omega)
  rw [subNumbers]
  · convert htwice using 2
    ring
  · exact hxs

/-! ## Values -/

namespace Value

/-- The value is strictly equal to the integer. -/
def IsInteger (v : Value) (n : ℤ) : Prop := v.strictEquals (.number (Float.ofInt n)) = true

theorem isInteger_number_iff (h : n.natAbs ≤ 2 ^ 53) : (number x).IsInteger n ↔ Denotes x n :=
  (denotes_intCast_iff h).symm

/-- Integers are numbers, and each of them stays below the bound. -/
theorem exists_numbers_of_integers {args : List Value} (h : List.Forall₂ IsInteger args integers)
    (hbound : reach integers ≤ 2 ^ 53) :
    ∃ xs, args = xs.map number ∧ List.Forall₂ (fun y (m : ℤ) => Denotes y m) xs integers := by
  induction h with
  | nil => exact ⟨[], rfl, .nil⟩
  | @cons v m args rest hv _ ih =>
    have hreach : reach (m :: rest) = m.natAbs + reach rest := rfl
    obtain ⟨xs, rfl, hxs⟩ := ih (by omega)
    cases v with
    | number y =>
      rw [isInteger_number_iff (by omega)] at hv
      exact ⟨y :: xs, rfl, .cons hv hxs⟩
    | nil | boolean | string | function | builtin => cases hv

theorem numbers_map (b : Builtin) (xs : List Float) : b.numbers (xs.map number) = .ok xs := by
  induction xs with
  | nil => rfl
  | cons x xs ih =>
    rw [List.map_cons, Builtin.numbers, ih]
    rfl

end Value

/-- The builtin takes the arguments to the first value, and the operator between them to the second
one. So does a form of the operator on operands that have these values. -/
structure Reduces (b : Builtin) (op : Operator) (args : List Value) (v w : Value) : Prop where
  builtin (output : Output) : b.call args output = (.ok v, output)
  operator : op.fold args = .ok w
  form {run : BodyRunner} {locals : List Value} {scope : Scope} {ctx : Context}
    {operands : List Expr} (pos : Position)
    (h : List.Forall₂ (Expr.Yields run locals scope ctx) operands args) :
    (Bundle.fold op pos operands).eval run locals scope ctx = .ok w ctx

/-- On numbers it is the accumulations of doubles that matter. -/
theorem exists_reduces {b : Builtin} {op : Operator} {f : Float → Float → Float} {result : Float}
    (hcall : ∀ output, b.call ((x :: xs).map .number) output = (.ok (.number result), output))
    (hop : ∀ x y, op.apply (.number x) (.number y) = .ok (.number (f x y)))
    (hresult : Denotes result n) (hfold : Denotes (xs.foldl f x) n) (hn : n.natAbs ≤ 2 ^ 53) :
    ∃ v w, Reduces b op ((x :: xs).map .number) v w ∧ v.IsInteger n ∧ v.strictEquals w = true := by
  refine ⟨.number result, .number (xs.foldl f x), ⟨hcall, Operator.fold_numbers hop x xs, ?_⟩,
    (Value.isInteger_number_iff hn).mpr hresult, hresult.beq hfold⟩
  intro run locals scope ctx operands pos h
  rw [Bundle.eval_fold op pos h, Operator.fold_numbers hop x xs]
  rfl

theorem call_sum (h : 2 ≤ xs.length) (output : Output) :
    Builtin.sum.call (xs.map .number) output = (.ok (.number (sumNumbers xs)), output) := by
  rw [Builtin.call, List.length_map, if_neg (by omega), Value.numbers_map]
  rfl

theorem call_sub (h : 1 ≤ xs.length) (output : Output) :
    Builtin.sub.call (xs.map .number) output = (.ok (.number (subNumbers xs)), output) := by
  rw [Builtin.call, List.length_map, if_neg (by omega), Value.numbers_map]
  rfl

/-- For integers that reach no farther than `2 ^ 53` together, `sum` and `+` come to their sum, and
`sub` and `-` to the first less the others. Exact numbers have it for all lists. -/
theorem reductions_agree {args : List Value} {first : ℤ} {rest : List ℤ}
    (h : List.Forall₂ Value.IsInteger args (first :: rest)) (hrest : rest ≠ [])
    (hbound : first.natAbs + (rest.map Int.natAbs).sum ≤ 2 ^ 53) :
    (∃ v w, Reduces .sum .add args v w ∧
      v.IsInteger (first + rest.sum) ∧ v.strictEquals w = true) ∧
    (∃ v w, Reduces .sub .sub args v w ∧
      v.IsInteger (first - rest.sum) ∧ v.strictEquals w = true) ∧
    ∀ (q : ℚ) (others : List ℚ), others ≠ [] →
      (sumNumbers (q :: others) = q + others.sum ∧
        sumNumbers (q :: others) = others.foldl (· + ·) q) ∧
      subNumbers (q :: others) = q - others.sum ∧
        subNumbers (q :: others) = others.foldl (· - ·) q := by
  obtain ⟨ys, rfl, hys⟩ := Value.exists_numbers_of_integers h hbound
  obtain ⟨x, xs, hx, hxs, rfl⟩ := List.forall₂_cons_right_iff.mp hys
  have hne : xs ≠ [] := by
    rintro rfl
    exact hrest (List.forall₂_nil_left_iff.mp hxs)
  have hlength : 2 ≤ (x :: xs).length := Nat.succ_le_succ (List.length_pos_of_ne_nil hne)
  have hreach : rest.sum.natAbs ≤ (rest.map Int.natAbs).sum := natAbs_sum_le rest
  refine ⟨?sum, ?sub, fun q others hothers => ⟨⟨?_, ?_⟩, ?_, ?_⟩⟩
  case sum =>
    have hresult := denotes_sumNumbers hys hbound
    have hfold := exactOn_add.foldl hxs hx hbound
    rw [List.sum_cons] at hresult
    rw [foldl_add] at hfold
    exact exists_reduces (call_sum hlength) (fun _ _ => rfl) hresult hfold (by omega)
  case sub =>
    have hresult := denotes_subNumbers hxs hx hne hbound
    have hfold := exactOn_sub.foldl hxs hx hbound
    rw [foldl_sub] at hfold
    exact exists_reduces (call_sub (by omega)) (fun _ _ => rfl) hresult hfold (by omega)
  · exact sumNumbers_cons q others
  · rw [sumNumbers_cons, foldl_add]
  · exact subNumbers_cons q hothers
  · rw [subNumbers_cons q hothers, foldl_sub]

/-- The greatest reach, with a negative zero among the numbers. -/
theorem reductions_agree_limit :
    let args : List Value := [.number (-3), .number 9007199254740989, .number (-0)]
    (∃ v w, Reduces .sum .add args v w ∧ v.IsInteger 9007199254740986 ∧ v.strictEquals w = true) ∧
    ∃ v w, Reduces .sub .sub args v w ∧ v.IsInteger (-9007199254740992) ∧
      v.strictEquals w = true := by
  have hintegers : List.Forall₂ Value.IsInteger
      [.number (-3), .number 9007199254740989, .number (-0)] [-3, 9007199254740989, 0] :=
    .cons rfl (.cons rfl (.cons rfl .nil))
  obtain ⟨hsum, hsub, -⟩ := reductions_agree hintegers (List.cons_ne_nil _ _) (by decide)
  exact ⟨hsum, hsub⟩

end TracedEval
