import TracedEval.Proofs.Number.Canonical
import TracedEval.Proofs.Reductions

/-!
# The sign of zero

The sum of two doubles is negative zero only if both are, and a difference only if it is negative
zero less positive zero. The builtins `sum` and `sub` accumulate from positive zero, so they never
get to negative zero, as the operators between their arguments do.

* `add_eq_neg_zero_iff` and `sub_eq_neg_zero_iff` are the two operations;
* `foldl_ne_neg_zero` is what they keep while they accumulate;
* `reductions_ne_neg_zero` is the statement about the builtins.
-/

namespace TracedEval

open Float.Model (UnpackedFloat)

/-! ## Sums and differences of doubles -/

theorem unpacked_neg_eq_zero_iff {u : UnpackedFloat} :
    u.neg = .zero .negative ↔ u = .zero .positive := by
  cases u with
  | zero sign =>
    cases sign with
    | positive => exact iff_of_true rfl rfl
    | negative => exact iff_of_false (by rintro ⟨⟩) (by rintro ⟨⟩)
  | notANumber | infinity | finite => exact iff_of_false (by rintro ⟨⟩) (by rintro ⟨⟩)

section Operations

variable {x y : Float}

theorem eq_neg_zero_iff : x = -0 ↔ x.toModel.unpack = .zero .negative :=
  ⟨fun h => h ▸ rfl, fun h => eq_of_unpack_eq h⟩

theorem eq_zero_iff : x = 0 ↔ x.toModel.unpack = .zero .positive :=
  ⟨fun h => h ▸ rfl, fun h => eq_of_unpack_eq h⟩

/-- A sum is negative zero only if both sides are. -/
theorem add_eq_neg_zero_iff : x + y = -0 ↔ x = -0 ∧ y = -0 := by
  obtain ⟨hcanonical, hzero⟩ := (canonical_unpack x).add (canonical_unpack y)
  rw [eq_neg_zero_iff, eq_neg_zero_iff, eq_neg_zero_iff, ← hzero]
  exact hcanonical.pack_eq_zero_iff

/-- A difference is negative zero only if it is negative zero less positive zero. -/
theorem sub_eq_neg_zero_iff : x - y = -0 ↔ x = -0 ∧ y = 0 := by
  obtain ⟨hcanonical, hzero⟩ := (canonical_unpack x).add (canonical_unpack y).neg
  rw [unpacked_neg_eq_zero_iff] at hzero
  rw [← unpacked_sub_eq] at hcanonical hzero
  rw [eq_neg_zero_iff, eq_neg_zero_iff, eq_zero_iff, ← hzero]
  exact hcanonical.pack_eq_zero_iff

end Operations

/-! ## Accumulation -/

/-- What is not negative zero stays so, whatever is added to it or subtracted from it. -/
theorem foldl_ne_neg_zero {f : Float → Float → Float} (hf : ∀ x y, f x y = -0 → x = -0)
    {start : Float} (hstart : start ≠ -0) (xs : List Float) : xs.foldl f start ≠ -0 := by
  induction xs generalizing start with
  | nil => exact hstart
  | cons y ys ih => exact ih fun hzero => hstart (hf start y hzero)

theorem sumNumbers_ne_neg_zero (xs : List Float) : sumNumbers xs ≠ -0 :=
  foldl_ne_neg_zero (fun _ _ hzero => (add_eq_neg_zero_iff.mp hzero).1) (by decide) xs

/-- Putting the first number back does not make negative zero either. -/
theorem subNumbers_ne_neg_zero {xs : List Float} (h : 2 ≤ xs.length) : subNumbers xs ≠ -0 := by
  match xs, h with
  | x :: y :: rest, _ =>
    have hfold : (x :: y :: rest).foldl (· - ·) 0 ≠ -0 :=
      foldl_ne_neg_zero (fun _ _ hzero => (sub_eq_neg_zero_iff.mp hzero).1) (by decide) _
    intro hzero
    have honce := (add_eq_neg_zero_iff.mp hzero).1
    exact hfold (add_eq_neg_zero_iff.mp honce).1

/-- With two or more numbers, whatever they are, `sum` and `sub` come to a number that is not
negative zero. The operators between two numbers do come to it. -/
theorem reductions_ne_neg_zero (xs : List Float) (h : 2 ≤ xs.length) (output : Output) :
    (∃ r, Builtin.sum.call (xs.map .number) output = (.ok (.number r), output) ∧ r ≠ -0) ∧
    (∃ r, Builtin.sub.call (xs.map .number) output = (.ok (.number r), output) ∧ r ≠ -0) ∧
    Operator.add.apply (.number (-0)) (.number (-0)) = .ok (.number (-0)) ∧
    Operator.sub.apply (.number (-0)) (.number 0) = .ok (.number (-0)) := by
  refine ⟨⟨_, call_sum h output, sumNumbers_ne_neg_zero xs⟩,
    ⟨_, call_sub (by omega) output, subNumbers_ne_neg_zero h⟩, ?_, ?_⟩
  · have hsum : (-0 : Float) + -0 = -0 := add_eq_neg_zero_iff.mpr ⟨rfl, rfl⟩
    show Except.ok (Value.number (-0 + -0)) = _
    rw [hsum]
  · have hdifference : (-0 : Float) - 0 = -0 := sub_eq_neg_zero_iff.mpr ⟨rfl, rfl⟩
    show Except.ok (Value.number (-0 - 0)) = _
    rw [hdifference]

/-- Where the operators come to negative zero all the way, the builtins come to positive zero. -/
theorem reductions_ne_neg_zero_zeros :
    let output := Output.new none true
    (∃ r, Builtin.sum.call [.number (-0), .number (-0), .number (-0)] output =
      (.ok (.number r), output) ∧ r ≠ -0) ∧
    (∃ r, Builtin.sub.call [.number (-0), .number 0, .number 0] output =
      (.ok (.number r), output) ∧ r ≠ -0) := by
  intro output
  obtain ⟨hsum, -⟩ := reductions_ne_neg_zero [-0, -0, -0] (by decide) output
  obtain ⟨-, hsub, -⟩ := reductions_ne_neg_zero [-0, 0, 0] (by decide) output
  exact ⟨hsum, hsub⟩

end TracedEval
