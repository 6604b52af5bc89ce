import TracedEval.Proofs.Leading
import TracedEval.Proofs.Number.Rounding

/-!
# Decimal grids

The multiples of a power of ten are a grid. An interval is compared with the grid on natural
numbers, both sides multiplied by a common scale; here the comparisons are turned into what they say
about rationals.

* `contains_iff_covers` is that a point of the grid is tested rightly;
* `nearest_of_nearest?` and `not_covers_of_nearest?` are that the point that is taken is nearest of
  those in the interval, and that there is none if none is taken;
* `point_bounds` is that the decimal point stands in the right place.
-/

namespace TracedEval

/-! ## Numbers of digits -/

theorem length_toDigits (n : ℕ) : (Nat.toDigits 10 n).length = decimalLength n := by
  induction n using Nat.strong_induction_on with
  | _ n ih =>
    rw [decimalLength]
    by_cases hsmall : n < 10
    · rw [if_pos hsmall, Nat.toDigits_of_lt_base hsmall, List.length_singleton]
    · rw [if_neg hsmall, Nat.toDigits_of_base_le (by decide) (by omega), List.length_append,
        ih (n / 10) (by omega), List.length_singleton]

theorem decimalLength_pos (n : ℕ) : 0 < decimalLength n := by
  rw [← length_toDigits]
  exact Nat.length_toDigits_pos

theorem decimalLength_le_iff {n k : ℕ} (hk : 0 < k) : decimalLength n ≤ k ↔ n < 10 ^ k := by
  rw [← length_toDigits, Nat.length_toDigits_le_iff (by decide) hk]

theorem lt_pow_decimalLength (n : ℕ) : n < 10 ^ decimalLength n :=
  (decimalLength_le_iff (decimalLength_pos n)).mp le_rfl

theorem pow_decimalLength_le {n : ℕ} (h : 0 < n) : 10 ^ (decimalLength n - 1) ≤ n := by
  by_contra hlt
  have hpos := decimalLength_pos n
  by_cases hone : decimalLength n = 1
  · rw [hone] at hlt
    omega
  · have hshort : decimalLength n ≤ decimalLength n - 1 :=
      (decimalLength_le_iff (by omega)).mpr (not_le.mp hlt)
    omega

/-- The number has so many digits. -/
structure HasDigits (s k : ℕ) : Prop where
  pos : 0 < k
  le : 10 ^ (k - 1) ≤ s
  lt : s < 10 ^ k

theorem HasDigits.decimalLength_eq {s k : ℕ} (h : HasDigits s k) : decimalLength s = k := by
  have hle := (decimalLength_le_iff h.pos).mpr h.lt
  by_contra hne
  have hpos := decimalLength_pos s
  have hlt : s < 10 ^ (k - 1) := (decimalLength_le_iff (by omega)).mp (by omega)
  exact absurd h.le (not_le.mpr hlt)

/-! ## Powers -/

theorem zpow_mul_pow_toNat {x : ℚ} (hx : x ≠ 0) (z : ℤ) : x ^ z * x ^ (-z).toNat = x ^ z.toNat := by
  rw [← zpow_natCast, ← zpow_natCast, ← zpow_add₀ hx]
  congr 1
  omega

theorem natPow_mul_zpow (k : ℕ) {y z : ℤ} (h : y = k + z) :
    ((10 ^ k : ℕ) : ℚ) * 10 ^ z = 10 ^ y := by
  rw [h, zpow_add₀ (by norm_num), zpow_natCast]
  push_cast
  rfl

/-! ## Comparing units with steps -/

namespace RoundingInterval

variable (i : RoundingInterval) (grid : ℤ)

/-- Units and steps are natural numbers on a common scale. -/
theorem exists_scale :
    ∃ c : ℚ, 0 < c ∧ (∀ m : ℕ, (m * 2 ^ i.unit : ℚ) * c = (m * i.unitScale grid : ℕ)) ∧
      ∀ n : ℕ, (n * 10 ^ grid : ℚ) * c = (n * i.stepScale grid : ℕ) := by
  refine ⟨2 ^ (-i.unit).toNat * 10 ^ (-grid).toNat, by positivity, fun m => ?_, fun n => ?_⟩
  · show _ = ((m * (2 ^ i.unit.toNat * 10 ^ (-grid).toNat) : ℕ) : ℚ)
    push_cast
    rw [← zpow_mul_pow_toNat two_ne_zero i.unit]
    ring
  · show _ = ((n * (2 ^ (-i.unit).toNat * 10 ^ grid.toNat) : ℕ) : ℚ)
    push_cast
    rw [← zpow_mul_pow_toNat (by norm_num) grid]
    ring

section Comparisons

variable (m n : ℕ)

theorem units_le_steps_iff :
    m * 2 ^ i.unit ≤ (n * 10 ^ grid : ℚ) ↔ m * i.unitScale grid ≤ n * i.stepScale grid := by
  obtain ⟨c, hc, hunits, hsteps⟩ := i.exists_scale grid
  rw [← mul_le_mul_iff_of_pos_right hc, hunits, hsteps, Nat.cast_le]

theorem steps_le_units_iff :
    (n * 10 ^ grid : ℚ) ≤ m * 2 ^ i.unit ↔ n * i.stepScale grid ≤ m * i.unitScale grid := by
  obtain ⟨c, hc, hunits, hsteps⟩ := i.exists_scale grid
  rw [← mul_le_mul_iff_of_pos_right hc, hunits, hsteps, Nat.cast_le]

theorem units_lt_steps_iff :
    m * 2 ^ i.unit < (n * 10 ^ grid : ℚ) ↔ m * i.unitScale grid < n * i.stepScale grid := by
  rw [← not_le, steps_le_units_iff, not_le]

theorem steps_lt_units_iff :
    (n * 10 ^ grid : ℚ) < m * 2 ^ i.unit ↔ n * i.stepScale grid < m * i.unitScale grid := by
  rw [← not_le, units_le_steps_iff, not_le]

end Comparisons

theorem contains_iff_covers (n : ℕ) : i.contains grid n = true ↔ i.Covers (n * 10 ^ grid) := by
  rw [contains, Covers]
  by_cases hclosed : i.closed = true
  · rw [if_pos hclosed, if_pos hclosed, Bool.and_eq_true, decide_eq_true_eq, decide_eq_true_eq,
      units_le_steps_iff, steps_le_units_iff]
  · rw [if_neg hclosed, if_neg hclosed, Bool.and_eq_true, decide_eq_true_eq, decide_eq_true_eq,
      units_lt_steps_iff, steps_lt_units_iff]

/-! ## The nearest point -/

/-- The point of the grid just below the value. -/
def below : ℕ := i.value * i.unitScale grid / i.stepScale grid

theorem stepScale_pos : 0 < i.stepScale grid :=
  Nat.mul_pos (Nat.pow_pos (by decide)) (Nat.pow_pos (by decide))

theorem below_le : (i.below grid * 10 ^ grid : ℚ) ≤ i.value * 2 ^ i.unit :=
  (i.steps_le_units_iff grid _ _).mpr (Nat.div_mul_le_self _ _)

theorem lt_below_succ : (i.value * 2 ^ i.unit : ℚ) < (i.below grid + 1 : ℕ) * 10 ^ grid :=
  (i.units_lt_steps_iff grid _ _).mpr
    (Nat.lt_mul_of_div_lt (Nat.lt_succ_self _) (i.stepScale_pos grid))

/-- How far the two points around the value are from it. -/
theorem exists_distances :
    ∃ c : ℚ, 0 < c ∧
      |(i.below grid * 10 ^ grid : ℚ) - i.value * 2 ^ i.unit| * c =
        (i.value * i.unitScale grid - i.below grid * i.stepScale grid : ℕ) ∧
      |((i.below grid + 1 : ℕ) * 10 ^ grid : ℚ) - i.value * 2 ^ i.unit| * c =
        ((i.below grid + 1) * i.stepScale grid - i.value * i.unitScale grid : ℕ) := by
  obtain ⟨c, hc, hunits, hsteps⟩ := i.exists_scale grid
  have hbelow := i.below_le grid
  have habove := i.lt_below_succ grid
  refine ⟨c, hc, ?_, ?_⟩
  · rw [abs_of_nonpos (sub_nonpos.mpr hbelow), neg_sub, sub_mul, hunits, hsteps,
      Nat.cast_sub ((i.steps_le_units_iff grid _ _).mp hbelow)]
  · rw [abs_of_nonneg (sub_nonneg.mpr habove.le), sub_mul, hunits, hsteps,
      Nat.cast_sub ((i.units_le_steps_iff grid _ _).mp habove.le)]

variable {i grid}

/-- Of whatever is covered, one of the two points around the value is nearest to it. -/
theorem Covers.exists_candidate (hvalue : i.Covers (i.value * 2 ^ i.unit)) {n : ℕ}
    (h : i.Covers (n * 10 ^ grid)) :
    ∃ c, (c = i.below grid ∨ c = i.below grid + 1) ∧ i.Covers (c * 10 ^ grid) ∧
      |(c * 10 ^ grid : ℚ) - i.value * 2 ^ i.unit| ≤
        |(n * 10 ^ grid : ℚ) - i.value * 2 ^ i.unit| := by
  have hstep : (0 : ℚ) ≤ 10 ^ grid := by positivity
  have hbelow := i.below_le grid
  have habove := i.lt_below_succ grid
  by_cases hn : n ≤ i.below grid
  · have hle : (n * 10 ^ grid : ℚ) ≤ i.below grid * 10 ^ grid := by gcongr
    refine ⟨i.below grid, Or.inl rfl, h.between hvalue hle hbelow, ?_⟩
    rw [abs_of_nonpos (by linarith), abs_of_nonpos (by linarith)]
    linarith
  · have hle : ((i.below grid + 1 : ℕ) * 10 ^ grid : ℚ) ≤ n * 10 ^ grid := by
      have hsucc : i.below grid + 1 ≤ n := by omega
      gcongr
    refine ⟨i.below grid + 1, Or.inr rfl, hvalue.between h habove.le hle, ?_⟩
    rw [abs_of_nonneg (by linarith), abs_of_nonneg (by linarith)]
    linarith

variable {tie : Tie} {n : ℕ}

/-- If a point is taken, it is one of the two around the value that is in the interval, and the
other one is not in the interval or is at least as far away. -/
theorem nearest?_cases (h : i.nearest? tie grid = some n) :
    (n = i.below grid ∧ i.contains grid (i.below grid) = true ∧
      (i.contains grid (i.below grid + 1) = true →
        i.value * i.unitScale grid - i.below grid * i.stepScale grid ≤
          (i.below grid + 1) * i.stepScale grid - i.value * i.unitScale grid)) ∨
    (n = i.below grid + 1 ∧ i.contains grid (i.below grid + 1) = true ∧
      (i.contains grid (i.below grid) = true →
        (i.below grid + 1) * i.stepScale grid - i.value * i.unitScale grid ≤
          i.value * i.unitScale grid - i.below grid * i.stepScale grid)) := by
  have hpick : ∀ m, tie.pick m = m ∨ tie.pick m = m + 1 := by
    intro m
    unfold Tie.pick
    split <;> omega
  simp only [nearest?] at h
  rw [← below] at h
  split at h
  · rename_i hbelow habove
    rw [Option.some_inj] at h
    rw [← h]
    split
    · exact Or.inl ⟨rfl, hbelow, fun _ => by omega⟩
    · split
      · exact Or.inr ⟨rfl, habove, fun _ => by omega⟩
      · rcases hpick (i.below grid) with hdown | hup
        · exact Or.inl ⟨hdown, hbelow, fun _ => by omega⟩
        · exact Or.inr ⟨hup, habove, fun _ => by omega⟩
  · rename_i hbelow habove
    rw [Option.some_inj] at h
    exact Or.inl ⟨h.symm, hbelow, fun hnot => absurd (habove.symm.trans hnot) Bool.false_ne_true⟩
  · rename_i hbelow habove
    rw [Option.some_inj] at h
    exact Or.inr ⟨h.symm, habove, fun hnot => absurd (hbelow.symm.trans hnot) Bool.false_ne_true⟩
  · cases h

/-- If no point is taken, none of the two is in the interval. -/
theorem nearest?_eq_none (h : i.nearest? tie grid = none) :
    i.contains grid (i.below grid) = false ∧ i.contains grid (i.below grid + 1) = false := by
  simp only [nearest?] at h
  rw [← below] at h
  split at h
  · cases h
  · cases h
  · cases h
  · rename_i hbelow habove
    exact ⟨hbelow, habove⟩

/-- If no point is taken, none is covered. -/
theorem not_covers_of_nearest? (hvalue : i.Covers (i.value * 2 ^ i.unit))
    (h : i.nearest? tie grid = none) (n : ℕ) : ¬ i.Covers (n * 10 ^ grid) := by
  intro hcovers
  obtain ⟨hbelow, habove⟩ := nearest?_eq_none h
  obtain ⟨c, hc, hcovers', -⟩ := hvalue.exists_candidate hcovers
  rw [← contains_iff_covers] at hcovers'
  rcases hc with rfl | rfl
  · exact Bool.false_ne_true (hbelow.symm.trans hcovers')
  · exact Bool.false_ne_true (habove.symm.trans hcovers')

theorem covers_of_nearest? (h : i.nearest? tie grid = some n) : i.Covers (n * 10 ^ grid) := by
  rw [← contains_iff_covers]
  rcases nearest?_cases h with ⟨rfl, hcontains, -⟩ | ⟨rfl, hcontains, -⟩
  · exact hcontains
  · exact hcontains

/-- No covered point is nearer to the value than the one that is taken. -/
theorem nearest_of_nearest? (hvalue : i.Covers (i.value * 2 ^ i.unit))
    (h : i.nearest? tie grid = some n) {n' : ℕ} (hn' : i.Covers (n' * 10 ^ grid)) :
    |(n * 10 ^ grid : ℚ) - i.value * 2 ^ i.unit| ≤
      |(n' * 10 ^ grid : ℚ) - i.value * 2 ^ i.unit| := by
  obtain ⟨c, hc, hcovers, hdistance⟩ := hvalue.exists_candidate hn'
  refine le_trans ?_ hdistance
  rw [← contains_iff_covers] at hcovers
  obtain ⟨scale, hscale, hexcess, hshortfall⟩ := i.exists_distances grid
  rw [← mul_le_mul_iff_of_pos_right hscale]
  rcases nearest?_cases h with ⟨rfl, -, hother⟩ | ⟨rfl, -, hother⟩
  · rcases hc with rfl | rfl
    · exact le_rfl
    · rw [hexcess, hshortfall, Nat.cast_le]
      exact hother hcovers
  · rcases hc with rfl | rfl
    · rw [hexcess, hshortfall, Nat.cast_le]
      exact hother hcovers
    · exact le_rfl

/-! ## The place of the decimal point -/

/-- The value has a power of ten on either side: as a quotient it is at least one and its whole part
says which, or it is less than one and its reciprocal does. -/
theorem point_bounds (h : 0 < i.value) :
    (10 : ℚ) ^ (i.point - 1) ≤ i.value * 2 ^ i.unit ∧
      i.value * 2 ^ i.unit < (10 : ℚ) ^ i.point := by
  have hquotient : (i.value * 2 ^ i.unit : ℚ) =
      (i.value * 2 ^ i.unit.toNat : ℕ) / (2 ^ (-i.unit).toNat : ℕ) := by
    rw [eq_div_iff (by positivity)]
    push_cast
    rw [mul_assoc, zpow_mul_pow_toNat two_ne_zero]
  have hpositive : 0 < i.value * 2 ^ i.unit.toNat := by positivity
  have hdenominator : 0 < 2 ^ (-i.unit).toNat := by positivity
  have hpoint : i.point =
      if 2 ^ (-i.unit).toNat ≤ i.value * 2 ^ i.unit.toNat then
        (decimalLength (i.value * 2 ^ i.unit.toNat / 2 ^ (-i.unit).toNat) : ℤ)
      else 1 - (decimalLength ((2 ^ (-i.unit).toNat - 1) / (i.value * 2 ^ i.unit.toNat)) : ℤ) :=
    rfl
  rw [hquotient, hpoint]
  generalize i.value * 2 ^ i.unit.toNat = n at *
  generalize 2 ^ (-i.unit).toNat = d at *
  have hcast : (0 : ℚ) < (d : ℚ) := Nat.cast_pos.mpr hdenominator
  rw [le_div_iff₀ hcast, div_lt_iff₀ hcast]
  by_cases hle : d ≤ n
  · rw [if_pos hle]
    have hwhole : 0 < n / d := Nat.div_pos hle hdenominator
    have hlength := decimalLength_pos (n / d)
    have hlow : 10 ^ (decimalLength (n / d) - 1) * d ≤ n :=
      le_trans (Nat.mul_le_mul_right d (pow_decimalLength_le hwhole)) (Nat.div_mul_le_self n d)
    have hhigh : n < 10 ^ decimalLength (n / d) * d :=
      Nat.lt_mul_of_div_lt (lt_pow_decimalLength _) hdenominator
    have hpred : (decimalLength (n / d) : ℤ) - 1 = (decimalLength (n / d) - 1 : ℕ) := by omega
    rw [hpred, zpow_natCast, zpow_natCast]
    exact ⟨by exact_mod_cast hlow, by exact_mod_cast hhigh⟩
  · rw [if_neg hle]
    have hwhole : 0 < (d - 1) / n := Nat.div_pos (by omega) hpositive
    have hlength := decimalLength_pos ((d - 1) / n)
    have hlow : d ≤ 10 ^ decimalLength ((d - 1) / n) * n := by
      have hlt : d - 1 < 10 ^ decimalLength ((d - 1) / n) * n :=
        Nat.lt_mul_of_div_lt (lt_pow_decimalLength _) hpositive
      omega
    have hhigh : 10 ^ (decimalLength ((d - 1) / n) - 1) * n < d := by
      have hle' : 10 ^ (decimalLength ((d - 1) / n) - 1) * n ≤ d - 1 :=
        le_trans (Nat.mul_le_mul_right n (pow_decimalLength_le hwhole)) (Nat.div_mul_le_self _ n)
      omega
    have hexp : 1 - (decimalLength ((d - 1) / n) : ℤ) - 1 = -(decimalLength ((d - 1) / n) : ℕ) := by
      omega
    have hexp' : 1 - (decimalLength ((d - 1) / n) : ℤ) =
        -(decimalLength ((d - 1) / n) - 1 : ℕ) := by
      omega
    rw [hexp, hexp', zpow_neg, zpow_neg, zpow_natCast, zpow_natCast,
      inv_mul_le_iff₀ (by positivity), lt_inv_mul_iff₀ (by positivity)]
    exact ⟨by exact_mod_cast hlow, by exact_mod_cast hhigh⟩

end RoundingInterval

end TracedEval
