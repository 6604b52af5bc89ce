import TracedEval.Proofs.Number.Grid

/-!
# Shortest decimals are shortest

`ShortestDigits` says which digits are to be shown for a magnitude: those of a decimal that rounds
to it, as few of them as possible, and among those with as few the nearest. Which one of two equally
near ones it is, is left open. `Decimal.shortest` finds them: it walks from coarse grids to fine
ones, where the places of the digits are those of the value, so what has to be shown is that decimals
with the point in another place cannot do better.
-/

namespace TracedEval

/-- The `k` digits of `s`, with the decimal point `e` places behind the first one of them, are the
fewest that round to the magnitude, and nearest to it among those. -/
structure ShortestDigits (a : Magnitude) (s k : ℕ) (e : ℤ) : Prop where
  digits : HasDigits s k
  rounds : RoundsTo (s * 10 ^ (e - k)) a
  fewest : ∀ (s' k' : ℕ) (e' : ℤ),
    HasDigits s' k' → RoundsTo (s' * 10 ^ (e' - k')) a → k ≤ k'
  nearest : ∀ (s' : ℕ) (e' : ℤ), HasDigits s' k → RoundsTo (s' * 10 ^ (e' - k)) a →
    |(s * 10 ^ (e - k) : ℚ) - a.value| ≤ |(s' * 10 ^ (e' - k) : ℚ) - a.value|

theorem HasDigits.pow_le {s k : ℕ} (h : HasDigits s k) (e : ℤ) :
    (10 : ℚ) ^ (e - 1) ≤ s * 10 ^ (e - k) := by
  have hpos := h.pos
  have hpow : ((10 ^ (k - 1) : ℕ) : ℚ) * 10 ^ (e - k) = 10 ^ (e - 1) :=
    natPow_mul_zpow (k - 1) (by omega)
  rw [← hpow]
  gcongr
  exact h.le

theorem HasDigits.lt_pow {s k : ℕ} (h : HasDigits s k) (e : ℤ) :
    (s * 10 ^ (e - k) : ℚ) < 10 ^ e := by
  have hpow : ((10 ^ k : ℕ) : ℚ) * 10 ^ (e - k) = 10 ^ e := natPow_mul_zpow k (by omega)
  rw [← hpow]
  gcongr
  exact h.lt

theorem trimZeros_of_mod_ne_zero {n : ℕ} {grid : ℤ} (h : n % 10 ≠ 0) :
    Decimal.trimZeros n grid = ⟨n, grid⟩ := by
  rw [Decimal.trimZeros, if_neg fun hzero => h hzero.2]

theorem trimZeros_ten (grid : ℤ) : Decimal.trimZeros 10 grid = ⟨1, grid + 1⟩ := by
  rw [Decimal.trimZeros, if_pos (by decide)]
  exact trimZeros_of_mod_ne_zero (by decide)

namespace Magnitude

variable {a : Magnitude} (ha : 0 < a.significand)

include ha

theorem covers_value : a.interval.Covers a.value := (roundsTo_iff_covers ha).mp (.refl a)

theorem covers_of_lt {r : ℚ} (hlow : a.value - a.stepBelow / 2 < r)
    (hhigh : r < a.value + a.step / 2) : a.interval.Covers r :=
  (a.interval_covers_iff ha).mpr ⟨⟨hlow.le, hhigh.le⟩, fun _ => ⟨hlow.ne', hhigh.ne⟩⟩

theorem pow_point_le : (10 : ℚ) ^ (a.interval.point - 1) ≤ a.value := by
  rw [← a.interval_value]
  exact (RoundingInterval.point_bounds (Nat.mul_pos (by decide) ha)).1

theorem lt_pow_point : a.value < (10 : ℚ) ^ a.interval.point := by
  rw [← a.interval_value]
  exact (RoundingInterval.point_bounds (Nat.mul_pos (by decide) ha)).2

/-! ## Seventeen digits suffice -/

/-- The steps of seventeen digits are narrower than the interval. -/
theorem seventeen_narrow : (10 : ℚ) ^ (a.interval.point - 17) < a.stepBelow / 2 + a.step / 2 := by
  have hlow := pow_point_le ha
  have hlt : (a.significand : ℚ) + 1 ≤ 2 ^ 53 := by exact_mod_cast a.significand_lt
  have hstep := a.step_pos
  rw [← natPow_mul_zpow 16 (z := a.interval.point - 17) (by omega), value, ← step] at hlow
  push_cast at hlow
  rw [stepBelow]
  split
  · rename_i hborder
    rw [hborder.1] at hlow
    push_cast at hlow
    linarith
  · have hvalue : (a.significand : ℚ) * a.step ≤ (2 ^ 53 - 1) * a.step := by
      gcongr
      linarith
    linarith

theorem exists_seventeen : ∃ n : ℕ, a.interval.Covers (n * 10 ^ (a.interval.point - 17)) := by
  have hnarrow := seventeen_narrow ha
  have hbelow := a.interval.below_le (a.interval.point - 17)
  have habove := a.interval.lt_below_succ (a.interval.point - 17)
  rw [a.interval_value] at hbelow habove
  push_cast at habove
  have hstep := a.step_pos
  -- The point just below the value is in the interval, or the next one does not lie beyond it.
  by_cases hin : a.value - a.stepBelow / 2 <
      a.interval.below (a.interval.point - 17) * 10 ^ (a.interval.point - 17)
  · exact ⟨_, covers_of_lt ha hin (by linarith)⟩
  · refine ⟨a.interval.below (a.interval.point - 17) + 1, covers_of_lt ha ?_ ?_⟩
    · push_cast
      linarith [a.stepBelow_pos]
    · push_cast
      linarith

/-! ## Decimals with the point elsewhere -/

/-- Whatever decimal is covered, one with the same number of digits, or a power of ten, with the
point in the place of the value is covered too and no farther away: what lies beyond a power of ten
is farther than the power of ten. -/
theorem exists_on_grid {s k : ℕ} {e : ℤ} (hs : HasDigits s k)
    (h : a.interval.Covers (s * 10 ^ (e - k))) :
    ∃ n : ℕ, a.interval.Covers (n * 10 ^ (a.interval.point - k)) ∧
      |(n * 10 ^ (a.interval.point - k) : ℚ) - a.value| ≤ |(s * 10 ^ (e - k) : ℚ) - a.value| := by
  have hvalue := covers_value ha
  have hlow := pow_point_le ha
  have hhigh := lt_pow_point ha
  rcases lt_trichotomy e a.interval.point with hlt | heq | hgt
  · have hpos := hs.pos
    have hpow : ((10 ^ (k - 1) : ℕ) : ℚ) * 10 ^ (a.interval.point - k) =
        10 ^ (a.interval.point - 1) := natPow_mul_zpow (k - 1) (by omega)
    have hle : (s * 10 ^ (e - k) : ℚ) ≤ 10 ^ (a.interval.point - 1) :=
      (hs.lt_pow e).le.trans (zpow_le_zpow_right₀ (by norm_num) (by omega))
    refine ⟨10 ^ (k - 1), ?_, ?_⟩
    · rw [hpow]
      exact h.between hvalue hle hlow
    · rw [hpow, abs_of_nonpos (by linarith), abs_of_nonpos (by linarith)]
      linarith
  · exact ⟨s, heq ▸ h, heq ▸ le_rfl⟩
  · have hpow : ((10 ^ k : ℕ) : ℚ) * 10 ^ (a.interval.point - k) = 10 ^ a.interval.point :=
      natPow_mul_zpow k (by omega)
    have hle : (10 : ℚ) ^ a.interval.point ≤ s * 10 ^ (e - k) :=
      le_trans (zpow_le_zpow_right₀ (by norm_num) (by omega)) (hs.pow_le e)
    refine ⟨10 ^ k, ?_, ?_⟩
    · rw [hpow]
      exact hvalue.between h hhigh.le hle
    · rw [hpow, abs_of_nonneg (by linarith), abs_of_nonneg (by linarith)]
      linarith

/-! ## The first grid with a point -/

/-- The decimal comes from the first grid that has a point in the interval. -/
theorem exists_first_grid (tie : Tie) :
    ∃ digit n : ℕ, a.interval.nearest? tie (a.interval.point - (digit + 1 : ℕ)) = some n ∧
      (∀ d < digit, a.interval.nearest? tie (a.interval.point - (d + 1 : ℕ)) = none) ∧
      Decimal.shortest tie a.significand a.exponent =
        .trimZeros n (a.interval.point - (digit + 1 : ℕ)) := by
  have hshortest : Decimal.shortest tie a.significand a.exponent =
      ((List.range 17).findSome? fun (digit : ℕ) =>
        (a.interval.nearest? tie (a.interval.point - (digit + 1 : ℕ))).map fun n =>
          Decimal.trimZeros n (a.interval.point - (digit + 1 : ℕ))).getD ⟨0, 0⟩ := rfl
  rw [hshortest]
  cases hfind : (List.range 17).findSome? fun (digit : ℕ) =>
      (a.interval.nearest? tie (a.interval.point - (digit + 1 : ℕ))).map fun n =>
        Decimal.trimZeros n (a.interval.point - (digit + 1 : ℕ)) with
  | none =>
    have hnone := List.findSome?_eq_none_iff.mp hfind 16 (by decide)
    rw [Option.map_eq_none_iff] at hnone
    obtain ⟨n, hn⟩ := exists_seventeen ha
    have hvalue := a.interval_value ▸ covers_value ha
    exact absurd hn (RoundingInterval.not_covers_of_nearest? hvalue hnone n)
  | some d =>
    obtain ⟨before, digit, after, hrange, hdigit, hbefore⟩ := List.findSome?_eq_some_iff.mp hfind
    obtain ⟨n, hn, rfl⟩ := Option.map_eq_some_iff.mp hdigit
    rw [List.range_eq_range'] at hrange
    obtain ⟨count, -, rfl, hrest⟩ := List.range'_eq_append_iff.mp hrange
    obtain ⟨hcount, -, -⟩ := List.range'_eq_cons_iff.mp hrest.symm
    refine ⟨digit, n, hn, fun d hd => ?_, rfl⟩
    have hmem : d ∈ List.range' 0 count := by
      rw [List.mem_range'_1]
      omega
    exact Option.map_eq_none_iff.mp (hbefore d hmem)

/-- On the grid of so many digits there are so many digits to the point that is taken, unless it is
the next power of ten. -/
theorem bounds_of_nearest? {tie : Tie} {digit n : ℕ}
    (h : a.interval.nearest? tie (a.interval.point - (digit + 1 : ℕ)) = some n) :
    10 ^ digit ≤ n ∧ n ≤ 10 ^ (digit + 1) := by
  have hlow := pow_point_le ha
  have hhigh := lt_pow_point ha
  have hbelow := a.interval.below_le (a.interval.point - (digit + 1 : ℕ))
  have habove := a.interval.lt_below_succ (a.interval.point - (digit + 1 : ℕ))
  rw [a.interval_value] at hbelow habove
  have hcandidate : n = a.interval.below (a.interval.point - (digit + 1 : ℕ)) ∨
      n = a.interval.below (a.interval.point - (digit + 1 : ℕ)) + 1 := by
    rcases RoundingInterval.nearest?_cases h with hn | hn
    · exact Or.inl hn.1
    · exact Or.inr hn.1
  generalize a.interval.below (a.interval.point - (digit + 1 : ℕ)) = m at *
  have hstep : (0 : ℚ) < 10 ^ (a.interval.point - (digit + 1 : ℕ)) := zpow_pos (by norm_num) _
  have hm : 10 ^ digit < m + 1 := by
    have hpow : ((10 ^ digit : ℕ) : ℚ) * 10 ^ (a.interval.point - (digit + 1 : ℕ)) =
        10 ^ (a.interval.point - 1) := natPow_mul_zpow digit (by omega)
    rw [← hpow] at hlow
    exact Nat.cast_lt.mp (lt_of_mul_lt_mul_right (hlow.trans_lt habove) hstep.le)
  have hm' : m < 10 ^ (digit + 1) := by
    have hpow : ((10 ^ (digit + 1) : ℕ) : ℚ) * 10 ^ (a.interval.point - (digit + 1 : ℕ)) =
        10 ^ a.interval.point := natPow_mul_zpow (digit + 1) (by omega)
    rw [← hpow] at hhigh
    exact Nat.cast_lt.mp (lt_of_mul_lt_mul_right (hbelow.trans_lt hhigh) hstep.le)
  omega

/-- What is found has as many digits as the grid, and zeros at its end are only left out of a power of
ten on the coarsest grid: otherwise a coarser one would have had the same point. -/
theorem shortest_on_grid (tie : Tie) :
    ∃ digit n : ℕ, a.interval.nearest? tie (a.interval.point - (digit + 1 : ℕ)) = some n ∧
      (∀ d < digit, a.interval.nearest? tie (a.interval.point - (d + 1 : ℕ)) = none) ∧
      HasDigits (Decimal.shortest tie a.significand a.exponent).coefficient (digit + 1) ∧
      ((Decimal.shortest tie a.significand a.exponent).coefficient *
        10 ^ (Decimal.shortest tie a.significand a.exponent).exponent : ℚ) =
        n * 10 ^ (a.interval.point - (digit + 1 : ℕ)) := by
  have hvalue := a.interval_value ▸ covers_value ha
  obtain ⟨digit, n, hn, hfirst, hshortest⟩ := exists_first_grid ha tie
  obtain ⟨hlow, hhigh⟩ := bounds_of_nearest? ha hn
  refine ⟨digit, n, hn, hfirst, ?_⟩
  rw [hshortest]
  by_cases hzero : n % 10 = 0
  · have hcoarsest : digit = 0 := by
      by_contra hfiner
      have hnone := hfirst (digit - 1) (by omega)
      refine RoundingInterval.not_covers_of_nearest? hvalue hnone (n / 10) ?_
      have hsame : ((n / 10 : ℕ) : ℚ) * 10 ^ (a.interval.point - (digit - 1 + 1 : ℕ)) =
          n * 10 ^ (a.interval.point - (digit + 1 : ℕ)) := by
        have hn10 : (n : ℚ) = (n / 10 : ℕ) * (10 ^ 1 : ℕ) := by
          exact_mod_cast (show n = n / 10 * 10 ^ 1 by omega)
        have hpow : ((10 ^ 1 : ℕ) : ℚ) * 10 ^ (a.interval.point - (digit + 1 : ℕ)) =
            10 ^ (a.interval.point - (digit - 1 + 1 : ℕ)) := natPow_mul_zpow 1 (by omega)
        rw [hn10, mul_assoc, hpow]
      rw [hsame]
      exact RoundingInterval.covers_of_nearest? hn
    subst hcoarsest
    obtain rfl : n = 10 := by
      have hpos : 0 < n := hlow
      omega
    rw [trimZeros_ten]
    have hone : HasDigits 1 (0 + 1) := ⟨by decide, by decide, by decide⟩
    refine ⟨hone, ?_⟩
    rw [zpow_add_one₀ (by norm_num)]
    push_cast
    ring
  · rw [trimZeros_of_mod_ne_zero hzero]
    have hne : n ≠ 10 ^ (digit + 1) := by
      intro hpow
      rw [hpow, pow_succ] at hzero
      exact hzero (Nat.mul_mod_left _ 10)
    have hdigits : HasDigits n (digit + 1) := ⟨Nat.succ_pos digit, hlow, lt_of_le_of_ne hhigh hne⟩
    exact ⟨hdigits, rfl⟩

/-- The decimal that is found is shortest, and nearest among the shortest ones. -/
theorem shortestDigits (tie : Tie) :
    ShortestDigits a (Decimal.shortest tie a.significand a.exponent).coefficient
      (decimalLength (Decimal.shortest tie a.significand a.exponent).coefficient)
      (Decimal.shortest tie a.significand a.exponent).point := by
  have hvalue := a.interval_value ▸ covers_value ha
  obtain ⟨digit, n, hn, hfirst, hdigits, hsame⟩ := shortest_on_grid ha tie
  generalize Decimal.shortest tie a.significand a.exponent = d at *
  have hlength := hdigits.decimalLength_eq
  have hexponent : d.point - (decimalLength d.coefficient : ℕ) = d.exponent := by
    rw [Decimal.point]
    omega
  refine ⟨hlength ▸ hdigits, ?_, ?_, ?_⟩
  · rw [hexponent, hsame, roundsTo_iff_covers ha]
    exact RoundingInterval.covers_of_nearest? hn
  · intro s' k' e' hs' hrounds
    rw [roundsTo_iff_covers ha] at hrounds
    obtain ⟨n', hcovers, -⟩ := exists_on_grid ha hs' hrounds
    rw [hlength]
    by_contra hfewer
    have hpos := hs'.pos
    have hnone := hfirst (k' - 1) (by omega)
    rw [Nat.sub_add_cancel hpos] at hnone
    exact RoundingInterval.not_covers_of_nearest? hvalue hnone n' hcovers
  · intro s' e' hs' hrounds
    rw [roundsTo_iff_covers ha] at hrounds
    obtain ⟨n', hcovers, hdistance⟩ := exists_on_grid ha hs' hrounds
    rw [hlength] at hcovers hdistance ⊢
    rw [hlength] at hexponent
    rw [hexponent, hsame]
    refine le_trans ?_ hdistance
    have hnearest := RoundingInterval.nearest_of_nearest? hvalue hn hcovers
    rwa [a.interval_value] at hnearest

end Magnitude

end TracedEval
