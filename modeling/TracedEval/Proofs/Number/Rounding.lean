import Mathlib.Algebra.Order.Field.Power
import Mathlib.Algebra.Order.Ring.Rat
import Mathlib.Tactic.Linarith
import Mathlib.Tactic.Ring
import TracedEval.Number.Decimal

/-!
# Rounding to the nearest

What it means that a number rounds to a double, said without computing anything: no other one is
nearer, and of two equally near ones the even one is taken. Exponents have no upper bound here, so
that a number that is too great rounds to something that no double has.

* `Magnitude` is the significand and the exponent of a double in canonical form;
* `RoundsTo` is rounding of numbers to magnitudes. It has at most one result and is monotone;
* `roundsTo_iff_covers` is that the numbers that round to a magnitude are those of its
  `RoundingInterval`.
-/

namespace TracedEval

/-- A magnitude of doubles in canonical form, with exponents unbounded above. -/
structure Magnitude where
  significand : ℕ
  exponent : ℤ
  significand_lt : significand < 2 ^ 53
  le_exponent : -1074 ≤ exponent
  normal : 2 ^ 52 ≤ significand ∨ exponent = -1074

namespace Magnitude

/-- The number that it stands for. -/
def value (a : Magnitude) : ℚ := a.significand * 2 ^ a.exponent

/-- How far it is to the next greater magnitude. -/
def step (a : Magnitude) : ℚ := 2 ^ a.exponent

/-- How far it is to the next smaller magnitude. -/
def stepBelow (a : Magnitude) : ℚ :=
  if a.significand = 2 ^ 52 ∧ -1074 < a.exponent then a.step / 2 else a.step

variable {a b : Magnitude}

theorem step_pos (a : Magnitude) : 0 < a.step := zpow_pos (by norm_num) _

theorem stepBelow_pos (a : Magnitude) : 0 < a.stepBelow := by
  have hstep := a.step_pos
  rw [stepBelow]
  split <;> linarith

theorem value_pos (h : 0 < a.significand) : 0 < a.value := mul_pos (Nat.cast_pos.mpr h) a.step_pos

theorem value_nonneg (a : Magnitude) : 0 ≤ a.value :=
  mul_nonneg (Nat.cast_nonneg _) a.step_pos.le

/-! ## The order of magnitudes -/

/-- Whatever has a greater exponent is at least as great as all significands of this one. -/
theorem le_value_of_exponent_lt (h : a.exponent < b.exponent) : 2 ^ 53 * a.step ≤ b.value := by
  have hnormal : 2 ^ 52 ≤ b.significand := by
    have hleast := a.le_exponent
    rcases b.normal with hb | hb
    · exact hb
    · omega
  have hstep : 2 * a.step ≤ b.step := by
    have htwo : (2 : ℚ) * a.step = 2 ^ (a.exponent + 1) := by
      rw [zpow_add_one₀ (by norm_num), mul_comm, step]
    rw [htwo, step]
    exact zpow_le_zpow_right₀ (by norm_num) h
  calc (2 : ℚ) ^ 53 * a.step = 2 ^ 52 * (2 * a.step) := by ring
    _ ≤ 2 ^ 52 * b.step := by gcongr
    _ ≤ b.value := by
      rw [value]
      gcongr
      · exact b.step_pos.le
      · exact_mod_cast hnormal
      · exact le_rfl

theorem add_step_eq (a : Magnitude) : a.value + a.step = (a.significand + 1) * a.step := by
  rw [value, step]
  ring

theorem add_step_le_of_exponent_lt (h : a.exponent < b.exponent) : a.value + a.step ≤ b.value := by
  have hlt : (a.significand : ℚ) + 1 ≤ 2 ^ 53 := by exact_mod_cast a.significand_lt
  rw [add_step_eq]
  calc ((a.significand : ℚ) + 1) * a.step ≤ 2 ^ 53 * a.step := by gcongr; exact a.step_pos.le
    _ ≤ b.value := le_value_of_exponent_lt h

/-- Magnitudes are ordered by their exponents, and with equal ones by their significands. -/
theorem value_lt_iff :
    a.value < b.value ↔
      a.exponent < b.exponent ∨ a.exponent = b.exponent ∧ a.significand < b.significand := by
  have hfrom : ∀ {a b : Magnitude}, a.exponent < b.exponent → a.value < b.value := fun h =>
    lt_of_lt_of_le (lt_add_of_pos_right _ (step_pos _)) (add_step_le_of_exponent_lt h)
  rcases lt_trichotomy a.exponent b.exponent with hlt | heq | hgt
  · simp only [hlt, true_or, hfrom hlt]
  · have hscale : a.step = b.step := by rw [step, step, heq]
    have hvalues : a.value < b.value ↔ a.significand < b.significand := by
      show a.significand * a.step < b.significand * b.step ↔ _
      rw [← hscale, mul_lt_mul_iff_of_pos_right a.step_pos, Nat.cast_lt]
    simp only [hvalues, heq, lt_irrefl, false_or, true_and]
  · simp only [hgt.not_gt, hgt.ne', false_and, or_false, iff_false, not_lt, (hfrom hgt).le]

theorem value_injective (h : a.value = b.value) : a = b := by
  have hnot : ¬ a.value < b.value ∧ ¬ b.value < a.value := ⟨h.not_lt, h.not_gt⟩
  rw [value_lt_iff, value_lt_iff] at hnot
  obtain ⟨m, p, _, _, _⟩ := a
  obtain ⟨n, q, _, _, _⟩ := b
  obtain ⟨rfl, rfl⟩ : m = n ∧ p = q := by
    simp only at hnot
    omega
  rfl

/-- Exponents are compared first, then significands. -/
theorem compare_value (a b : Magnitude) :
    (compare a.exponent b.exponent).then (compare a.significand b.significand) =
      compare a.value b.value := by
  rcases lt_trichotomy a.value b.value with hlt | heq | hgt
  · rw [compare_lt_iff_lt.mpr hlt, Ordering.then_eq_lt, compare_lt_iff_lt, compare_lt_iff_lt,
      compare_eq_iff_eq]
    exact value_lt_iff.mp hlt
  · obtain rfl := value_injective heq
    rw [Std.compare_self, Std.compare_self, Std.compare_self]
    rfl
  · rw [compare_gt_iff_gt.mpr hgt, Ordering.then_eq_gt, compare_gt_iff_gt, compare_gt_iff_gt,
      compare_eq_iff_eq]
    exact (value_lt_iff.mp hgt).imp_right (And.imp_left Eq.symm)

/-! ## Neighbours -/

theorem add_step_le (h : a.value < b.value) : a.value + a.step ≤ b.value := by
  rcases value_lt_iff.mp h with hexp | ⟨hexp, hsig⟩
  · exact add_step_le_of_exponent_lt hexp
  · have hsucc : (a.significand : ℚ) + 1 ≤ b.significand := by exact_mod_cast hsig
    rw [add_step_eq, value, ← hexp, ← step]
    gcongr
    exact a.step_pos.le

theorem exists_next (a : Magnitude) : ∃ b : Magnitude, b.value = a.value + a.step := by
  have hnormal := a.normal
  have hleast := a.le_exponent
  by_cases hcarry : a.significand + 1 < 2 ^ 53
  · refine ⟨⟨a.significand + 1, a.exponent, hcarry, hleast, by omega⟩, ?_⟩
    rw [add_step_eq, value, step]
    push_cast
    rfl
  · have hlast : a.significand + 1 = 2 ^ 53 := by
      have := a.significand_lt
      omega
    refine ⟨⟨2 ^ 52, a.exponent + 1, by omega, by omega, Or.inl le_rfl⟩, ?_⟩
    have hcast : (a.significand : ℚ) + 1 = 2 ^ 53 := by exact_mod_cast hlast
    rw [add_step_eq, hcast, value, step]
    push_cast
    rw [zpow_add_one₀ (by norm_num)]
    ring

/-- The next smaller magnitude has half the step if its exponent is smaller. -/
theorem exists_previous (h : 0 < a.significand) :
    ∃ b : Magnitude, b.value = a.value - a.stepBelow ∧ b.step = a.stepBelow := by
  have hnormal := a.normal
  have hleast := a.le_exponent
  have hlt := a.significand_lt
  by_cases hborder : a.significand = 2 ^ 52 ∧ -1074 < a.exponent
  · have hhalf : (2 : ℚ) ^ (a.exponent - 1) = a.stepBelow := by
      rw [stepBelow, if_pos hborder, step, zpow_sub_one₀ (by norm_num), div_eq_mul_inv]
    refine ⟨⟨2 ^ 53 - 1, a.exponent - 1, by omega, by omega, Or.inl (by omega)⟩, ?_, hhalf⟩
    have hdouble : a.step = 2 * a.stepBelow := by
      rw [stepBelow, if_pos hborder]
      ring
    show ((2 ^ 53 - 1 : ℕ) : ℚ) * 2 ^ (a.exponent - 1) = a.significand * a.step - a.stepBelow
    rw [hhalf, hdouble, hborder.1]
    push_cast
    ring
  · refine ⟨⟨a.significand - 1, a.exponent, by omega, hleast, by omega⟩, ?_, ?_⟩
    · show ((a.significand - 1 : ℕ) : ℚ) * a.step = a.significand * a.step - a.stepBelow
      rw [stepBelow, if_neg hborder, Nat.cast_pred h]
      ring
    · rw [stepBelow, if_neg hborder, step, step]

theorem le_sub_stepBelow (h : b.value < a.value) : b.value ≤ a.value - a.stepBelow := by
  have hpos : 0 < a.significand := by
    by_contra hzero
    have hvalue : a.value = 0 := by simp [value, Nat.eq_zero_of_not_pos hzero]
    linarith [b.value_nonneg]
  obtain ⟨c, hvalue, hstep⟩ := exists_previous hpos
  by_contra hbetween
  have hnext := add_step_le (a := c) (b := b) (by linarith)
  linarith

end Magnitude

/-! ## Rounding -/

/-- The number rounds to the magnitude: no other one is nearer, and if one is equally near the
significand is even. -/
structure RoundsTo (r : ℚ) (a : Magnitude) : Prop where
  nearest : ∀ b : Magnitude, |r - a.value| ≤ |r - b.value|
  even : ∀ b : Magnitude, b ≠ a → |r - b.value| = |r - a.value| → a.significand % 2 = 0

/-- The interval of the numbers that round to the magnitude. -/
def Magnitude.interval (a : Magnitude) : RoundingInterval := .ofCanonical a.significand a.exponent

namespace RoundingInterval

/-- The number lies in the interval. -/
def Covers (i : RoundingInterval) (r : ℚ) : Prop :=
  if i.closed then i.lower * 2 ^ i.unit ≤ r ∧ r ≤ i.upper * 2 ^ i.unit
  else i.lower * 2 ^ i.unit < r ∧ r < i.upper * 2 ^ i.unit

theorem Covers.between {i : RoundingInterval} {r s t : ℚ} (hr : i.Covers r) (ht : i.Covers t)
    (hrs : r ≤ s) (hst : s ≤ t) : i.Covers s := by
  by_cases hclosed : i.closed = true
  · rw [Covers, if_pos hclosed] at *
    exact ⟨hr.1.trans hrs, hst.trans ht.2⟩
  · rw [Covers, if_neg hclosed] at *
    exact ⟨hr.1.trans_le hrs, hst.trans_lt ht.2⟩

end RoundingInterval

namespace Magnitude

variable (a : Magnitude)

theorem interval_value : a.interval.value * 2 ^ a.interval.unit = a.value := by
  show ((4 * a.significand : ℕ) : ℚ) * 2 ^ (a.exponent - 2) = _
  rw [value, zpow_sub₀ (by norm_num)]
  push_cast
  ring

theorem interval_upper : a.interval.upper * 2 ^ a.interval.unit = a.value + a.step / 2 := by
  show ((4 * a.significand + 2 : ℕ) : ℚ) * 2 ^ (a.exponent - 2) = _
  rw [value, step, zpow_sub₀ (by norm_num)]
  push_cast
  ring

theorem interval_lower (h : 0 < a.significand) :
    a.interval.lower * 2 ^ a.interval.unit = a.value - a.stepBelow / 2 := by
  show ((4 * a.significand - (if a.significand = 2 ^ 52 ∧ -1074 < a.exponent then 1 else 2) : ℕ) *
    2 ^ (a.exponent - 2) : ℚ) = _
  rw [stepBelow, value, step, zpow_sub₀ (by norm_num)]
  split
  · rw [Nat.cast_sub (by omega)]
    push_cast
    ring
  · rw [Nat.cast_sub (by omega)]
    push_cast
    ring

/-- The interval reaches halfway to the neighbours, and so far only for an even significand. -/
theorem interval_covers_iff (h : 0 < a.significand) {r : ℚ} :
    a.interval.Covers r ↔
      (a.value - a.stepBelow / 2 ≤ r ∧ r ≤ a.value + a.step / 2) ∧
        (a.significand % 2 ≠ 0 → r ≠ a.value - a.stepBelow / 2 ∧ r ≠ a.value + a.step / 2) := by
  have hclosed : a.interval.closed = true ↔ a.significand % 2 = 0 := decide_eq_true_iff
  rw [RoundingInterval.Covers, a.interval_lower h, a.interval_upper]
  by_cases heven : a.significand % 2 = 0
  · rw [if_pos (hclosed.mpr heven)]
    exact ⟨fun hr => ⟨hr, fun hodd => absurd heven hodd⟩, fun hr => hr.1⟩
  · rw [if_neg (mt hclosed.mp heven), lt_iff_le_and_ne, lt_iff_le_and_ne]
    constructor
    · rintro ⟨⟨hlow, hlow'⟩, hhigh, hhigh'⟩
      exact ⟨⟨hlow, hhigh⟩, fun _ => ⟨hlow'.symm, hhigh'⟩⟩
    · rintro ⟨⟨hlow, hhigh⟩, hends⟩
      exact ⟨⟨hlow, (hends heven).1.symm⟩, hhigh, (hends heven).2⟩

end Magnitude

theorem abs_sub_le_iff_of_lt {x y r : ℚ} (h : x < y) : |r - x| ≤ |r - y| ↔ r ≤ (x + y) / 2 := by
  rw [← sq_le_sq]
  constructor
  · intro hle
    nlinarith
  · intro hle
    nlinarith

theorem le_abs_sub_iff_of_lt {x y r : ℚ} (h : x < y) : |r - y| ≤ |r - x| ↔ (x + y) / 2 ≤ r := by
  rw [← sq_le_sq]
  constructor
  · intro hle
    nlinarith
  · intro hle
    nlinarith

variable {a b : Magnitude} {r s : ℚ}

theorem RoundsTo.refl (a : Magnitude) : RoundsTo a.value a where
  nearest b := by
    rw [sub_self, abs_zero]
    exact abs_nonneg _
  even b hne heq := by
    rw [sub_self, abs_zero, abs_eq_zero, sub_eq_zero] at heq
    exact absurd (Magnitude.value_injective heq.symm) hne

/-- A magnitude's interval is what rounds to it. -/
theorem roundsTo_iff_covers (h : 0 < a.significand) : RoundsTo r a ↔ a.interval.Covers r := by
  rw [a.interval_covers_iff h]
  have hstep := a.step_pos
  have hbelow := a.stepBelow_pos
  constructor
  · intro hr
    obtain ⟨next, hnext⟩ := a.exists_next
    obtain ⟨previous, hprevious, -⟩ := Magnitude.exists_previous h
    have hupper := (abs_sub_le_iff_of_lt (by linarith)).mp (hr.nearest next)
    have hlower := (le_abs_sub_iff_of_lt (by linarith)).mp (hr.nearest previous)
    refine ⟨⟨by linarith, by linarith⟩, fun hodd => ⟨fun hend => hodd ?_, fun hend => hodd ?_⟩⟩
    · have hne : previous ≠ a := by
        rintro rfl
        linarith
      refine hr.even previous hne (le_antisymm ?_ (hr.nearest previous))
      rw [abs_sub_le_iff_of_lt (by linarith)]
      linarith
    · have hne : next ≠ a := by
        rintro rfl
        linarith
      refine hr.even next hne (le_antisymm ?_ (hr.nearest next))
      rw [le_abs_sub_iff_of_lt (by linarith)]
      linarith
  · rintro ⟨⟨hlower, hupper⟩, hends⟩
    refine ⟨fun b => ?_, fun b hne heq => ?_⟩
    · rcases lt_trichotomy b.value a.value with hlt | heq | hgt
      · rw [le_abs_sub_iff_of_lt hlt]
        linarith [Magnitude.le_sub_stepBelow hlt]
      · rw [heq]
      · rw [abs_sub_le_iff_of_lt hgt]
        linarith [Magnitude.add_step_le hgt]
    · by_contra hodd
      obtain ⟨hlower', hupper'⟩ := hends hodd
      rcases lt_trichotomy b.value a.value with hlt | hsame | hgt
      · have hmiddle := (abs_sub_le_iff_of_lt hlt).mp heq.le
        exact hlower' (le_antisymm (by linarith [Magnitude.le_sub_stepBelow hlt]) hlower)
      · exact hne (Magnitude.value_injective hsame)
      · have hmiddle := (le_abs_sub_iff_of_lt hgt).mp heq.le
        exact hupper' (le_antisymm hupper (by linarith [Magnitude.add_step_le hgt]))

/-- What rounds to two different magnitudes would be halfway between two neighbours, which are not
both even. -/
theorem RoundsTo.value_le (ha : RoundsTo r a) (hb : RoundsTo r b) : b.value ≤ a.value := by
  rw [← not_lt]
  intro hlt
  have hupper := (abs_sub_le_iff_of_lt hlt).mp (ha.nearest b)
  have hlower := (le_abs_sub_iff_of_lt hlt).mp (hb.nearest a)
  have hne : a ≠ b := by
    rintro rfl
    exact lt_irrefl _ hlt
  have heq := le_antisymm (ha.nearest b) (hb.nearest a)
  have heven := ha.even b hne.symm heq.symm
  have heven' := hb.even a hne heq
  -- What lies between them would be nearer than both, so they are neighbours.
  have hneighbours : b.value = a.value + a.step := by
    obtain ⟨next, hnext⟩ := a.exists_next
    have hreach := (abs_sub_le_iff_of_lt (by linarith [a.step_pos])).mp (ha.nearest next)
    linarith [Magnitude.add_step_le hlt]
  rw [Magnitude.add_step_eq] at hneighbours
  rcases Magnitude.value_lt_iff.mp hlt with hexp | ⟨hexp, -⟩
  · have hgreat := Magnitude.le_value_of_exponent_lt hexp
    rw [hneighbours, mul_le_mul_iff_of_pos_right a.step_pos] at hgreat
    have hlast : 2 ^ 53 ≤ a.significand + 1 := by exact_mod_cast hgreat
    have := a.significand_lt
    omega
  · have hscale : b.value = b.significand * a.step := by
      rw [Magnitude.value, Magnitude.step, hexp]
    rw [hscale, mul_left_inj' a.step_pos.ne'] at hneighbours
    have hsucc : b.significand = a.significand + 1 := by exact_mod_cast hneighbours
    omega

/-- There is at most one rounding. -/
theorem RoundsTo.unique (ha : RoundsTo r a) (hb : RoundsTo r b) : a = b :=
  Magnitude.value_injective (le_antisymm (hb.value_le ha) (ha.value_le hb))

/-- Rounding is monotone. -/
theorem RoundsTo.monotone (ha : RoundsTo r a) (hb : RoundsTo s b) (h : r ≤ s) :
    a.value ≤ b.value := by
  rcases h.lt_or_eq with hlt | rfl
  · by_contra hgt
    have hvalues : b.value < a.value := not_le.mp hgt
    have hr := (le_abs_sub_iff_of_lt hvalues).mp (ha.nearest b)
    have hs := (abs_sub_le_iff_of_lt hvalues).mp (hb.nearest a)
    linarith
  · rw [ha.unique hb]

end TracedEval
