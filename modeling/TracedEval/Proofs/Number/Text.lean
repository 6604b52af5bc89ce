import TracedEval.Proofs.Number.Numeral
import TracedEval.Proofs.Number.Parts
import TracedEval.Proofs.Number.Shortest

/-!
# The texts of numbers

`NumberText` says how a number is to be shown, by its shortest digits and the place of the decimal
point among them. The program chooses between the two notations by comparing the number itself with
two bounds. One of them is not a double, so what decides at the bound is what it rounds to;
`bound_le_iff` is that the comparison nevertheless says where the point is.

Texts are read back: the exact decimal that a text writes rounds to the number, and to no other.
-/

namespace TracedEval

open Float.Model (UnpackedFloat)

/-- The text that a number is to have. With `s`, `k` and `e` for its shortest digits, their number and
the place of the point, it is the numeral of these, with a minus in front if the number is
negative. -/
inductive NumberText (x : Float) : List Char → Prop
  | notANumber (h : x.toModel.unpack = .notANumber) : NumberText x "NaN".toList
  | infinity (h : x.toModel.unpack = .infinity .positive) : NumberText x "Infinity".toList
  | negativeInfinity (h : x.toModel.unpack = .infinity .negative) :
    NumberText x "-Infinity".toList
  | zero {sign} (h : x.toModel.unpack = .zero sign) : NumberText x "0".toList
  | positive {a s k e} (h : HasParts x .positive a) (hpos : 0 < a.significand)
    (hdigits : ShortestDigits a s k e) : NumberText x (numeral s k e)
  | negative {a s k e} (h : HasParts x .negative a) (hpos : 0 < a.significand)
    (hdigits : ShortestDigits a s k e) : NumberText x ('-' :: numeral s k e)

/-! ## The bounds of the notations -/

variable {x : Float} {a b : Magnitude} {s k : ℕ} {e p : ℤ}

/-- What is at least as great as the double of a power of ten has its point behind that of the power
of ten. The double itself is shown as the power of ten, which is the shortest decimal that there
is. -/
theorem bound_le_iff (hb : RoundsTo (10 ^ p) b) (hnear : 2 * |10 ^ p - b.value| < 10 ^ (p - 1))
    (h : ShortestDigits a s k e) : b.value ≤ a.value ↔ p < e := by
  constructor
  · intro hle
    by_contra hnot
    have hbelow : (s * 10 ^ (e - k) : ℚ) < 10 ^ p :=
      (h.digits.lt_pow e).trans_le (zpow_le_zpow_right₀ (by norm_num) (by omega))
    obtain rfl : a = b :=
      Magnitude.value_injective (le_antisymm (h.rounds.monotone hb hbelow.le) hle)
    -- The power of ten is a competitor with a single digit.
    have hone : HasDigits 1 1 := ⟨by decide, by decide, by decide⟩
    have hpower : ((1 : ℕ) * 10 ^ (p + 1 - (1 : ℕ)) : ℚ) = 10 ^ p := by
      rw [Nat.cast_one, one_mul, Nat.cast_one, add_sub_cancel_right]
    have hk : k = 1 := le_antisymm (h.fewest 1 1 (p + 1) hone (hpower ▸ hb)) h.digits.pos
    subst hk
    have hnearest := h.nearest 1 (p + 1) hone (hpower ▸ hb)
    rw [hpower] at hnearest
    have hnine : (s : ℚ) ≤ 9 := by
      have hlt : s < 10 := h.digits.lt
      exact_mod_cast Nat.le_of_lt_succ hlt
    have hscale : (10 : ℚ) ^ (e - (1 : ℕ)) ≤ 10 ^ (p - 1) :=
      zpow_le_zpow_right₀ (by norm_num) (by omega)
    have hsingle : (s * 10 ^ (e - (1 : ℕ)) : ℚ) ≤ 9 * 10 ^ (p - 1) := by
      gcongr
    have hten : (10 : ℚ) ^ p = 10 * 10 ^ (p - 1) := by
      rw [zpow_sub_one₀ (by norm_num)]
      ring
    have htriangle := abs_sub_le (10 ^ p) a.value (s * 10 ^ (e - (1 : ℕ)))
    rw [abs_sub_comm a.value] at htriangle
    have hgap := le_abs_self ((10 : ℚ) ^ p - s * 10 ^ (e - (1 : ℕ)))
    linarith
  · intro hlt
    refine hb.monotone h.rounds (le_trans ?_ (h.digits.pow_le e))
    exact zpow_le_zpow_right₀ (by norm_num) (by omega)

/-- The magnitude of the upper bound of positional notation, which is a power of ten. -/
def Magnitude.great : Magnitude where
  significand := 7629394531250000
  exponent := 17
  significand_lt := by decide
  le_exponent := by decide
  normal := by decide

/-- The magnitude of the lower bound, which is not quite a power of ten. -/
def Magnitude.small : Magnitude where
  significand := 4722366482869645
  exponent := -72
  significand_lt := by decide
  le_exponent := by decide
  normal := by decide

theorem great_value : Magnitude.great.value = 10 ^ (21 : ℤ) := by
  norm_num [Magnitude.value, Magnitude.great]

theorem unpack_great :
    (1e21 : Float).toModel.unpack = .finite .positive Magnitude.great.significand
      Magnitude.great.exponent (by decide) := rfl

theorem roundsTo_small : RoundsTo (10 ^ (-6 : ℤ)) Magnitude.small := by
  rw [roundsTo_iff_covers (by decide)]
  refine Magnitude.covers_of_lt (by decide) ?_ ?_
  · norm_num [Magnitude.value, Magnitude.small, Magnitude.stepBelow, Magnitude.step]
  · norm_num [Magnitude.value, Magnitude.small, Magnitude.step]

set_option maxRecDepth 4000 in
theorem unpack_small :
    (1e-6 : Float).toModel.unpack = .finite .positive Magnitude.small.significand
      Magnitude.small.exponent (by decide) := rfl

/-! ## The text of the program -/

section Finite

variable {sign : UnpackedFloat.Sign} {ha : 0 < a.significand}
  (hx : x.toModel.unpack = .finite sign a.significand a.exponent ha)

include hx

theorem great_le_abs_iff (h : ShortestDigits a s k e) : 1e21 ≤ x.abs ↔ 21 < e := by
  rw [le_iff_of_positive unpack_great (unpack_abs hx)]
  refine bound_le_iff (great_value ▸ .refl _) ?_ h
  rw [great_value, sub_self, abs_zero, mul_zero]
  positivity

theorem abs_lt_small_iff (h : ShortestDigits a s k e) : x.abs < 1e-6 ↔ e ≤ -6 := by
  have hnear : 2 * |(10 : ℚ) ^ (-6 : ℤ) - Magnitude.small.value| < 10 ^ (-6 - 1 : ℤ) := by
    norm_num [Magnitude.value, Magnitude.small, abs_lt]
  rw [lt_iff_of_positive (unpack_abs hx) unpack_small, ← not_le,
    bound_le_iff roundsTo_small hnear h, not_lt]

theorem toList_signText :
    (signText x).toList = match sign with
      | .positive => []
      | .negative => ['-'] := by
  rw [signText]
  cases sign with
  | positive =>
    rw [if_neg (mt (lt_zero_iff hx).mp (by simp))]
    rfl
  | negative =>
    rw [if_pos ((lt_zero_iff hx).mpr rfl)]
    rfl

/-- The comparisons choose the notation that the place of the point asks for. -/
theorem toList_formatNumber :
    ∃ s k e, ShortestDigits a s k e ∧
      (formatNumber x).toList = (signText x).toList ++ numeral s k e := by
  have hdecimal : shortestDecimal x = Decimal.shortest .up a.significand a.exponent := by
    rw [shortestDecimal, hx]
  have hshortest := Magnitude.shortestDigits ha .up
  rw [← hdecimal] at hshortest
  refine ⟨_, _, _, hshortest, ?_⟩
  have hsign : 'e' ∉ (signText x).toList := by
    rw [signText]
    split <;> decide
  have hchoice := or_congr (great_le_abs_iff hx hshortest) (abs_lt_small_iff hx hshortest)
  rw [formatNumber_eq, hx]
  by_cases hplace : 21 < (shortestDecimal x).point ∨ (shortestDecimal x).point ≤ -6
  · rw [if_pos (hchoice.mpr hplace), scientificText,
      toList_withPowerSign_scientific _ hsign hshortest.digits,
      toList_scientific_eq_numeral hshortest.digits hplace.symm]
  · rw [if_neg (mt hchoice.mp hplace), positionalText, String.toList_append,
      toList_positional hshortest.digits (by omega) (by omega)]

end Finite

theorem numberText_formatNumber (x : Float) : NumberText x (formatNumber x).toList := by
  cases hx : x.toModel.unpack with
  | notANumber =>
    rw [formatNumber_eq, hx]
    exact .notANumber hx
  | infinity sign =>
    rw [formatNumber_eq, hx]
    cases sign with
    | positive => exact .infinity hx
    | negative => exact .negativeInfinity hx
  | zero sign =>
    rw [formatNumber_eq, hx]
    exact .zero hx
  | finite sign m q h =>
    obtain ⟨a, rfl, rfl⟩ := exists_magnitude hx
    obtain ⟨s, k, e, hdigits, htext⟩ := toList_formatNumber hx
    rw [htext, toList_signText hx]
    cases sign with
    | positive => exact .positive (hasParts_finite h hx) h hdigits
    | negative => exact .negative (hasParts_finite h hx) h hdigits

/-! ## Reading texts back -/

/-- A text that is not that of an infinity or of what is not a number is read as a decimal that
rounds to the number, up to the sign of zero. -/
theorem NumberText.reads {cs : List Char} (h : NumberText x cs) (hfinite : x.isFinite = true) :
    ∃ r y, decimalValue? cs = some r ∧ RoundsToDouble r y ∧ comparedAs? x = comparedAs? y ∧
      (x.toModel.unpack ≠ .zero .negative → x = y) := by
  have hunpacked : x.toModel.unpack.isFinite = true := hfinite
  cases h with
  | notANumber h | infinity h | negativeInfinity h =>
    rw [h] at hunpacked
    cases hunpacked
  | @zero sign h =>
    have hparts : HasParts 0 .positive .zero := hasParts_zero rfl
    refine ⟨0, 0, ?_, ⟨.positive, .zero, hparts, by simp, ?_⟩, ?_, fun hsign => ?_⟩
    · exact (decimalValue?_toDigits 0).trans (by rw [Nat.cast_zero])
    · have hzero : Magnitude.zero.value = |0| := by simp [Magnitude.value, Magnitude.zero]
      exact hzero ▸ .refl _
    · exact comparedAs?_eq_iff.mpr (Or.inr ⟨sign, .positive, h, rfl⟩)
    · rw [h] at hsign
      cases sign with
      | positive => exact eq_of_unpack_eq h
      | negative => exact absurd rfl hsign
  | @positive a s k e h hpos hdigits =>
    have hnonneg : (0 : ℚ) ≤ s * 10 ^ (e - k) := by positivity
    have hread := decimalValue?_of_unsignedValue? (unsignedValue?_numeral hdigits.digits (e := e))
    refine ⟨s * 10 ^ (e - k), x, hread, ⟨.positive, a, h, ?_, ?_⟩, rfl, fun _ => rfl⟩
    · simp [hnonneg.not_gt]
    · rw [abs_of_nonneg hnonneg]
      exact hdigits.rounds
  | @negative a s k e h hpos hdigits =>
    have hpositive : (0 : ℚ) < s * 10 ^ (e - k) :=
      lt_of_lt_of_le (zpow_pos (by norm_num) _) (hdigits.digits.pow_le e)
    refine ⟨-(s * 10 ^ (e - k)), x, ?_, ⟨.negative, a, h, ?_, ?_⟩, rfl, fun _ => rfl⟩
    · show (unsignedValue? _).map _ = _
      rw [unsignedValue?_numeral hdigits.digits, Option.map_some]
    · simp [hpositive]
    · rw [abs_neg, abs_of_pos hpositive]
      exact hdigits.rounds

/-- Every number has the text that it is to have; finite numbers are read back from it, negative
zero apart; and different ones have different texts, the zeros apart. -/
theorem formatNumber_faithful (x : Float) :
    NumberText x (formatNumber x).toList ∧
      (x.isFinite = true → x.toModel.unpack ≠ .zero .negative →
        ∃ r, decimalValue? (formatNumber x).toList = some r ∧ ∀ y, RoundsToDouble r y ↔ y = x) ∧
      ∀ y, x.isFinite = true → y.isFinite = true → x ≠ y → ¬ ((x == 0) = true ∧ (y == 0) = true) →
        formatNumber x ≠ formatNumber y := by
  refine ⟨numberText_formatNumber x, fun hfinite hsign => ?_, fun y hx hy hne hzeros heq => ?_⟩
  · obtain ⟨r, x', hread, hrounds, -, hsame⟩ := (numberText_formatNumber x).reads hfinite
    obtain rfl := hsame hsign
    refine ⟨r, hread, fun y => ⟨fun hy => hy.unique hrounds, ?_⟩⟩
    rintro rfl
    exact hrounds
  · obtain ⟨r, x', hreadx, hroundsx, hsamex, -⟩ := (numberText_formatNumber x).reads hx
    obtain ⟨r', y', hready, hroundsy, hsamey, -⟩ := (numberText_formatNumber y).reads hy
    rw [heq, hready, Option.some_inj] at hreadx
    subst hreadx
    obtain rfl := hroundsx.unique hroundsy
    rcases comparedAs?_eq_iff.mp (hsamex.trans hsamey.symm) with hunpack | ⟨sign, sign', hx', hy'⟩
    · exact hne (eq_of_unpack_eq hunpack)
    · exact hzeros ⟨beq_zero hx', beq_zero hy'⟩

set_option maxRecDepth 4000 in
/-- At the two bounds of the notations. -/
theorem formatNumber_faithful_bounds :
    NumberText 1e-6 (formatNumber 1e-6).toList ∧
      (∃ r, decimalValue? (formatNumber 1e-6).toList = some r ∧
        ∀ y, RoundsToDouble r y ↔ y = 1e-6) ∧
      formatNumber 1e-6 ≠ formatNumber 1e21 := by
  obtain ⟨htext, hread, hapart⟩ := formatNumber_faithful 1e-6
  have hne : (1e-6 : Float) ≠ 1e21 := by
    intro heq
    have hunpack := congrArg (·.toModel.unpack) heq
    simp only [unpack_small, unpack_great] at hunpack
    cases hunpack
  refine ⟨htext, hread rfl ?_, hapart 1e21 rfl rfl hne ?_⟩
  · rw [unpack_small]
    simp
  · rintro ⟨hzero, -⟩
    have hfalse : ((1e-6 : Float) == 0) = false := rfl
    rw [hfalse] at hzero
    cases hzero

example : formatNumber 1e21 = "1e+21" := by decide +kernel
example : formatNumber 1e-6 = "0.000001" := by decide +kernel

end TracedEval
