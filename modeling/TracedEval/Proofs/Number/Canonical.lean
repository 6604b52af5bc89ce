import TracedEval.Proofs.Number.Exact

/-!
# Canonical form

What a double unpacks to is in canonical form, and so is what a sum or a difference is before it is
packed. Packing keeps it, but for numbers that are too great.

Sums and differences are multiples of the least double, so that rounding takes nothing to zero that
was not zero before. This is why a sum is negative zero only if both sides are.

* `exists_magnitude_round` is that rounding keeps what is not zero;
* `Canonical` is canonical form, with exponents unbounded above, and `canonical_unpack` that doubles
  have it;
* `Canonical.add` is that sums have it, and when they are negative zero.
-/

namespace TracedEval

open Float.Model (UnpackedFloat totalExponent)
open Float.Model.Format (binary64)
open Float.Model.UnpackedFloat (Sign Accuracy ExtendedMantissa decreaseExponent normalize
  roundWithAccuracy shiftToExponent shiftToTargetExponent)

/-! ## Rounding keeps what is not zero -/

theorem mantissa_shiftRight (em : ExtendedMantissa) (k : ℕ) :
    (em >>> k).mantissa = em.mantissa / 2 ^ k := by
  show (k.repeat ExtendedMantissa.shiftRightOne em).mantissa = _
  induction k with
  | zero => rw [Nat.repeat, pow_zero, Nat.div_one]
  | succ k ih =>
    rw [Nat.repeat, ExtendedMantissa.shiftRightOne, ih, Nat.div_div_eq_div_mul, pow_succ]

theorem le_roundedMantissa (em : ExtendedMantissa) : em.mantissa ≤ em.roundedMantissa := by
  rw [ExtendedMantissa.roundedMantissa]
  cases em.accuracy with
  | exact => exact le_rfl
  | inexact relative => cases relative <;> simp [Accuracy.roundToNearestEven]

variable {m : ℕ} {q : ℤ}

theorem targetExponent_totalExponent (m : ℕ) (q : ℤ) :
    binary64.targetExponent (totalExponent m q) = max (m.log2 + 1 + q - 53) (-1074) := rfl

/-- The digits that are left at the target exponent are those of a magnitude. No digits may have to
be added, and at an exponent of doubles there is always one left. -/
theorem exists_magnitude_shift (hm : 0 < m) (hleast : -1074 ≤ q)
    (hq : q ≤ binary64.targetExponent (totalExponent m q)) :
    ∃ a : Magnitude, 0 < a.significand ∧
      (shiftToTargetExponent binary64 m q .exact).1.mantissa = a.significand ∧
      (shiftToTargetExponent binary64 m q .exact).2 = a.exponent := by
  rw [targetExponent_totalExponent] at hq
  have hlow := Nat.log2_self_le hm.ne'
  have hhigh := Nat.lt_log2_self (n := m)
  rw [shiftToTargetExponent, shiftToExponent, targetExponent_totalExponent]
  dsimp only
  rw [mantissa_shiftRight]
  show ∃ a : Magnitude, 0 < a.significand ∧ m / 2 ^ _ = a.significand ∧ _
  by_cases hlog : 52 ≤ m.log2
  · -- 53 digits are left
    obtain ⟨k, hk⟩ := Nat.exists_eq_add_of_le hlog
    have hshift : (max ((m.log2 : ℤ) + 1 + q - 53) (-1074) - q).toNat = k := by omega
    rw [hk, pow_add] at hlow
    rw [hk, show 52 + k + 1 = 53 + k by omega, pow_add] at hhigh
    have hnormal : 2 ^ 52 ≤ m / 2 ^ k := (Nat.le_div_iff_mul_le (by positivity)).mpr hlow
    have hlt : m / 2 ^ k < 2 ^ 53 := (Nat.div_lt_iff_lt_mul (by positivity)).mpr hhigh
    rw [hshift]
    exact ⟨⟨m / 2 ^ k, q + k, hlt, by omega, .inl hnormal⟩, by dsimp only; omega, rfl, rfl⟩
  · -- nothing is shifted
    have hshift : (max ((m.log2 : ℤ) + 1 + q - 53) (-1074) - q).toNat = 0 := by omega
    have hlt : m < 2 ^ 53 := hhigh.trans_le (Nat.pow_le_pow_right (by decide) (by omega))
    rw [hshift, pow_zero, Nat.div_one, Nat.cast_zero, add_zero]
    exact ⟨⟨m, q, hlt, hleast, .inr (by omega)⟩, hm, rfl, rfl⟩

theorem exists_magnitude_roundWithAccuracy (sign : Sign) (hm : 0 < m) (hleast : -1074 ≤ q)
    (hq : q ≤ binary64.targetExponent (totalExponent m q)) :
    ∃ (a : Magnitude) (h : 0 < a.significand),
      roundWithAccuracy binary64 sign m q .exact = .finite sign a.significand a.exponent h := by
  obtain ⟨a, ha, hmantissa, hexponent⟩ := exists_magnitude_shift hm hleast hq
  simp only [roundWithAccuracy]
  rw [hexponent]
  have hrounded := le_roundedMantissa (shiftToTargetExponent binary64 m q .exact).1
  rw [hmantissa] at hrounded
  generalize (shiftToTargetExponent binary64 m q .exact).1.roundedMantissa = rounded at hrounded
  -- rounding up may have made one digit too many, which is shifted out
  have hagain : a.exponent ≤ binary64.targetExponent (totalExponent rounded a.exponent) := by
    rw [targetExponent_totalExponent]
    rcases a.normal with hnormal | hsubnormal
    · have hlog : 52 ≤ rounded.log2 := (Nat.le_log2 (by omega)).mpr (hnormal.trans hrounded)
      omega
    · omega
  obtain ⟨b, hb, hmantissa', hexponent'⟩ :=
    exists_magnitude_shift (ha.trans_le hrounded) a.le_exponent hagain
  refine ⟨b, hb, ?_⟩
  rw [dif_neg (by omega)]
  simp only [hmantissa', hexponent']

/-- A number that is not zero is not rounded to zero, if its exponent is one of doubles. -/
theorem exists_magnitude_round (sign : Sign) (hm : 0 < m) (hleast : -1074 ≤ q) :
    ∃ (a : Magnitude) (h : 0 < a.significand),
      UnpackedFloat.round binary64 sign m q = .finite sign a.significand a.exponent h := by
  have htarget := targetExponent_totalExponent m q
  simp only [UnpackedFloat.round, decreaseExponent]
  generalize hj : (q - binary64.targetExponent (totalExponent m q)).toNat = j
  rw [Nat.shiftLeft_eq]
  have hsame : binary64.targetExponent (totalExponent (m * 2 ^ j) (q - j)) =
      binary64.targetExponent (totalExponent m q) := by
    rw [totalExponent_mul_two_pow hm, sub_add_cancel]
  exact exists_magnitude_roundWithAccuracy sign (by positivity) (by omega) (by omega)

/-! ## Canonical form -/

/-- The unpacked double is in canonical form. Its exponent may be too great for a double. -/
inductive Canonical : UnpackedFloat → Prop
  | notANumber : Canonical .notANumber
  | infinity (sign : Sign) : Canonical (.infinity sign)
  | zero (sign : Sign) : Canonical (.zero sign)
  | finite (sign : Sign) (a : Magnitude) (h : 0 < a.significand) :
      Canonical (.finite sign a.significand a.exponent h)

theorem canonical_unpack (x : Float) : Canonical x.toModel.unpack := by
  cases hx : x.toModel.unpack with
  | notANumber => exact .notANumber
  | infinity sign => exact .infinity sign
  | zero sign => exact .zero sign
  | finite sign m q h =>
    obtain ⟨a, rfl, rfl⟩ := exists_magnitude hx
    exact .finite sign a h

namespace Canonical

variable {u v : UnpackedFloat}

/-- Packing keeps what is in canonical form, but for what is too great. -/
theorem unpack_pack (hu : Canonical u) :
    UnpackedFloat.unpack binary64 (UnpackedFloat.pack binary64 u) = u ∨
      ∃ sign, UnpackedFloat.unpack binary64 (UnpackedFloat.pack binary64 u) = .infinity sign := by
  cases hu with
  | notANumber => exact .inl rfl
  | infinity sign => exact .inr ⟨sign, by cases sign <;> rfl⟩
  | zero sign => exact .inl UnpackedFloat.unpack_packedZero
  | finite sign a h =>
    rcases le_or_gt a.exponent 971 with hle | hgt
    · exact .inl (a.unpack_pack h sign hle)
    · have hbias : (binary64.exponentBias : ℤ) = 1023 := rfl
      have hgreat : 2 ^ 11 ≤ (a.exponent + 1023 + (52 : ℕ)).toNat + 1 := by omega
      refine .inr ⟨sign, ?_⟩
      simp only [UnpackedFloat.pack, hbias]
      rw [if_pos hgreat]
      cases sign <;> rfl

theorem pack_eq_zero_iff (hu : Canonical u) {sign : Sign} :
    UnpackedFloat.unpack binary64 (UnpackedFloat.pack binary64 u) = .zero sign ↔
      u = .zero sign := by
  constructor
  · intro hzero
    rcases hu.unpack_pack with hsame | ⟨sign', hinfinity⟩
    · rwa [hsame] at hzero
    · rw [hinfinity] at hzero
      cases hzero
  · rintro rfl
    exact UnpackedFloat.unpack_packedZero

theorem neg (hu : Canonical u) : Canonical u.neg := by
  cases hu with
  | notANumber => exact .notANumber
  | infinity sign => exact .infinity _
  | zero sign => exact .zero _
  | finite sign a h => exact .finite _ a h

/-- A sum of integers at an exponent of doubles is zero without a sign, or it is not zero. -/
theorem normalize (n : ℤ) (hleast : -1074 ≤ q) :
    Canonical (normalize binary64 n q .positive) ∧
      normalize binary64 n q .positive ≠ .zero .negative := by
  rw [UnpackedFloat.normalize]
  rcases lt_trichotomy n 0 with hneg | rfl | hpos
  · obtain ⟨a, h, hround⟩ := exists_magnitude_round (m := (-n).toNat) .negative (by omega) hleast
    rw [compare_lt_iff_lt.mpr hneg]
    dsimp only
    rw [hround]
    exact ⟨.finite _ a h, UnpackedFloat.noConfusion⟩
  · exact ⟨.zero _, by rintro ⟨⟩⟩
  · obtain ⟨a, h, hround⟩ := exists_magnitude_round (m := n.toNat) .positive (by omega) hleast
    rw [compare_gt_iff_gt.mpr hpos]
    dsimp only
    rw [hround]
    exact ⟨.finite _ a h, UnpackedFloat.noConfusion⟩

theorem add (hu : Canonical u) (hv : Canonical v) :
    Canonical (UnpackedFloat.add binary64 u v) ∧
      (UnpackedFloat.add binary64 u v = .zero .negative ↔
        u = .zero .negative ∧ v = .zero .negative) := by
  cases hu with
  | notANumber => exact ⟨.notANumber, by simp [UnpackedFloat.add]⟩
  | infinity sign =>
    cases hv with
    | notANumber => exact ⟨.notANumber, by simp [UnpackedFloat.add]⟩
    | infinity sign' =>
      rw [UnpackedFloat.add]
      split
      · exact ⟨.infinity _, by simp⟩
      · exact ⟨.notANumber, by simp⟩
    | zero | finite => exact ⟨.infinity _, by simp [UnpackedFloat.add]⟩
  | zero sign =>
    cases hv with
    | notANumber => exact ⟨.notANumber, by simp [UnpackedFloat.add]⟩
    | infinity => exact ⟨.infinity _, by simp [UnpackedFloat.add]⟩
    | zero sign' =>
      -- zeros of different signs come to positive zero
      cases sign <;> cases sign' <;> exact ⟨.zero _, by simp [UnpackedFloat.add]⟩
    | finite sign' b hb => exact ⟨.finite sign' b hb, by simp [UnpackedFloat.add]⟩
  | finite sign a ha =>
    cases hv with
    | notANumber => exact ⟨.notANumber, by simp [UnpackedFloat.add]⟩
    | infinity => exact ⟨.infinity _, by simp [UnpackedFloat.add]⟩
    | zero => exact ⟨.finite sign a ha, by simp [UnpackedFloat.add]⟩
    | finite sign' b hb =>
      have hleast := le_min a.le_exponent b.le_exponent
      obtain ⟨hcanonical, hne⟩ := normalize (sign.apply _ + sign'.apply _) hleast
      exact ⟨hcanonical, iff_of_false hne (by simp)⟩

end Canonical

end TracedEval
