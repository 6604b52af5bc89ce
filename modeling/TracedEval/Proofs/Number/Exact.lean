import TracedEval.Proofs.Number.Parts

/-!
# Exact arithmetic of doubles

Sums, differences and products of doubles are rounded, but where the true result is a double itself
nothing is lost. `Denotes` is which number a double stands for, `Representable` that there is a
double for a number, and `Denotes.add`, `Denotes.sub` and `Denotes.mul` are exactness in these
terms. Integers of at most `2 ^ 53` are representable, and `denotes_ofInt` is that `Float.ofInt`
gives them without rounding.
-/

namespace TracedEval

open Float.Model (UnpackedFloat totalExponent)
open Float.Model.Format (binary64)
open Float.Model.UnpackedFloat (Sign ExtendedMantissa decreaseExponent normalize
  roundWithAccuracy shiftToExponent shiftToTargetExponent)

/-! ## Rounding what needs no rounding -/

theorem log2_mul_two_pow {m : ℕ} (hm : 0 < m) (k : ℕ) : (m * 2 ^ k).log2 = m.log2 + k := by
  rw [Nat.log2_eq_iff (by positivity), pow_add, show m.log2 + k + 1 = m.log2 + 1 + k by omega,
    pow_add]
  exact ⟨Nat.mul_le_mul_right _ (Nat.log2_self_le hm.ne'),
    Nat.mul_lt_mul_of_pos_right Nat.lt_log2_self (by positivity)⟩

/-- The total exponent does not depend on how many of the powers of two are in the exponent. -/
theorem totalExponent_mul_two_pow {m : ℕ} (hm : 0 < m) (q : ℤ) (k : ℕ) :
    totalExponent (m * 2 ^ k) q = totalExponent m (q + k) := by
  rw [totalExponent, totalExponent, log2_mul_two_pow hm]
  push_cast
  ring

/-- Zeros at the end are all that is shifted out. -/
theorem shiftRight_mul_two_pow (m k : ℕ) :
    (⟨m * 2 ^ k, false, false⟩ : ExtendedMantissa) >>> k = ⟨m, false, false⟩ := by
  show k.repeat ExtendedMantissa.shiftRightOne _ = _
  induction k generalizing m with
  | zero => simp [Nat.repeat]
  | succ k ih =>
    have hhalf : m * 2 ^ (k + 1) = m * 2 * 2 ^ k := by ring
    rw [Nat.repeat, hhalf, ih]
    simp [ExtendedMantissa.shiftRightOne]

namespace Magnitude

variable (a : Magnitude) {m : ℕ} {q : ℤ}

/-- The exponent of a magnitude is the one that its format has for it. -/
theorem targetExponent_eq (h : 0 < a.significand) :
    binary64.targetExponent (totalExponent a.significand a.exponent) = a.exponent := by
  show max ((a.significand.log2 : ℤ) + 1 + a.exponent - 53) (-1074) = a.exponent
  have hleast := a.le_exponent
  have hlog : a.significand.log2 < 53 := (Nat.log2_lt h.ne').mpr a.significand_lt
  rcases a.normal with hnormal | hsubnormal
  · have hlog' : 52 ≤ a.significand.log2 := (Nat.le_log2 h.ne').mpr hnormal
    omega
  · omega

theorem targetExponent_mul_two_pow (h : 0 < a.significand) (k : ℕ) :
    binary64.targetExponent (totalExponent (a.significand * 2 ^ k) (a.exponent - k)) =
      a.exponent := by
  rw [totalExponent_mul_two_pow h, sub_add_cancel, a.targetExponent_eq h]

theorem shiftToTargetExponent_eq (h : 0 < a.significand) (k : ℕ) :
    shiftToTargetExponent binary64 (a.significand * 2 ^ k) (a.exponent - k) .exact =
      (⟨a.significand, false, false⟩, a.exponent) := by
  have hshift : (a.exponent - (a.exponent - k)).toNat = k := by omega
  rw [shiftToTargetExponent, a.targetExponent_mul_two_pow h, shiftToExponent, hshift,
    sub_add_cancel]
  exact congrArg (·, a.exponent) (shiftRight_mul_two_pow a.significand k)

theorem roundWithAccuracy_eq (h : 0 < a.significand) (sign : Sign) (k : ℕ) :
    roundWithAccuracy binary64 sign (a.significand * 2 ^ k) (a.exponent - k) .exact =
      .finite sign a.significand a.exponent h := by
  have hsecond := a.shiftToTargetExponent_eq h 0
  rw [pow_zero, mul_one, Nat.cast_zero, sub_zero] at hsecond
  simp only [roundWithAccuracy, a.shiftToTargetExponent_eq h k]
  show (match shiftToTargetExponent binary64 a.significand a.exponent .exact with
    | (em, e) => if h : em.mantissa = 0 then UnpackedFloat.zero sign
      else .finite sign em.mantissa e (Nat.pos_of_ne_zero h)) = _
  rw [hsecond]
  exact dif_neg h.ne'

/-- A number that is a magnitude is rounded to it, however it is written. -/
theorem round_eq (h : 0 < a.significand) (sign : Sign) (hvalue : (m : ℚ) * 2 ^ q = a.value) :
    UnpackedFloat.round binary64 sign m q = .finite sign a.significand a.exponent h := by
  have hpow : ∀ p : ℤ, (2 : ℚ) ^ p ≠ 0 := fun p => zpow_ne_zero p (by norm_num)
  rw [value] at hvalue
  rcases le_total q a.exponent with hle | hle
  · -- the number is written with zeros at the end
    obtain ⟨k, hk⟩ := Int.eq_ofNat_of_zero_le (sub_nonneg.mpr hle)
    obtain rfl : q = a.exponent - k := by omega
    obtain rfl : m = a.significand * 2 ^ k := by
      rw [zpow_sub₀ (by norm_num), mul_div_assoc', div_eq_iff (hpow _), mul_right_comm,
        mul_left_inj' (hpow _)] at hvalue
      exact_mod_cast hvalue
    have hshift : (a.exponent - k - a.exponent).toNat = 0 := by omega
    simp only [UnpackedFloat.round, a.targetExponent_mul_two_pow h, decreaseExponent, hshift]
    rw [Nat.shiftLeft_zero, Nat.cast_zero, sub_zero]
    exact a.roundWithAccuracy_eq h sign k
  · -- zeros are put to its end
    obtain ⟨k, hk⟩ := Int.eq_ofNat_of_zero_le (sub_nonneg.mpr hle)
    obtain rfl : q = a.exponent + k := by omega
    have hsig : a.significand = m * 2 ^ k := by
      rw [zpow_add₀ (by norm_num), mul_comm ((2 : ℚ) ^ _), ← mul_assoc,
        mul_left_inj' (hpow _)] at hvalue
      exact_mod_cast hvalue.symm
    have hm : 0 < m := Nat.pos_of_mul_pos_right (hsig ▸ h)
    have htarget : binary64.targetExponent (totalExponent m (a.exponent + k)) = a.exponent := by
      rw [← totalExponent_mul_two_pow hm, ← hsig, a.targetExponent_eq h]
    have hshift : (a.exponent + k - a.exponent).toNat = k := by omega
    simp only [UnpackedFloat.round, htarget, decreaseExponent, hshift]
    have hround := a.roundWithAccuracy_eq h sign 0
    rw [pow_zero, mul_one, Nat.cast_zero, sub_zero] at hround
    rw [Nat.shiftLeft_eq, ← hsig, add_sub_cancel_right, hround]

/-- What is in canonical form and not too great is unpacked as it was packed. -/
theorem unpack_pack (h : 0 < a.significand) (sign : Sign) (hle : a.exponent ≤ 971) :
    UnpackedFloat.unpack binary64 (UnpackedFloat.pack binary64
      (.finite sign a.significand a.exponent h)) =
        .finite sign a.significand a.exponent h := by
  have hleast := a.le_exponent
  have hlt := a.significand_lt
  have hbias : (binary64.exponentBias : ℤ) = 1023 := rfl
  have hbits : binary64.mantissaBits = 53 := rfl
  have hbelow : ¬ 2 ^ 11 ≤ (a.exponent + 1023 + (52 : ℕ)).toNat + 1 := by omega
  simp only [UnpackedFloat.pack, hbias, hbits]
  rw [if_neg hbelow]
  by_cases hnormal : 2 ^ 52 ≤ a.significand
  · have hlog : a.significand.log2 + 1 = 53 := by
      rw [Nat.add_right_cancel_iff, Nat.log2_eq_iff h.ne']
      exact ⟨hnormal, hlt⟩
    have hpower : (BitVec.ofNat 11 (a.exponent + 1023 + (52 : ℕ)).toNat).toNat =
        (a.exponent + 1075).toNat := by
      rw [BitVec.toNat_ofNat]
      omega
    have hfraction : (BitVec.ofNat 52 a.significand).toNat = a.significand - 2 ^ 52 := by
      rw [BitVec.toNat_ofNat]
      omega
    generalize BitVec.ofNat 11 (a.exponent + 1023 + (52 : ℕ)).toNat = power at hpower ⊢
    generalize BitVec.ofNat 52 a.significand = fraction at hfraction ⊢
    have hfull : power ≠ -1#11 := by
      rintro rfl
      have : (-1#11).toNat = 2047 := rfl
      omega
    have hzero : power ≠ 0#11 := by
      rintro rfl
      have : (0#11).toNat = 0 := rfl
      omega
    rw [if_pos hlog, unpack_packComponents, if_neg hfull, if_neg hzero,
      UnpackedFloat.finite.injEq]
    exact ⟨rfl, by omega, by omega⟩
  · have hlog : a.significand.log2 + 1 ≠ 53 := by
      have := (Nat.log2_lt h.ne').mpr (not_le.mp hnormal)
      omega
    have hexp : a.exponent = -1074 := a.normal.resolve_left hnormal
    have hfraction : (BitVec.ofNat 52 a.significand).toNat = a.significand := by
      rw [BitVec.toNat_ofNat]
      omega
    have hsome : BitVec.ofNat 52 a.significand ≠ 0#52 := by
      intro hzero
      rw [hzero] at hfraction
      exact h.ne hfraction
    rw [if_neg hlog, unpack_packComponents, if_neg (by decide), if_pos rfl, dif_neg hsome,
      UnpackedFloat.finite.injEq]
    exact ⟨rfl, hfraction, hexp.symm⟩

end Magnitude

/-! ## The number of a double -/

/-- The number of an unpacked double in canonical form. -/
inductive StandsFor : UnpackedFloat → ℚ → Prop
  | zero (sign : Sign) : StandsFor (.zero sign) 0
  | finite (sign : Sign) (a : Magnitude) (h : 0 < a.significand) :
      StandsFor (.finite sign a.significand a.exponent h)
        ((sign.apply a.significand : ℤ) * 2 ^ a.exponent)

/-- The double stands for the number. -/
def Denotes (x : Float) (r : ℚ) : Prop := StandsFor x.toModel.unpack r

/-- There is a double that stands for the number. -/
def Representable (r : ℚ) : Prop := ∃ a : Magnitude, a.exponent ≤ 971 ∧ |r| = a.value

theorem Representable.neg {r : ℚ} (h : Representable r) : Representable (-r) := by
  rwa [Representable, abs_neg]

theorem abs_apply (sign : Sign) (m : ℕ) (q : ℤ) :
    |((sign.apply m : ℤ) : ℚ) * 2 ^ q| = m * 2 ^ q := by
  have hpos : (0 : ℚ) < 2 ^ q := zpow_pos (by norm_num) q
  cases sign <;> simp [Sign.apply, abs_mul, abs_of_pos hpos]

theorem neg_apply (sign : Sign) (n : ℤ) : (-sign).apply n = -sign.apply n := by
  cases sign
  · exact (neg_neg n).symm
  · rfl

theorem mul_apply (sign sign' : Sign) (m n : ℤ) :
    (sign * sign').apply (m * n) = sign.apply m * sign'.apply n := by
  cases sign with
  | negative =>
    cases sign' with
    | negative => exact (neg_mul_neg m n).symm
    | positive => exact (neg_mul m n).symm
  | positive =>
    cases sign' with
    | negative => exact (mul_neg m n).symm
    | positive => rfl

/-- A difference is the sum with what has the opposite sign. -/
theorem unpacked_sub_eq (u v : UnpackedFloat) :
    UnpackedFloat.sub binary64 u v = UnpackedFloat.add binary64 u v.neg := by
  cases u with
  | finite s m q h =>
    cases v with
    | finite s' m' q' h' =>
      simp only [UnpackedFloat.sub, UnpackedFloat.add, UnpackedFloat.neg, neg_apply]
      rw [sub_eq_add_neg]
    | _ => rfl
  | _ => cases v <;> rfl

namespace StandsFor

variable {u v : UnpackedFloat} {r s : ℚ}

/-! ### Packing -/

theorem unpack_pack (hu : StandsFor u r) (hr : Representable r) :
    UnpackedFloat.unpack binary64 (UnpackedFloat.pack binary64 u) = u := by
  cases hu with
  | zero sign => exact UnpackedFloat.unpack_packedZero
  | finite sign a h =>
    obtain ⟨b, hle, hvalue⟩ := hr
    rw [abs_apply, ← Magnitude.value] at hvalue
    obtain rfl := Magnitude.value_injective hvalue
    exact a.unpack_pack h sign hle

theorem denotes_pack (hu : StandsFor u r) (hr : Representable r) :
    Denotes (.ofModel (.pack u)) r := by
  show StandsFor (UnpackedFloat.unpack binary64 (UnpackedFloat.pack binary64 u)) r
  rwa [hu.unpack_pack hr]

/-! ### Operations -/

theorem round {sign : Sign} {m : ℕ} {q : ℤ} (hm : 0 < m)
    (hr : Representable ((sign.apply m : ℤ) * 2 ^ q)) :
    StandsFor (UnpackedFloat.round binary64 sign m q) ((sign.apply m : ℤ) * 2 ^ q) := by
  obtain ⟨a, -, hvalue⟩ := hr
  rw [abs_apply] at hvalue
  have hpow : ∀ p : ℤ, (0 : ℚ) < 2 ^ p := zpow_pos (by norm_num)
  have hpos : 0 < a.significand := by
    have hpositive : (0 : ℚ) < a.significand * 2 ^ a.exponent := by
      rw [← Magnitude.value, ← hvalue]
      exact mul_pos (Nat.cast_pos.mpr hm) (hpow q)
    exact Nat.cast_pos.mp ((mul_pos_iff_of_pos_right (hpow a.exponent)).mp hpositive)
  have hsigned : ((sign.apply m : ℤ) : ℚ) * 2 ^ q =
      (sign.apply a.significand : ℤ) * 2 ^ a.exponent := by
    rw [Magnitude.value] at hvalue
    cases sign <;> simp [Sign.apply, hvalue]
  rw [a.round_eq hpos sign hvalue, hsigned]
  exact .finite sign a hpos

theorem normalize {n q : ℤ} (hr : Representable (n * 2 ^ q)) (sign : Sign) :
    StandsFor (normalize binary64 n q sign) (n * 2 ^ q) := by
  rw [UnpackedFloat.normalize]
  rcases lt_trichotomy n 0 with hneg | rfl | hpos
  · obtain ⟨m, rfl⟩ := Int.exists_eq_neg_ofNat hneg.le
    rw [compare_lt_iff_lt.mpr hneg]
    dsimp only
    rw [neg_neg, Int.toNat_natCast]
    exact round (by omega) hr
  · rw [Int.cast_zero, zero_mul]
    exact .zero sign
  · obtain ⟨m, rfl⟩ := Int.eq_ofNat_of_zero_le hpos.le
    rw [compare_gt_iff_gt.mpr hpos]
    exact round (Int.natCast_pos.mp hpos) hr

theorem apply_decreaseExponent (sign : Sign) (m : ℕ) {p q : ℤ} (h : q ≤ p) :
    ((sign.apply (decreaseExponent m p q).1 : ℤ) : ℚ) * 2 ^ q = (sign.apply m : ℤ) * 2 ^ p := by
  obtain ⟨k, hk⟩ := Int.eq_ofNat_of_zero_le (sub_nonneg.mpr h)
  obtain rfl : p = q + k := by omega
  have hshift : (q + k - q).toNat = k := by omega
  rw [decreaseExponent, hshift, Nat.shiftLeft_eq, zpow_add₀ (by norm_num)]
  cases sign <;> simp [Sign.apply] <;> ring

theorem add (hu : StandsFor u r) (hv : StandsFor v s) (h : Representable (r + s)) :
    StandsFor (UnpackedFloat.add binary64 u v) (r + s) := by
  cases hu with
  | zero sign =>
    cases hv with
    | zero sign' =>
      rw [UnpackedFloat.add, add_zero]
      split
      · exact .zero _
      · exact .zero _
    | finite sign' b hb =>
      rw [zero_add]
      exact .finite sign' b hb
  | finite sign a ha =>
    cases hv with
    | zero sign' =>
      rw [add_zero]
      exact .finite sign a ha
    | finite sign' b hb =>
      rw [← apply_decreaseExponent sign _ (min_le_left a.exponent b.exponent),
        ← apply_decreaseExponent sign' _ (min_le_right a.exponent b.exponent), ← add_mul,
        ← Int.cast_add] at h ⊢
      exact normalize h .positive

theorem neg (hu : StandsFor u r) : StandsFor u.neg (-r) := by
  cases hu with
  | zero sign =>
    rw [neg_zero]
    exact .zero _
  | finite sign a h =>
    rw [← neg_mul, ← Int.cast_neg, ← neg_apply]
    exact .finite _ a h

theorem sub (hu : StandsFor u r) (hv : StandsFor v s) (h : Representable (r - s)) :
    StandsFor (UnpackedFloat.sub binary64 u v) (r - s) := by
  rw [sub_eq_add_neg] at h ⊢
  rw [unpacked_sub_eq]
  exact hu.add hv.neg h

/-- No digits have to be put to a product before it is rounded. -/
theorem add_exponent_le (a b : Magnitude) (ha : 0 < a.significand) (hb : 0 < b.significand) :
    a.exponent + b.exponent ≤ binary64.targetExponent
      (totalExponent (a.significand * b.significand) (a.exponent + b.exponent)) := by
  have hpos : a.significand * b.significand ≠ 0 := (Nat.mul_pos ha hb).ne'
  have hleft : a.significand ≤ a.significand * b.significand := Nat.le_mul_of_pos_right _ hb
  have hright : b.significand ≤ a.significand * b.significand := Nat.le_mul_of_pos_left _ ha
  show _ ≤ max (((a.significand * b.significand).log2 : ℤ) + 1 + _ - 53) (-1074)
  by_cases hnormal : 2 ^ 52 ≤ a.significand * b.significand
  · have hlog : 52 ≤ (a.significand * b.significand).log2 := (Nat.le_log2 hpos).mpr hnormal
    omega
  · have haexp := a.normal.resolve_left fun h => hnormal (h.trans hleft)
    have hbexp := b.normal.resolve_left fun h => hnormal (h.trans hright)
    omega

theorem round_of_le {sign : Sign} {m : ℕ} {q : ℤ}
    (h : q ≤ binary64.targetExponent (totalExponent m q)) :
    UnpackedFloat.round binary64 sign m q = roundWithAccuracy binary64 sign m q .exact := by
  have hshift : (q - binary64.targetExponent (totalExponent m q)).toNat = 0 := by omega
  rw [UnpackedFloat.round, decreaseExponent, hshift]
  simp only [Nat.shiftLeft_zero, Nat.cast_zero, sub_zero]

theorem mul (hu : StandsFor u r) (hv : StandsFor v s) (h : Representable (r * s)) :
    StandsFor (UnpackedFloat.mul binary64 u v) (r * s) := by
  cases hu with
  | zero sign =>
    rw [zero_mul]
    cases hv <;> exact .zero _
  | finite sign a ha =>
    cases hv with
    | zero sign' =>
      rw [mul_zero]
      exact .zero _
    | finite sign' b hb =>
      have hproduct : ((sign.apply a.significand : ℤ) * 2 ^ a.exponent) *
          ((sign'.apply b.significand : ℤ) * 2 ^ b.exponent) =
            (((sign * sign').apply (a.significand * b.significand : ℕ) : ℤ) : ℚ) *
              2 ^ (a.exponent + b.exponent) := by
        rw [Nat.cast_mul, mul_apply, Int.cast_mul, zpow_add₀ (by norm_num), mul_mul_mul_comm]
      rw [hproduct] at h ⊢
      rw [UnpackedFloat.mul, ← round_of_le (add_exponent_le a b ha hb)]
      exact round (Nat.mul_pos ha hb) h

/-! ### Comparison -/

/-- What stands for a number is zero, positive or negative. -/
theorem signs (hu : StandsFor u r) :
    (∃ sign, u = .zero sign ∧ r = 0) ∨
      (∃ (a : Magnitude) (h : 0 < a.significand),
        u = .finite .positive a.significand a.exponent h ∧ r = a.value) ∨
      ∃ (a : Magnitude) (h : 0 < a.significand),
        u = .finite .negative a.significand a.exponent h ∧ r = -a.value := by
  cases hu with
  | zero sign => exact .inl ⟨sign, rfl, rfl⟩
  | finite sign a h =>
    cases sign with
    | positive => exact .inr (.inl ⟨a, h, rfl, rfl⟩)
    | negative =>
      refine .inr (.inr ⟨a, h, rfl, ?_⟩)
      rw [Magnitude.value, Sign.apply, Int.cast_neg, neg_mul, Int.cast_natCast]

theorem compare_eq (hu : StandsFor u r) (hv : StandsFor v s) :
    u.compare v = some (compare r s) := by
  have hlt (h : r < s) : some .lt = some (compare r s) :=
    congrArg some (compare_lt_iff_lt.mpr h).symm
  have hgt (h : s < r) : some .gt = some (compare r s) :=
    congrArg some (compare_gt_iff_gt.mpr h).symm
  rcases hu.signs with ⟨sign, rfl, rfl⟩ | ⟨a, ha, rfl, rfl⟩ | ⟨a, ha, rfl, rfl⟩
  · rcases hv.signs with ⟨sign', rfl, rfl⟩ | ⟨b, hb, rfl, rfl⟩ | ⟨b, hb, rfl, rfl⟩
    · exact congrArg some Std.compare_self.symm
    · exact hlt (Magnitude.value_pos hb)
    · exact hgt (neg_lt_zero.mpr (Magnitude.value_pos hb))
  · rcases hv.signs with ⟨sign', rfl, rfl⟩ | ⟨b, hb, rfl, rfl⟩ | ⟨b, hb, rfl, rfl⟩
    · exact hgt (Magnitude.value_pos ha)
    · exact congrArg some (a.compare_value b)
    · exact hgt ((neg_lt_zero.mpr (Magnitude.value_pos hb)).trans (Magnitude.value_pos ha))
  · rcases hv.signs with ⟨sign', rfl, rfl⟩ | ⟨b, hb, rfl, rfl⟩ | ⟨b, hb, rfl, rfl⟩
    · exact hlt (neg_lt_zero.mpr (Magnitude.value_pos ha))
    · exact hlt ((neg_lt_zero.mpr (Magnitude.value_pos ha)).trans (Magnitude.value_pos hb))
    · -- the signs turn the order around, and so does the comparison of magnitudes
      have hanti : StrictAnti fun r : ℚ => -r := fun _ _ => neg_lt_neg
      have hswap : (compare a.value b.value).swap = compare (-a.value) (-b.value) := by
        rw [← cmp_eq_compare, ← cmp_eq_compare, cmp_swap]
        exact (hanti.cmp_map_eq a.value b.value).symm
      rw [← hswap, ← a.compare_value b]
      rfl

/-- What stands for a number is determined by it, but for the sign of zero. -/
theorem unique (hu : StandsFor u r) (hv : StandsFor v r) :
    u = v ∨ ∃ sign sign', u = .zero sign ∧ v = .zero sign' := by
  have hne : ∀ (sign : Sign) (a : Magnitude), 0 < a.significand →
      ((sign.apply a.significand : ℤ) : ℚ) * 2 ^ a.exponent ≠ 0 := by
    intro sign a h
    rw [← abs_pos, abs_apply]
    exact mul_pos (Nat.cast_pos.mpr h) a.step_pos
  generalize hs : r = s at hv
  cases hu with
  | zero sign =>
    cases hv with
    | zero sign' => exact .inr ⟨sign, sign', rfl, rfl⟩
    | finite sign' b hb => exact absurd hs.symm (hne sign' b hb)
  | finite sign a ha =>
    cases hv with
    | zero sign' => exact absurd hs (hne sign a ha)
    | finite sign' b hb =>
      left
      have hvalue := congrArg abs hs
      rw [abs_apply, abs_apply] at hvalue
      obtain rfl := Magnitude.value_injective hvalue
      rw [mul_left_inj' (zpow_pos two_pos _).ne', Int.cast_inj] at hs
      cases sign <;> cases sign' <;> simp only [Sign.apply] at hs <;> first | rfl | omega

end StandsFor

/-! ## Doubles -/

namespace Denotes

variable {x y : Float} {r s : ℚ}

theorem add (hx : Denotes x r) (hy : Denotes y s) (h : Representable (r + s)) :
    Denotes (x + y) (r + s) :=
  (StandsFor.add hx hy h).denotes_pack h

theorem sub (hx : Denotes x r) (hy : Denotes y s) (h : Representable (r - s)) :
    Denotes (x - y) (r - s) :=
  (StandsFor.sub hx hy h).denotes_pack h

theorem neg (hx : Denotes x r) (h : Representable r) : Denotes (-x) (-r) :=
  (StandsFor.neg hx).denotes_pack h.neg

theorem mul (hx : Denotes x r) (hy : Denotes y s) (h : Representable (r * s)) :
    Denotes (x * y) (r * s) :=
  (StandsFor.mul hx hy h).denotes_pack h

theorem mul_ofBits_one (hx : Denotes x r) (h : Representable r) :
    Denotes (x * Float.ofBits 0x3FF0000000000000) r := by
  have hone : Denotes (Float.ofBits 0x3FF0000000000000) 1 := by
    have hnumber : (1 : ℚ) = (Sign.positive.apply (2 ^ 52 : ℕ) : ℤ) * 2 ^ (-52 : ℤ) := by
      norm_num [Sign.apply]
    rw [hnumber]
    exact .finite .positive ⟨2 ^ 52, -52, by decide, by decide, .inl le_rfl⟩ (by decide)
  rw [← mul_one r] at h ⊢
  exact hx.mul hone h

theorem of_beq (hy : Denotes y r) (h : (x == y) = true) : Denotes x r := by
  rcases comparedAs?_eq_iff.mp (beq_iff_comparedAs?.mp h).2 with heq | ⟨sign, sign', hsign, hsign'⟩
  · rwa [Denotes, heq]
  · rw [Denotes, hsign'] at hy
    cases hy
    rw [Denotes, hsign]
    exact .zero sign

theorem beq_iff (hx : Denotes x r) (hy : Denotes y s) : (x == y) = true ↔ r = s := by
  show x.toModel.unpack.beq y.toModel.unpack = true ↔ _
  rw [UnpackedFloat.beq, StandsFor.compare_eq hx hy, beq_iff_eq, Option.some_inj,
    compare_eq_iff_eq]

theorem beq (hx : Denotes x r) (hy : Denotes y r) : (x == y) = true := (hx.beq_iff hy).mpr rfl

/-- But for zero, there is one double for a number. -/
theorem eq_of_ne_zero (hx : Denotes x r) (hy : Denotes y r) (hr : r ≠ 0) : x = y := by
  rcases StandsFor.unique hx hy with hsame | ⟨sign, sign', hzero, -⟩
  · exact eq_of_unpack_eq hsame
  · rw [Denotes, hzero] at hx
    cases hx
    exact absurd rfl hr

end Denotes

/-! ## Integers -/

theorem exists_magnitude_natCast {n : ℕ} (h : n ≤ 2 ^ 53) :
    ∃ a : Magnitude, a.exponent ≤ 971 ∧ (n : ℚ) = a.value := by
  rcases Nat.eq_zero_or_pos n with rfl | hpos
  · exact ⟨.zero, by decide, by simp [Magnitude.value, Magnitude.zero]⟩
  rcases h.lt_or_eq with hlt | rfl
  · -- the most significant digit is shifted to the place that it has in a magnitude
    have hlog : n.log2 < 53 := (Nat.log2_lt hpos.ne').mpr hlt
    obtain ⟨k, hk⟩ : ∃ k, n.log2 + k = 52 := ⟨52 - n.log2, by omega⟩
    have hbits := log2_mul_two_pow hpos k
    rw [hk, Nat.log2_eq_iff (by positivity)] at hbits
    refine ⟨⟨n * 2 ^ k, -k, hbits.2, by omega, .inl hbits.1⟩, by dsimp only; omega, ?_⟩
    rw [Magnitude.value]
    push_cast
    rw [zpow_neg, zpow_natCast, mul_inv_cancel_right₀ (by positivity)]
  · refine ⟨⟨2 ^ 52, 1, by decide, by decide, .inl le_rfl⟩, by decide, ?_⟩
    norm_num [Magnitude.value]

theorem representable_natCast {n : ℕ} (h : n ≤ 2 ^ 53) : Representable n := by
  obtain ⟨a, hle, hvalue⟩ := exists_magnitude_natCast h
  exact ⟨a, hle, by rw [Nat.abs_cast, hvalue]⟩

theorem representable_intCast {n : ℤ} (h : n.natAbs ≤ 2 ^ 53) : Representable n := by
  have hr := representable_natCast h
  rwa [Representable, Nat.abs_cast, Nat.cast_natAbs, Int.cast_abs] at hr

theorem denotes_toFloat {n : UInt64} (h : n.toNat ≤ 2 ^ 53) : Denotes n.toFloat n.toNat := by
  have hr : Representable (n.toNat : ℤ) := representable_intCast h
  have hscale : ((n.toNat : ℤ) : ℚ) * 2 ^ (0 : ℤ) = (n.toNat : ℤ) := by rw [zpow_zero, mul_one]
  have hround := StandsFor.normalize (hscale.symm ▸ hr) .positive
  rw [hscale] at hround
  exact hround.denotes_pack hr

theorem denotes_ofNat {n : ℕ} (h : n ≤ 2 ^ 53) : Denotes (Float.ofNat n) n := by
  rcases h.lt_or_eq with hlt | rfl
  · have hword : n.toUInt64.toNat = n := by
      show n % 2 ^ 64 = n
      omega
    have hnumber : Float.ofNat n = n.toUInt64.toFloat * Float.ofBits 0x3FF0000000000000 := by
      show Float.ofScientific n false 0 = _
      rw [Float.ofScientific, dif_pos ⟨hlt, by decide⟩]
      rfl
    have hfloat := denotes_toFloat (n := n.toUInt64) (by rw [hword]; exact h)
    rw [hword] at hfloat
    rw [hnumber]
    exact hfloat.mul_ofBits_one (representable_natCast h)
  · -- the greatest one has its own computation
    have hbits : (Float.ofNat (2 ^ 53)).toModel.unpack =
        .finite .positive (2 ^ 52) 1 (by decide) := rfl
    have hnumber : ((2 ^ 53 : ℕ) : ℚ) = (Sign.positive.apply (2 ^ 52 : ℕ) : ℤ) * 2 ^ (1 : ℤ) := by
      norm_num [Sign.apply]
    rw [Denotes, hbits, hnumber]
    exact .finite .positive ⟨2 ^ 52, 1, by decide, by decide, .inl le_rfl⟩ (by decide)

namespace Denotes

variable {x y : Float} {m n : ℕ}

theorem add_natCast (hx : Denotes x m) (hy : Denotes y n) (h : m + n ≤ 2 ^ 53) :
    Denotes (x + y) (m + n : ℕ) := by
  have hr := representable_natCast h
  rw [Nat.cast_add] at hr ⊢
  exact hx.add hy hr

theorem sub_natCast (hx : Denotes x m) (hy : Denotes y n) (hle : n ≤ m) (h : m ≤ 2 ^ 53) :
    Denotes (x - y) (m - n : ℕ) := by
  have hr := representable_natCast ((Nat.sub_le m n).trans h)
  rw [Nat.cast_sub hle] at hr ⊢
  exact hx.sub hy hr

theorem mul_natCast (hx : Denotes x m) (hy : Denotes y n) (h : m * n ≤ 2 ^ 53) :
    Denotes (x * y) (m * n : ℕ) := by
  have hr := representable_natCast h
  rw [Nat.cast_mul] at hr ⊢
  exact hx.mul hy hr

theorem beq_ofNat (hx : Denotes x m) (h : n ≤ 2 ^ 53) :
    (x == Float.ofNat n) = decide (m = n) := by
  rw [Bool.eq_iff_iff, hx.beq_iff (denotes_ofNat h), Nat.cast_inj, decide_eq_true_iff]

theorem not_beq_ofNat (hx : Denotes x m) (h : n ≤ 2 ^ 53) (hne : m ≠ n) :
    (x == Float.ofNat n) = false := (hx.beq_ofNat h).trans (decide_eq_false hne)

end Denotes

theorem denotes_ofInt {n : ℤ} (h : n.natAbs ≤ 2 ^ 53) : Denotes (Float.ofInt n) n := by
  cases n with
  | ofNat n => exact denotes_ofNat h
  | negSucc n =>
    have hsucc : n.succ ≤ 2 ^ 53 := h
    have hneg := (denotes_ofNat hsucc).neg (representable_natCast hsucc)
    rwa [← Int.cast_natCast, ← Int.cast_neg] at hneg

/-- The doubles that stand for an integer are those that equal it. -/
theorem denotes_intCast_iff {x : Float} {n : ℤ} (h : n.natAbs ≤ 2 ^ 53) :
    Denotes x n ↔ (x == Float.ofInt n) = true :=
  ⟨fun hx => hx.beq (denotes_ofInt h), (denotes_ofInt h).of_beq⟩

end TracedEval
