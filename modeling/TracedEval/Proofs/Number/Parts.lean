import TracedEval.Proofs.Equality
import TracedEval.Proofs.Number.Rounding

/-!
# The parts of a double

A finite double is a sign and a magnitude, and determined by them. Comparisons of positive doubles
are comparisons of magnitudes, and taking the absolute value leaves the magnitude alone.

`RoundsToDouble` is rounding of exact numbers to doubles: the sign is kept, and the magnitude is the
one that the absolute value rounds to. A number has at most one such double.
-/

namespace TracedEval

open Float.Model (UnpackedFloat)
open Float.Model.UnpackedFloat (Sign)

/-- The magnitude of the zeros. -/
def Magnitude.zero : Magnitude where
  significand := 0
  exponent := -1074
  significand_lt := by decide
  le_exponent := le_rfl
  normal := Or.inr rfl

/-- The double has this sign and this magnitude. -/
def HasParts (x : Float) (sign : Sign) (a : Magnitude) : Prop :=
  match x.toModel.unpack with
  | .zero s => s = sign ∧ a = .zero
  | .finite s m q _ => s = sign ∧ a.significand = m ∧ a.exponent = q
  | .notANumber | .infinity _ => False

/-- The number rounds to the double. A negative one that is too small rounds to negative zero. -/
def RoundsToDouble (r : ℚ) (x : Float) : Prop :=
  ∃ sign a, HasParts x sign a ∧ (sign = .negative ↔ r < 0) ∧ RoundsTo |r| a

/-! ## Unpacking -/

/-- How the three parts of the bits are read. -/
theorem unpack_packComponents (sign : Sign) (power : BitVec 11) (fraction : BitVec 52) :
    UnpackedFloat.unpack .binary64 (UnpackedFloat.packComponents .binary64 sign power fraction) =
      if power = -1#11 then if fraction = 0#52 then .infinity sign else .notANumber
      else if power = 0#11 then
        if h : fraction = 0#52 then .zero sign
        else .finite sign fraction.toNat (-1074)
          (Nat.pos_of_ne_zero fun hzero => h (BitVec.eq_of_toNat_eq hzero))
      else .finite sign (2 ^ 52 + fraction.toNat) (power.toNat - 1075) (by omega) := by
  have hleading : (1#1 ++ fraction).toNat = 2 ^ 52 + fraction.toNat := by
    rw [BitVec.toNat_append, ← Nat.shiftLeft_add_eq_or_of_lt fraction.isLt]
    rfl
  simp only [UnpackedFloat.unpack.eq_1, UnpackedFloat.unpackExponent_packComponents,
    UnpackedFloat.unpackMantissa_packComponents, UnpackedFloat.unpackSign_packComponents,
    UnpackedFloat.Sign.ofBitVec_toBitVec]
  split
  · rfl
  · split
    · rename_i hpower
      subst hpower
      rfl
    · congr 1

variable {x y : Float} {sign : Sign} {m : ℕ} {q : ℤ} {h : 0 < m}

/-- What a double unpacks to is in canonical form. -/
theorem exists_magnitude (hx : x.toModel.unpack = .finite sign m q h) :
    ∃ a : Magnitude, a.significand = m ∧ a.exponent = q := by
  have hbits := @UnpackedFloat.packComponents_unpackSign_unpackExponent_unpackMantissa .binary64
    x.toModel.toBits.toBitVec
  rw [Float.Model.unpack, ← hbits, unpack_packComponents] at hx
  generalize @UnpackedFloat.unpackExponent .binary64 x.toModel.toBits.toBitVec = power at hx
  generalize @UnpackedFloat.unpackMantissa .binary64 x.toModel.toBits.toBitVec = fraction at hx
  change BitVec 11 at power
  change BitVec 52 at fraction
  have hsmall : fraction.toNat < 2 ^ 52 := fraction.isLt
  split at hx
  · split at hx <;> cases hx
  · split at hx
    · split at hx
      · cases hx
      · cases hx
        exact ⟨⟨fraction.toNat, -1074, by omega, le_rfl, Or.inr rfl⟩, rfl, rfl⟩
    · rename_i hnormal
      have hpower : power.toNat ≠ 0 := fun hzero => hnormal (BitVec.eq_of_toNat_eq hzero)
      cases hx
      exact ⟨⟨2 ^ 52 + fraction.toNat, power.toNat - 1075, by omega, by omega, Or.inl (by omega)⟩,
        rfl, rfl⟩

/-- The absolute value keeps the magnitude: packing writes the sign into a place of its own. -/
theorem unpack_abs (hx : x.toModel.unpack = .finite sign m q h) :
    x.abs.toModel.unpack = .finite .positive m q h := by
  obtain ⟨power, fraction, hpack⟩ : ∃ power fraction, ∀ sign : Sign,
      UnpackedFloat.pack .binary64 (.finite sign m q h) =
        UnpackedFloat.packComponents .binary64 sign power fraction := by
    simp only [UnpackedFloat.pack]
    split
    · exact ⟨_, _, fun _ => rfl⟩
    · split
      · exact ⟨_, _, fun _ => rfl⟩
      · exact ⟨_, _, fun _ => rfl⟩
  have hbits : x.toModel.toBits.toBitVec =
      UnpackedFloat.packComponents .binary64 sign power fraction := by
    rw [← hpack, ← hx]
    exact (UnpackedFloat.pack_unpack_of_valid x.toModel.valid).symm
  rw [Float.Model.unpack, hbits] at hx
  show UnpackedFloat.unpack .binary64 (UnpackedFloat.pack .binary64 x.toModel.unpack.abs) = _
  rw [Float.Model.unpack, hbits, hx, UnpackedFloat.abs, hpack]
  rw [unpack_packComponents] at hx ⊢
  by_cases hfull : power = -1#11
  · rw [if_pos hfull] at hx
    split at hx <;> cases hx
  · rw [if_neg hfull] at hx ⊢
    by_cases hzero : power = 0#11
    · rw [if_pos hzero] at hx ⊢
      by_cases hnone : fraction = 0#52
      · rw [dif_pos hnone] at hx
        cases hx
      · rw [dif_neg hnone] at hx ⊢
        cases hx
        rfl
    · rw [if_neg hzero] at hx ⊢
      cases hx
      rfl

/-! ## Parts -/

variable {a b : Magnitude}

theorem hasParts_zero (hx : x.toModel.unpack = .zero sign) : HasParts x sign .zero := by
  rw [HasParts, hx]
  exact ⟨rfl, rfl⟩

theorem hasParts_finite (h : 0 < a.significand)
    (hx : x.toModel.unpack = .finite sign a.significand a.exponent h) : HasParts x sign a := by
  rw [HasParts, hx]
  exact ⟨rfl, rfl, rfl⟩

/-- The parts determine the double. -/
theorem HasParts.unique (hx : HasParts x sign a) (hy : HasParts y sign a) : x = y := by
  apply eq_of_unpack_eq
  unfold HasParts at hx hy
  split at hx
  · rename_i s hs
    obtain ⟨rfl, rfl⟩ := hx
    split at hy
    · rename_i s' hs'
      rw [hs, hs', hy.1]
    · rename_i n p hpos hs'
      exact absurd hy.2.1 hpos.ne
    · cases hy
    · cases hy
  · rename_i s n p hpos hs
    obtain ⟨rfl, rfl, rfl⟩ := hx
    split at hy
    · rename_i s' hs'
      rw [hy.2] at hpos
      exact absurd hpos (lt_irrefl _)
    · rename_i n p hpos hs'
      obtain ⟨rfl, rfl, rfl⟩ := hy
      rw [hs, hs']
    · cases hy
    · cases hy
  · cases hx
  · cases hx

/-- A number rounds to at most one double. -/
theorem RoundsToDouble.unique {r : ℚ} (hx : RoundsToDouble r x) (hy : RoundsToDouble r y) :
    x = y := by
  obtain ⟨s, a, hxparts, hxsign, hxround⟩ := hx
  obtain ⟨t, b, hyparts, hysign, hyround⟩ := hy
  obtain rfl := hxround.unique hyround
  have hsigns : s = .negative ↔ t = .negative := hxsign.trans hysign.symm
  obtain rfl : s = t := by
    cases s <;> cases t <;> simp_all
  exact hxparts.unique hyparts

/-! ## Comparisons -/

theorem lt_iff_unpack : x < y ↔ x.toModel.unpack.lt y.toModel.unpack = true := decide_eq_true_iff

theorem le_iff_unpack : x ≤ y ↔ x.toModel.unpack.le y.toModel.unpack = true := decide_eq_true_iff

section Positive

variable {ha : 0 < a.significand} {hb : 0 < b.significand}
  (hx : x.toModel.unpack = .finite .positive a.significand a.exponent ha)
  (hy : y.toModel.unpack = .finite .positive b.significand b.exponent hb)

include hx hy

theorem lt_iff_of_positive : x < y ↔ a.value < b.value := by
  have hcompare : x < y ↔
      (compare a.exponent b.exponent).then (compare a.significand b.significand) = .lt := by
    rw [lt_iff_unpack, hx, hy]
    exact beq_iff_eq.trans Option.some_inj
  rw [hcompare, Magnitude.compare_value, compare_lt_iff_lt]

theorem le_iff_of_positive : x ≤ y ↔ a.value ≤ b.value := by
  have hcompare : x ≤ y ↔
      ((compare a.exponent b.exponent).then (compare a.significand b.significand)).isLE := by
    rw [le_iff_unpack, hx, hy]
    rfl
  rw [hcompare, Magnitude.compare_value, Ordering.isLE_iff_ne_gt]
  exact compare_le_iff_le

end Positive

theorem lt_zero_iff (hx : x.toModel.unpack = .finite sign m q h) : x < 0 ↔ sign = .negative := by
  have hcompare : x < 0 ↔ (UnpackedFloat.finite sign m q h).lt (.zero .positive) = true := by
    rw [lt_iff_unpack, hx]
    rfl
  rw [hcompare]
  cases sign with
  | positive => exact iff_of_false Bool.false_ne_true (by simp)
  | negative => exact iff_of_true rfl rfl

end TracedEval
