import TracedEval.Proofs.Number.Canonical

/-!
# The order of doubles

Every double but not-a-number has a place among the numbers and the two infinities, and the
comparisons of doubles compare places. Both zeros have the same place. Not-a-number has none, and
nothing compares with it.

* `Canonical.compare_eq` is comparison in terms of places;
* `lt_iff_place`, `le_iff_place` and `beq_iff_place` are the tests that programs make;
* `incomparable` is that they all fail for not-a-number.
-/

namespace TracedEval

open Float.Model (UnpackedFloat)
open Float.Model.UnpackedFloat (Sign)

/-! ## Places -/

/-- Where the double stands among the numbers. The infinities are at the ends. -/
def unpackedPlace : UnpackedFloat → WithBot (WithTop ℚ)
  | .notANumber => 0
  | .infinity .negative => ⊥
  | .infinity .positive => ⊤
  | .zero _ => 0
  | .finite sign m q _ => (((sign.apply m : ℤ) * 2 ^ q : ℚ) : WithTop ℚ)

theorem StandsFor.unpackedPlace_eq {u : UnpackedFloat} {r : ℚ} (hu : StandsFor u r) :
    unpackedPlace u = (r : WithTop ℚ) := by
  cases hu <;> rfl

theorem compare_coe (r s : ℚ) :
    compare ((r : WithTop ℚ) : WithBot (WithTop ℚ)) (s : WithTop ℚ) = compare r s := by
  have hmono : StrictMono fun r : ℚ => ((r : WithTop ℚ) : WithBot (WithTop ℚ)) :=
    WithBot.coe_strictMono.comp WithTop.coe_strictMono
  rw [← cmp_eq_compare, ← cmp_eq_compare]
  exact hmono.cmp_map_eq r s

namespace Canonical

variable {u v : UnpackedFloat}

theorem kinds (hu : Canonical u) :
    u = .notANumber ∨ (∃ sign, u = .infinity sign) ∨ ∃ r, StandsFor u r := by
  cases hu with
  | notANumber => exact .inl rfl
  | infinity sign => exact .inr (.inl ⟨sign, rfl⟩)
  | zero sign => exact .inr (.inr ⟨0, .zero sign⟩)
  | finite sign a ha => exact .inr (.inr ⟨_, .finite sign a ha⟩)

/-- Comparison is that of the places. -/
theorem compare_eq (hu : Canonical u) (hv : Canonical v) (hu' : u ≠ .notANumber)
    (hv' : v ≠ .notANumber) :
    u.compare v = some (compare (unpackedPlace u) (unpackedPlace v)) := by
  have hbot (r : ℚ) : ⊥ < ((r : WithTop ℚ) : WithBot (WithTop ℚ)) := WithBot.bot_lt_coe _
  have htop (r : ℚ) : ((r : WithTop ℚ) : WithBot (WithTop ℚ)) < ⊤ :=
    WithBot.coe_lt_coe.mpr (WithTop.coe_lt_top r)
  rcases hu.kinds.resolve_left hu' with ⟨sign, rfl⟩ | ⟨r, hr⟩
  · rcases hv.kinds.resolve_left hv' with ⟨sign', rfl⟩ | ⟨s, hs⟩
    · cases sign <;> cases sign' <;> rfl
    · rw [hs.unpackedPlace_eq]
      cases sign with
      | positive => rw [unpackedPlace, compare_gt_iff_gt.mpr (htop s)]; cases hs <;> rfl
      | negative => rw [unpackedPlace, compare_lt_iff_lt.mpr (hbot s)]; cases hs <;> rfl
  · rcases hv.kinds.resolve_left hv' with ⟨sign', rfl⟩ | ⟨s, hs⟩
    · rw [hr.unpackedPlace_eq]
      cases sign' with
      | positive => rw [unpackedPlace, compare_lt_iff_lt.mpr (htop r)]; cases hr <;> rfl
      | negative => rw [unpackedPlace, compare_gt_iff_gt.mpr (hbot r)]; cases hr <;> rfl
    · rw [hr.compare_eq hs, hr.unpackedPlace_eq, hs.unpackedPlace_eq, compare_coe]

end Canonical

/-! ## Comparisons -/

section Comparisons

variable {x y : Float}

def place (x : Float) : WithBot (WithTop ℚ) := unpackedPlace x.toModel.unpack

theorem unpack_ne_notANumber (h : x.isNaN = false) : x.toModel.unpack ≠ .notANumber := by
  intro hnan
  have hisNaN : x.toModel.unpack.isNaN = true := UnpackedFloat.isNaN_iff.mpr hnan
  exact Bool.false_ne_true (h.symm.trans hisNaN)

theorem compare_unpack (hx : x.isNaN = false) (hy : y.isNaN = false) :
    x.toModel.unpack.compare y.toModel.unpack = some (compare (place x) (place y)) :=
  (canonical_unpack x).compare_eq (canonical_unpack y) (unpack_ne_notANumber hx)
    (unpack_ne_notANumber hy)

theorem lt_iff_place (hx : x.isNaN = false) (hy : y.isNaN = false) :
    x < y ↔ place x < place y := by
  rw [lt_iff_unpack, UnpackedFloat.lt, compare_unpack hx hy, beq_iff_eq, Option.some_inj,
    compare_lt_iff_lt]

theorem le_iff_place (hx : x.isNaN = false) (hy : y.isNaN = false) :
    x ≤ y ↔ place x ≤ place y := by
  rw [le_iff_unpack, UnpackedFloat.le, compare_unpack hx hy, Option.any_some,
    Ordering.isLE_iff_ne_gt]
  exact compare_le_iff_le

theorem beq_iff_place (hx : x.isNaN = false) (hy : y.isNaN = false) :
    (x == y) = true ↔ place x = place y := by
  show x.toModel.unpack.beq y.toModel.unpack = true ↔ _
  rw [UnpackedFloat.beq, compare_unpack hx hy, beq_iff_eq, Option.some_inj, compare_eq_iff_eq]

/-- What is not a number is not comparable to anything. -/
theorem incomparable (h : x.isNaN = true ∨ y.isNaN = true) :
    ¬ x < y ∧ ¬ x ≤ y ∧ (x == y) = false := by
  have hnone : x.toModel.unpack.compare y.toModel.unpack = none := by
    rcases h with hx | hy
    · rw [UnpackedFloat.isNaN_iff.mp hx, UnpackedFloat.compare]
    · rw [UnpackedFloat.isNaN_iff.mp hy]
      cases x.toModel.unpack <;> rfl
  have hbeq : x.toModel.unpack.beq y.toModel.unpack = false := by rw [UnpackedFloat.beq, hnone]; rfl
  rw [lt_iff_unpack, le_iff_unpack, UnpackedFloat.lt, UnpackedFloat.le, hnone]
  exact ⟨Bool.false_ne_true, Bool.false_ne_true, hbeq⟩

end Comparisons

end TracedEval
