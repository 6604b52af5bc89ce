import Mathlib
import TracedEval.Context

/-!
# Strict equality

Strict equality asks each value what it counts as: the two zeros count as one number, a function
counts as its identity, and not-a-number is the only value that counts as nothing. Two values are
equal when they count as the same thing, and the laws of equality come from there.

* `comparedAs?` is this for numbers, and `Value.comparedAs?` for all values;
* `Value.strictEquals_iff` is strict equality in these terms;
* `Value.Alike` is that a program cannot tell two values apart by their kind, their text, as guards
  or by calling them, and `Value.alike_of_strictEquals` that equal values are alike. Of functions it
  has to be known that no two have the same identity.

The lemmas about unpacked doubles come with the whole of Mathlib only, so that is what is imported.
-/

namespace TracedEval

open Float.Model (UnpackedFloat)

/-! ## Numbers -/

/-- The number that a double counts as in a comparison. The two zeros are one number, and what is
not a number has none. -/
def comparedAs? (x : Float) : Option UnpackedFloat :=
  match x.toModel.unpack with
  | .notANumber => none
  | .zero _ => some (.zero .positive)
  | u => some u

section Numbers

variable {x y : Float}

theorem comparedAs?_eq_iff :
    comparedAs? x = comparedAs? y ↔
      x.toModel.unpack = y.toModel.unpack ∨
        ∃ s t, x.toModel.unpack = .zero s ∧ y.toModel.unpack = .zero t := by
  unfold comparedAs?
  generalize x.toModel.unpack = a
  generalize y.toModel.unpack = b
  cases a <;> cases b <;> simp

theorem comparedAs?_eq_none_iff : comparedAs? x = none ↔ x.isNaN = true := by
  show _ ↔ x.toModel.unpack.isNaN = true
  rw [UnpackedFloat.isNaN_iff]
  unfold comparedAs?
  cases x.toModel.unpack <;> simp

theorem beq_iff_comparedAs? :
    (x == y) = true ↔ comparedAs? x ≠ none ∧ comparedAs? x = comparedAs? y := by
  show x.toModel.unpack.beq y.toModel.unpack = true ↔ _
  rw [UnpackedFloat.beq_iff_ne_notANumber_and_eq]
  unfold comparedAs?
  generalize x.toModel.unpack = a
  generalize y.toModel.unpack = b
  cases a with
  | zero s =>
    cases b with
    | zero t => cases s <;> cases t <;> simp
    | notANumber | infinity | finite => simp
  | notANumber => simp
  | infinity | finite => cases b <;> simp

/-- A number is what it is unpacked to. -/
theorem eq_of_unpack_eq (h : x.toModel.unpack = y.toModel.unpack) : x = y := by
  have hbits := (UnpackedFloat.unpack_inj_of_valid x.toModel.valid y.toModel.valid).mp h
  obtain ⟨⟨a, ha⟩⟩ := x
  obtain ⟨⟨b, hb⟩⟩ := y
  obtain rfl := UInt64.toBitVec_inj.mp hbits
  rfl

theorem beq_zero {s : UnpackedFloat.Sign} (h : x.toModel.unpack = .zero s) : (x == 0) = true := by
  show x.toModel.unpack.beq (.zero .positive) = true
  rw [h]
  cases s <;> rfl

/-- The tests of `formatNumber` tell the kinds of doubles apart. -/
theorem formatNumber_eq (x : Float) :
    formatNumber x = match x.toModel.unpack with
      | .notANumber => "NaN"
      | .infinity .positive => "Infinity"
      | .infinity .negative => "-Infinity"
      | .zero _ => "0"
      | .finite .. =>
        if 1e21 ≤ x.abs ∨ x.abs < 1e-6 then withPowerSign (scientificText x)
        else positionalText x := by
  have hnan : x.isNaN = x.toModel.unpack.isNaN := rfl
  have hinf : x.isInf = x.toModel.unpack.isInf := rfl
  have hzero : (x == 0) = x.toModel.unpack.beq (.zero .positive) := rfl
  have hpositive : 0 < x ↔ UnpackedFloat.lt (.zero .positive) x.toModel.unpack = true :=
    decide_eq_true_iff
  rw [formatNumber, hnan, hinf, hzero, if_congr hpositive rfl rfl]
  cases x.toModel.unpack with
  | notANumber => rfl
  | infinity s | zero s | finite s => cases s <;> rfl

theorem formatNumber_zero {s : UnpackedFloat.Sign} (h : x.toModel.unpack = .zero s) :
    formatNumber x = "0" := by
  rw [formatNumber_eq, h]

/-- The text of a number does not tell the zeros apart. -/
theorem formatNumber_congr (h : comparedAs? x = comparedAs? y) :
    formatNumber x = formatNumber y := by
  rcases comparedAs?_eq_iff.mp h with heq | ⟨s, t, hx, hy⟩
  · rw [eq_of_unpack_eq heq]
  · rw [formatNumber_zero hx, formatNumber_zero hy]

theorem beq_congr (h : comparedAs? x = comparedAs? y) (z : Float) : (x == z) = (y == z) := by
  rw [Bool.eq_iff_iff, beq_iff_comparedAs?, beq_iff_comparedAs?, h]

theorem isNaN_congr (h : comparedAs? x = comparedAs? y) : x.isNaN = y.isNaN := by
  rw [Bool.eq_iff_iff, ← comparedAs?_eq_none_iff, ← comparedAs?_eq_none_iff, h]

end Numbers

/-! ## Values -/

/-- What strict equality sees of a value. -/
inductive Comparand
  | nil
  | boolean (b : Bool)
  | number (u : UnpackedFloat)
  | string (s : String)
  | function (identity : Nat)
  | builtin (b : Builtin)

namespace Value

/-- What a value counts as when it is compared with another one. -/
def comparedAs? : Value → Option Comparand
  | nil => some .nil
  | boolean b => some (.boolean b)
  | number x => (TracedEval.comparedAs? x).map .number
  | string s => some (.string s)
  | function f => some (.function f.identity)
  | builtin b => some (.builtin b)

/-- Values are equal when they count as the same thing. -/
theorem strictEquals_iff {v w : Value} :
    v.strictEquals w = true ↔ v.comparedAs? ≠ none ∧ v.comparedAs? = w.comparedAs? := by
  cases v with
  | number x =>
    cases w with
    | number y =>
      simp only [strictEquals, beq_iff_comparedAs?, comparedAs?]
      cases TracedEval.comparedAs? x <;> cases TracedEval.comparedAs? y <;> simp
    | nil | boolean | string | function | builtin =>
      simp only [strictEquals, comparedAs?]
      cases TracedEval.comparedAs? x <;> simp
  | nil | boolean | string | function | builtin =>
    cases w with
    | number y =>
      simp only [strictEquals, comparedAs?]
      cases TracedEval.comparedAs? y <;> simp
    | nil | boolean | string | function | builtin => simp [strictEquals, comparedAs?]

theorem strictEquals_comm (v w : Value) : v.strictEquals w = w.strictEquals v := by
  rw [Bool.eq_iff_iff, strictEquals_iff, strictEquals_iff]
  constructor
  · rintro ⟨hne, heq⟩
    exact ⟨heq ▸ hne, heq.symm⟩
  · rintro ⟨hne, heq⟩
    exact ⟨heq ▸ hne, heq.symm⟩

theorem strictEquals_trans {u v w : Value} (huv : u.strictEquals v = true)
    (hvw : v.strictEquals w = true) : u.strictEquals w = true := by
  rw [strictEquals_iff] at huv hvw ⊢
  exact ⟨huv.1, huv.2.trans hvw.2⟩

/-- Not-a-number is the only value that does not equal itself. -/
theorem strictEquals_self_iff {v : Value} :
    v.strictEquals v = true ↔ ∀ x, v = .number x → x.isNaN = false := by
  rw [strictEquals_iff, and_iff_left rfl]
  cases v with
  | number x =>
    have hnone : (number x).comparedAs? = none ↔ x.isNaN = true := by
      rw [comparedAs?, Option.map_eq_none_iff, comparedAs?_eq_none_iff]
    rw [Ne, hnone, Bool.not_eq_true]
    refine ⟨fun h y hy => ?_, fun h => h x rfl⟩
    cases hy
    exact h
  | nil | boolean | string | function | builtin => simp [comparedAs?]

/-- A program cannot tell the values apart by their kind, their text, as guards or by calling them,
and functions are the same in every respect: in name, arity, body and captured locals. -/
structure Alike (v w : Value) : Prop where
  type : v.type = w.type
  display : v.display = w.display
  isTruthy : v.isTruthy = w.isTruthy
  function : v.type = .function → v = w
  calls : ∀ (run : BodyRunner) (ctx : Context) (name : String) (pos : Position)
    (args : List Value),
    ctx.callValue run v name pos args = ctx.callValue run w name pos args

theorem Alike.refl (v : Value) : v.Alike v := ⟨rfl, rfl, rfl, fun _ => rfl, fun _ _ _ _ _ => rfl⟩

/-- Equal values are alike, if functions with one identity are one function. -/
theorem alike_of_strictEquals {v w : Value} (h : v.strictEquals w = true)
    (hfunctions : ∀ f g, v = .function f → w = .function g → f.identity = g.identity → f = g) :
    v.Alike w := by
  cases v with
  | number x =>
    cases w with
    | number y =>
      have hsame := (beq_iff_comparedAs?.mp h).2
      refine ⟨rfl, formatNumber_congr hsame, ?_, ?_, fun _ _ _ _ _ => rfl⟩
      · show (!(x == 0) && !x.isNaN) = (!(y == 0) && !y.isNaN)
        rw [beq_congr hsame, isNaN_congr hsame]
      · intro htype
        cases htype
    | nil | boolean | string | function | builtin => cases h
  | function f =>
    cases w with
    | function g =>
      obtain rfl := hfunctions f g rfl rfl (beq_iff_eq.mp h)
      exact .refl _
    | nil | boolean | number | string | builtin => cases h
  | nil =>
    cases w with
    | nil => exact .refl _
    | boolean | number | string | function | builtin => cases h
  | boolean b =>
    cases w with
    | boolean c =>
      obtain rfl := beq_iff_eq.mp h
      exact .refl _
    | nil | number | string | function | builtin => cases h
  | string s =>
    cases w with
    | string t =>
      obtain rfl := beq_iff_eq.mp h
      exact .refl _
    | nil | boolean | number | function | builtin => cases h
  | builtin b =>
    cases w with
    | builtin c =>
      obtain rfl := beq_iff_eq.mp h
      exact .refl _
    | nil | boolean | number | string | function => cases h

end Value

end TracedEval
