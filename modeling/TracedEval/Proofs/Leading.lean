import Mathlib.Data.List.Basic
import Mathlib.Data.List.TakeWhile
import Mathlib.Tactic.IntervalCases
import TracedEval.Report

/-!
# Reading texts from the front

Readers that take something off the front of a text and hand back what is left. What is written
before any further text is read back from there, as long as the further text cannot be taken for a
part of it: for digits, as long as no digit follows.
-/

namespace TracedEval

/-! ## Literals -/

/-- Takes a literal off the front. -/
def afterLiteral? (literal : String) (cs : List Char) : Option (List Char) :=
  cs.dropPrefix? literal.toList

@[simp] theorem afterLiteral?_append (literal : String) (rest : List Char) :
    afterLiteral? literal (literal.toList ++ rest) = some rest :=
  List.dropPrefix?_append_of_beq rest (beq_self_eq_true _)

/-! ## Digits -/

/-- All of them are digits, and there is one. -/
structure Digits (cs : List Char) : Prop where
  ne_nil : cs ≠ []
  isDigit : ∀ c ∈ cs, c.isDigit = true

instance (cs : List Char) : Decidable (Digits cs) :=
  decidable_of_iff (cs ≠ [] ∧ cs.all Char.isDigit = true)
    ⟨fun h => ⟨h.1, List.all_eq_true.mp h.2⟩, fun h => ⟨h.ne_nil, List.all_eq_true.mpr h.isDigit⟩⟩

theorem digits_toDigits (n : ℕ) : Digits (Nat.toDigits 10 n) :=
  ⟨Nat.toDigits_ne_nil, fun _ hc => Nat.isDigit_of_mem_toDigits (by decide) (by decide) hc⟩

/-- Only zero is written with a zero in front. -/
theorem toDigits_eq_cons {n : ℕ} (h : 0 < n) :
    ∃ c cs, Nat.toDigits 10 n = c :: cs ∧ c ≠ '0' := by
  induction n using Nat.strong_induction_on with
  | _ n ih =>
    by_cases hsmall : n < 10
    · refine ⟨n.digitChar, [], Nat.toDigits_of_lt_base hsmall, ?_⟩
      interval_cases n <;> decide
    · obtain ⟨c, cs, hdigits, hc⟩ := ih (n / 10) (by omega) (by omega)
      refine ⟨c, cs ++ [(n % 10).digitChar], ?_, hc⟩
      rw [Nat.toDigits_of_base_le (by decide) (by omega), hdigits, List.cons_append]

/-- The text does not begin with a digit. -/
def NoDigit (cs : List Char) : Prop := ∀ c ∈ cs.head?, c.isDigit = false

@[simp] theorem noDigit_nil : NoDigit [] := by simp [NoDigit]

@[simp] theorem noDigit_cons (c : Char) (cs : List Char) :
    NoDigit (c :: cs) ↔ c.isDigit = false := by simp [NoDigit]

/-- Takes digits off the front, as many as there are. -/
def leadingDigits? (cs : List Char) : Option (List Char × List Char) :=
  if cs.takeWhile Char.isDigit = [] then none
  else some (cs.takeWhile Char.isDigit, cs.dropWhile Char.isDigit)

theorem leadingDigits?_append {digits rest : List Char} (h : Digits digits) (hrest : NoDigit rest) :
    leadingDigits? (digits ++ rest) = some (digits, rest) := by
  have hstop : rest.takeWhile Char.isDigit = [] ∧ rest.dropWhile Char.isDigit = rest := by
    cases rest with
    | nil => simp
    | cons c rest => simp_all
  rw [leadingDigits?, List.takeWhile_append_of_pos h.isDigit, List.dropWhile_append_of_pos h.isDigit,
    hstop.1, hstop.2, List.append_nil, if_neg h.ne_nil]

theorem eq_append_of_leadingDigits? {cs digits rest : List Char}
    (h : leadingDigits? cs = some (digits, rest)) : cs = digits ++ rest ∧ Digits digits := by
  rw [leadingDigits?] at h
  split at h
  · cases h
  · rename_i hne
    cases h
    exact ⟨List.takeWhile_append_dropWhile.symm, hne, fun c hc => List.mem_takeWhile_imp hc⟩

/-- Reads a number off the front. -/
def leadingNat? (cs : List Char) : Option (ℕ × List Char) :=
  (leadingDigits? cs).map fun (digits, rest) => (Nat.ofDigitChars 10 digits 0, rest)

/-- A number is read back, whatever follows it that is no digit. -/
theorem leadingNat?_append (n : ℕ) {rest : List Char} (hrest : NoDigit rest) :
    leadingNat? (Nat.toDigits 10 n ++ rest) = some (n, rest) := by
  rw [leadingNat?, leadingDigits?_append (digits_toDigits n) hrest]
  simp only [Option.map_some, Nat.ofDigitChars_ten_toDigits]

@[simp] theorem toList_toString (n : ℕ) : (toString n).toList = Nat.toDigits 10 n := by
  rw [Nat.toString_eq_ofList_toDigits, String.toList_ofList]

end TracedEval
