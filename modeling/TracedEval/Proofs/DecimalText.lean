import TracedEval.Proofs.Leading

/-!
# Reading decimals

`decimalValue?` reads a text as the exact number that it writes: digits, possibly with a point among
them, a sign in front and a power of ten behind. Nothing is rounded.
-/

namespace TracedEval

/-- Takes the digits behind a point off the front; without a point there are none. -/
def fractionDigits? : List Char → Option (List Char × List Char)
  | '.' :: cs => leadingDigits? cs
  | cs => some ([], cs)

/-- Reads a text of digits. -/
def digitsValue? (cs : List Char) : Option ℕ :=
  if Digits cs then some (Nat.ofDigitChars 10 cs 0) else none

/-- Reads a text of digits with a sign in front, if there is one. -/
def signedValue? : List Char → Option ℤ
  | '+' :: digits => (digitsValue? digits).map Int.ofNat
  | '-' :: digits => (digitsValue? digits).map fun n => -Int.ofNat n
  | digits => (digitsValue? digits).map Int.ofNat

/-- Reads a power of ten, with the letter in front of it; without one it is zero. -/
def powerValue? : List Char → Option ℤ
  | [] => some 0
  | c :: cs => if c = 'e' ∨ c = 'E' then signedValue? cs else none

/-- Reads a decimal without a sign. -/
def unsignedValue? (cs : List Char) : Option ℚ := do
  let (whole, cs) ← leadingDigits? cs
  let (fraction, cs) ← fractionDigits? cs
  let power ← powerValue? cs
  some (Nat.ofDigitChars 10 (whole ++ fraction) 0 * 10 ^ (power - fraction.length))

/-- Reads a decimal. -/
def decimalValue? : List Char → Option ℚ
  | '-' :: cs => (unsignedValue? cs).map (- ·)
  | cs => unsignedValue? cs

/-! ## The characters of decimals -/

/-- A character that may stand in a decimal. -/
def isDecimalChar (c : Char) : Bool :=
  c.isDigit || c == '-' || c == '+' || c == '.' || c == 'e' || c == 'E'

/-- There are only such characters. -/
def DecimalChars (cs : List Char) : Prop := ∀ c ∈ cs, isDecimalChar c = true

theorem Digits.decimalChars {cs : List Char} (h : Digits cs) : DecimalChars cs := by
  intro c hc
  simp [isDecimalChar, h.isDigit c hc]

theorem DecimalChars.cons {c : Char} {cs : List Char} (hc : isDecimalChar c = true)
    (h : DecimalChars cs) : DecimalChars (c :: cs) := List.forall_mem_cons.mpr ⟨hc, h⟩

theorem DecimalChars.append {cs ds : List Char} (h : DecimalChars cs) (h' : DecimalChars ds) :
    DecimalChars (cs ++ ds) := List.forall_mem_append.mpr ⟨h, h'⟩

theorem decimalChars_of_digitsValue? {cs : List Char} {n : ℕ} (h : digitsValue? cs = some n) :
    DecimalChars cs := by
  rw [digitsValue?] at h
  split at h
  · rename_i hdigits
    exact hdigits.decimalChars
  · cases h

theorem decimalChars_of_signedValue? {cs : List Char} {p : ℤ} (h : signedValue? cs = some p) :
    DecimalChars cs := by
  unfold signedValue? at h
  split at h <;> obtain ⟨n, hn, -⟩ := Option.map_eq_some_iff.mp h
  · exact .cons rfl (decimalChars_of_digitsValue? hn)
  · exact .cons rfl (decimalChars_of_digitsValue? hn)
  · exact decimalChars_of_digitsValue? hn

theorem decimalChars_of_powerValue? {cs : List Char} {p : ℤ} (h : powerValue? cs = some p) :
    DecimalChars cs := by
  cases cs with
  | nil => exact fun c hc => by cases hc
  | cons c cs =>
    rw [powerValue?] at h
    split at h
    · rename_i hletter
      have hc : isDecimalChar c = true := by rcases hletter with rfl | rfl <;> rfl
      exact .cons hc (decimalChars_of_signedValue? h)
    · cases h

theorem decimalChars_of_fractionDigits? {cs fraction rest : List Char}
    (h : fractionDigits? cs = some (fraction, rest)) (hrest : DecimalChars rest) :
    DecimalChars cs := by
  unfold fractionDigits? at h
  split at h
  · obtain ⟨rfl, hdigits⟩ := eq_append_of_leadingDigits? h
    exact .cons rfl (hdigits.decimalChars.append hrest)
  · cases h
    exact hrest

theorem decimalChars_of_unsignedValue? {cs : List Char} {q : ℚ} (h : unsignedValue? cs = some q) :
    DecimalChars cs := by
  simp only [unsignedValue?, Option.bind_eq_bind, Option.bind_eq_some_iff, Prod.exists] at h
  obtain ⟨whole, rest, hwhole, fraction, rest', hfraction, power, hpower, -⟩ := h
  obtain ⟨rfl, hdigits⟩ := eq_append_of_leadingDigits? hwhole
  exact hdigits.decimalChars.append
    (decimalChars_of_fractionDigits? hfraction (decimalChars_of_powerValue? hpower))

theorem decimalChars_of_decimalValue? {cs : List Char} {q : ℚ} (h : decimalValue? cs = some q) :
    DecimalChars cs := by
  unfold decimalValue? at h
  split at h
  · obtain ⟨q', hq', -⟩ := Option.map_eq_some_iff.mp h
    exact .cons rfl (decimalChars_of_unsignedValue? hq')
  · exact decimalChars_of_unsignedValue? h

/-- A text without a sign is not taken for one with a sign. -/
theorem decimalValue?_of_unsignedValue? {cs : List Char} {q : ℚ} (h : unsignedValue? cs = some q) :
    decimalValue? cs = some q := by
  unfold decimalValue?
  split
  · rename_i rest
    have hnone : leadingDigits? ('-' :: rest) = none := if_pos rfl
    simp [unsignedValue?, hnone] at h
  · exact h

/-! ## Whole numbers -/

theorem decimalValue?_toDigits (n : ℕ) : decimalValue? (Nat.toDigits 10 n) = some (n : ℚ) := by
  have hdigits := digits_toDigits n
  have hread := leadingDigits?_append hdigits noDigit_nil
  rw [List.append_nil] at hread
  refine decimalValue?_of_unsignedValue? ?_
  rw [unsignedValue?, hread]
  simp [fractionDigits?, powerValue?, Nat.ofDigitChars_ten_toDigits]

end TracedEval
