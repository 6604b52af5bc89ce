import TracedEval.Number.Display
import TracedEval.Proofs.DecimalText
import TracedEval.Proofs.Number.Grid

/-!
# Numerals

`numeral` is how digits are written down, depending on where the decimal point is. The layouts write
this, each for its own places of the point, and a numeral is read back as the exact decimal that it
stands for.
-/

namespace TracedEval

/-- The `k` digits of `s` with the decimal point `e` places behind the first one of them. Up to a
length they are written in full, otherwise with a power of ten. -/
def numeral (s k : ℕ) (e : ℤ) : List Char :=
  let digits := Nat.toDigits 10 s
  if k ≤ e ∧ e ≤ 21 then digits ++ List.replicate (e - k).toNat '0'
  else if 0 < e ∧ e ≤ 21 then digits.take e.toNat ++ '.' :: digits.drop e.toNat
  else if -6 < e ∧ e ≤ 0 then '0' :: '.' :: (List.replicate (-e).toNat '0' ++ digits)
  else
    let power := 'e' :: (if 0 < e then '+' else '-') :: Nat.toDigits 10 (e - 1).natAbs
    if k = 1 then digits ++ power
    else digits.take 1 ++ '.' :: (digits.drop 1 ++ power)

theorem toList_pushn (text : String) (c : Char) (n : ℕ) :
    (text.pushn c n).toList = text.toList ++ List.replicate n c := by
  rw [String.pushn_eq_repeat_push]
  induction n with
  | zero => simp [Nat.repeat]
  | succ n ih => simp [Nat.repeat, ih, List.replicate_succ']

variable {s k : ℕ} {e : ℤ}

theorem HasDigits.length_toDigits (h : HasDigits s k) : (Nat.toDigits 10 s).length = k := by
  rw [TracedEval.length_toDigits, h.decimalLength_eq]

/-! ## The layouts write numerals -/

theorem toList_positional (h : HasDigits s k) (hlow : -6 < e) (hhigh : e ≤ 21) :
    (NumberLayout.positional "" (toString s) e).toList = numeral s k e := by
  have hpos := h.pos
  have hlength : (toString s).length = k := by
    rw [← String.length_toList, toList_toString, h.length_toDigits]
  rw [NumberLayout.positional, numeral]
  simp only [hlength]
  by_cases hsmall : e ≤ 0
  · rw [if_pos hsmall, if_neg (by omega), if_neg (by omega), if_pos ⟨hlow, hsmall⟩]
    simp [toList_pushn]
  · rw [if_neg hsmall]
    by_cases hinside : e < k
    · rw [if_pos hinside, if_neg (by omega), if_pos ⟨by omega, hhigh⟩]
      simp
    · rw [if_neg hinside, if_pos ⟨by omega, hhigh⟩]
      simp [toList_pushn]

/-- The digits in front of a power of ten, with a point behind the first one if there are more. -/
def significandDigits (digits : List Char) : List Char :=
  if digits.length = 1 then digits else digits.take 1 ++ '.' :: digits.drop 1

theorem toList_scientific (plus : String) (h : HasDigits s k) :
    (NumberLayout.scientific plus (toString s) e).toList =
      significandDigits (Nat.toDigits 10 s) ++
        'e' :: ((if e - 1 < 0 then ['-'] else plus.toList) ++ Nat.toDigits 10 (e - 1).natAbs) := by
  obtain ⟨c, cs, hdigits⟩ := List.exists_cons_of_length_pos (h.length_toDigits ▸ h.pos)
  rw [NumberLayout.scientific, significandDigits]
  simp only [toList_toString, hdigits]
  cases cs with
  | nil => simp [apply_ite String.toList]
  | cons d ds => simp [apply_ite String.toList]

/-- In front of the power of ten no letter stands. -/
theorem e_not_mem_significandDigits : 'e' ∉ significandDigits (Nat.toDigits 10 s) := by
  have hdigits : 'e' ∉ Nat.toDigits 10 s := by
    intro hmem
    exact absurd ((digits_toDigits s).isDigit 'e' hmem) (by decide)
  rw [significandDigits]
  split
  · exact hdigits
  · simp only [List.mem_append, List.mem_cons, not_or]
    exact ⟨fun hmem => hdigits (List.mem_of_mem_take hmem), by decide,
      fun hmem => hdigits (List.mem_of_mem_drop hmem)⟩

theorem toList_withPowerSign {text : String} {front power : List Char} (hfront : 'e' ∉ front)
    (htext : text.toList = front ++ 'e' :: power) :
    (withPowerSign text).toList =
      front ++ 'e' :: (if power.head? = some '-' then power else '+' :: power) := by
  have hbefore : ∀ c ∈ front, (c != 'e') = true := by
    intro c hc
    rw [bne_iff_ne]
    rintro rfl
    exact hfront hc
  have hmantissa : text.toList.takeWhile (· != 'e') = front := by
    rw [htext, List.takeWhile_append_of_pos hbefore]
    simp
  have hpower : text.toList.dropWhile (· != 'e') = 'e' :: power := by
    rw [htext, List.dropWhile_append_of_pos hbefore]
    simp
  simp only [withPowerSign, hmantissa, hpower]
  split
  · exact htext
  · exact String.toList_ofList

/-- Splitting at the letter and putting a plus in is writing the power with its plus at once. -/
theorem toList_withPowerSign_scientific (front : String) (hfront : 'e' ∉ front.toList)
    (h : HasDigits s k) :
    (withPowerSign (front ++ NumberLayout.scientific "" (toString s) e)).toList =
      front.toList ++ (NumberLayout.scientific "+" (toString s) e).toList := by
  have hmantissa : 'e' ∉ front.toList ++ significandDigits (Nat.toDigits 10 s) := by
    rw [List.mem_append, not_or]
    exact ⟨hfront, e_not_mem_significandDigits⟩
  have htext : (front ++ NumberLayout.scientific "" (toString s) e).toList =
      (front.toList ++ significandDigits (Nat.toDigits 10 s)) ++
        'e' :: ((if e - 1 < 0 then ['-'] else []) ++ Nat.toDigits 10 (e - 1).natAbs) := by
    rw [String.toList_append, toList_scientific "" h, List.append_assoc]
    rfl
  rw [toList_withPowerSign hmantissa htext, toList_scientific "+" h, List.append_assoc]
  congr 3
  by_cases hneg : e - 1 < 0
  · rw [if_pos hneg, if_pos hneg]
    rfl
  · rw [if_neg hneg, if_neg hneg, List.nil_append]
    refine if_neg fun hminus => ?_
    have hmem := List.mem_of_mem_head? (Option.mem_def.mpr hminus)
    exact absurd ((digits_toDigits _).isDigit '-' hmem) (by decide)

theorem toList_scientific_eq_numeral (h : HasDigits s k) (hplace : e ≤ -6 ∨ 21 < e) :
    (NumberLayout.scientific "+" (toString s) e).toList = numeral s k e := by
  have hpos := h.pos
  have hsign : (if e - 1 < 0 then ['-'] else "+".toList) = [if 0 < e then '+' else '-'] := by
    by_cases hneg : e - 1 < 0
    · rw [if_pos hneg, if_neg (by omega)]
    · rw [if_neg hneg, if_pos (by omega)]
      rfl
  have hfull : ¬ ((k : ℤ) ≤ e ∧ e ≤ 21) := by omega
  have hinside : ¬ (0 < e ∧ e ≤ 21) := by omega
  have hbefore : ¬ (-6 < e ∧ e ≤ 0) := by omega
  rw [numeral, if_neg hfull, if_neg hinside, if_neg hbefore, toList_scientific "+" h, hsign,
    significandDigits, h.length_toDigits]
  split
  · rfl
  · rw [List.append_assoc]
    rfl

/-! ## Numerals are read back -/

section Reading

variable {whole fraction power : List Char} {p : ℤ}

theorem unsignedValue?_append {rest : List Char} (hwhole : Digits whole) (hrest : NoDigit rest)
    (hfraction : fractionDigits? rest = some (fraction, power))
    (hpower : powerValue? power = some p) :
    unsignedValue? (whole ++ rest) =
      some ((Nat.ofDigitChars 10 (whole ++ fraction) 0 : ℕ) * 10 ^ (p - fraction.length) : ℚ) := by
  simp only [unsignedValue?, leadingDigits?_append hwhole hrest, hfraction, hpower,
    Option.bind_eq_bind, Option.bind_some]

theorem unsignedValue?_point (hwhole : Digits whole) (hfraction : Digits fraction)
    (hend : NoDigit power) (hpower : powerValue? power = some p) :
    unsignedValue? (whole ++ '.' :: (fraction ++ power)) =
      some ((Nat.ofDigitChars 10 (whole ++ fraction) 0 : ℕ) * 10 ^ (p - fraction.length) : ℚ) :=
  unsignedValue?_append hwhole ((noDigit_cons _ _).mpr rfl)
    (leadingDigits?_append hfraction hend) hpower

theorem digitsValue?_toDigits (n : ℕ) : digitsValue? (Nat.toDigits 10 n) = some n := by
  rw [digitsValue?, if_pos (digits_toDigits n), Nat.ofDigitChars_ten_toDigits]

theorem powerValue?_toDigits (p : ℤ) :
    powerValue? ('e' :: (if 0 ≤ p then '+' else '-') :: Nat.toDigits 10 p.natAbs) = some p := by
  rw [powerValue?, if_pos (Or.inl rfl)]
  by_cases hp : 0 ≤ p
  · rw [if_pos hp]
    simp only [signedValue?, digitsValue?_toDigits, Option.map_some, Option.some_inj]
    exact Int.natAbs_of_nonneg hp
  · rw [if_neg hp]
    simp only [signedValue?, digitsValue?_toDigits, Option.map_some, Option.some_inj]
    show -(p.natAbs : ℤ) = p
    omega

theorem Digits.take {digits : List Char} (h : Digits digits) {n : ℕ} (hn : 0 < n) :
    Digits (digits.take n) :=
  ⟨by simp [hn.ne', h.ne_nil], fun c hc => h.isDigit c (List.mem_of_mem_take hc)⟩

theorem Digits.drop {digits : List Char} (h : Digits digits) {n : ℕ} (hn : n < digits.length) :
    Digits (digits.drop n) :=
  ⟨by simp [hn], fun c hc => h.isDigit c (List.mem_of_mem_drop hc)⟩

theorem Digits.append_zeros {digits : List Char} (h : Digits digits) (n : ℕ) :
    Digits (digits ++ List.replicate n '0') := by
  refine ⟨List.append_ne_nil_of_left_ne_nil h.ne_nil _, List.forall_mem_append.mpr ⟨h.isDigit, ?_⟩⟩
  intro c hc
  rw [List.eq_of_mem_replicate hc]
  rfl

theorem Digits.zeros_append {digits : List Char} (h : Digits digits) (n : ℕ) :
    Digits (List.replicate n '0' ++ digits) := by
  refine ⟨List.append_ne_nil_of_right_ne_nil _ h.ne_nil, List.forall_mem_append.mpr ⟨?_, h.isDigit⟩⟩
  intro c hc
  rw [List.eq_of_mem_replicate hc]
  rfl

end Reading

section Forms

variable {digits : List Char} (hdigits : Digits digits)

include hdigits

theorem unsignedValue?_zeros (n : ℕ) :
    unsignedValue? (digits ++ List.replicate n '0') =
      some (Nat.ofDigitChars 10 digits 0 * 10 ^ n : ℚ) := by
  have hread := unsignedValue?_append (hdigits.append_zeros n) noDigit_nil rfl rfl
  rw [List.append_nil] at hread
  rw [hread, Nat.ofDigitChars_append, Nat.ofDigitChars_replicate_zero]
  simp [mul_comm]

theorem unsignedValue?_inside {n : ℕ} (hpos : 0 < n) (hlt : n < digits.length) :
    unsignedValue? (digits.take n ++ '.' :: digits.drop n) =
      some (Nat.ofDigitChars 10 digits 0 * 10 ^ ((n : ℤ) - digits.length) : ℚ) := by
  have hread := unsignedValue?_point (hdigits.take hpos) (hdigits.drop hlt) noDigit_nil rfl
  rw [List.append_nil] at hread
  rw [hread, List.take_append_drop, List.length_drop]
  congr 3
  omega

theorem unsignedValue?_before (n : ℕ) :
    unsignedValue? ('0' :: '.' :: (List.replicate n '0' ++ digits)) =
      some (Nat.ofDigitChars 10 digits 0 * 10 ^ (-(n : ℤ) - digits.length) : ℚ) := by
  have hread := unsignedValue?_point (digits_toDigits 0) (hdigits.zeros_append n) noDigit_nil rfl
  rw [List.append_nil] at hread
  have hzeros : Nat.ofDigitChars 10 (Nat.toDigits 10 0 ++ (List.replicate n '0' ++ digits)) 0 =
      Nat.ofDigitChars 10 digits 0 := by
    rw [Nat.ofDigitChars_append, Nat.ofDigitChars_append, Nat.ofDigitChars_ten_toDigits,
      Nat.ofDigitChars_replicate_zero, Nat.mul_zero]
  rw [hzeros, List.length_append, List.length_replicate] at hread
  refine hread.trans ?_
  congr 3
  omega

theorem unsignedValue?_power (p : ℤ) :
    unsignedValue? (significandDigits digits ++
      'e' :: (if 0 ≤ p then '+' else '-') :: Nat.toDigits 10 p.natAbs) =
      some (Nat.ofDigitChars 10 digits 0 * 10 ^ (p - (digits.length - 1)) : ℚ) := by
  rw [significandDigits]
  by_cases hone : digits.length = 1
  · have hread := unsignedValue?_append hdigits ((noDigit_cons 'e' _).mpr rfl) rfl
      (powerValue?_toDigits p)
    rw [if_pos hone, hread, List.append_nil, hone]
    rfl
  · have hlength := List.length_pos_of_ne_nil hdigits.ne_nil
    have hread := unsignedValue?_point (hdigits.take (n := 1) (by decide))
      (hdigits.drop (n := 1) (by omega)) ((noDigit_cons 'e' _).mpr rfl) (powerValue?_toDigits p)
    rw [if_neg hone, List.append_assoc, List.cons_append, hread, List.take_append_drop,
      List.length_drop, Nat.cast_sub (by omega)]
    rfl

end Forms

/-- A numeral stands for its decimal. -/
theorem unsignedValue?_numeral (h : HasDigits s k) :
    unsignedValue? (numeral s k e) = some (s * 10 ^ (e - k) : ℚ) := by
  have hpos := h.pos
  have hdigits := digits_toDigits s
  have hlength := h.length_toDigits
  have hvalue : Nat.ofDigitChars 10 (Nat.toDigits 10 s) 0 = s := Nat.ofDigitChars_ten_toDigits
  rw [numeral]
  by_cases hfull : (k : ℤ) ≤ e ∧ e ≤ 21
  · have hexp : (10 : ℚ) ^ (e - k) = 10 ^ (e - k).toNat := by
      rw [← zpow_natCast]
      congr 1
      omega
    rw [if_pos hfull, unsignedValue?_zeros hdigits, hvalue, hexp]
  · rw [if_neg hfull]
    by_cases hinside : 0 < e ∧ e ≤ 21
    · have hexp : e - k = (e.toNat : ℤ) - k := by omega
      rw [if_pos hinside, unsignedValue?_inside hdigits (by omega) (by omega), hvalue, hlength,
        hexp]
    · rw [if_neg hinside]
      by_cases hbefore : -6 < e ∧ e ≤ 0
      · have hexp : e - k = -((-e).toNat : ℤ) - k := by omega
        rw [if_pos hbefore, unsignedValue?_before hdigits, hvalue, hlength, hexp]
      · have hread := unsignedValue?_power hdigits (e - 1)
        have hexp : e - k = e - 1 - (k - 1) := by omega
        have hsign : (0 ≤ e - 1) = (0 < e) := by
          rw [eq_iff_iff]
          omega
        rw [significandDigits, hlength, hvalue] at hread
        rw [if_neg hbefore, hexp, ← hread]
        simp only [hsign]
        split
        · rfl
        · rw [List.append_assoc]
          rfl

end TracedEval
