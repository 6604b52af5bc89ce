import Mathlib.Data.Char
import TracedEval.Config.Reader
import TracedEval.Proofs.Json.Tree
import TracedEval.Proofs.Number.Numeral

/-!
# Reading scalars

What the readers of keywords, strings and numbers make of JSON texts.
-/

namespace TracedEval

/-- The reading gives this and goes on with that text. Where there is nothing to be given, it
fails. -/
def Gives {α : Type} (reading : Reading (α × Cursor)) (x? : Option α) (t : List Char) : Prop :=
  match x? with
  | some x => ∃ after, reading = .ok (x, after) ∧ after.rest = t
  | none => ∃ e, reading = .error e

section Gives

variable {α β : Type} {reading : Reading (α × Cursor)} {x? : Option α} {t u : List Char}

theorem Gives.map (h : Gives reading x? t) (f : α → β) :
    Gives (reading.map fun (x, c) => (f x, c)) (x?.map f) t := by
  cases x? with
  | none =>
    obtain ⟨e, rfl⟩ := h
    exact ⟨e, rfl⟩
  | some x =>
    obtain ⟨after, rfl, hrest⟩ := h
    exact ⟨after, rfl, hrest⟩

/-- One reading goes on where the other one has left off. -/
theorem Gives.bind {f : α × Cursor → Reading (β × Cursor)} {g : α → Option β}
    (h : Gives reading x? t)
    (hnext : ∀ x after, x? = some x → after.rest = t → Gives (f (x, after)) (g x) u) :
    Gives (reading >>= f) (x?.bind g) u := by
  cases x? with
  | none =>
    obtain ⟨e, rfl⟩ := h
    exact ⟨e, rfl⟩
  | some x =>
    obtain ⟨after, rfl, hrest⟩ := h
    exact hnext x after rfl hrest

end Gives

section Results

variable {ε α β : Type} {x : Except ε α} {b : β}

theorem exists_of_bind_eq_ok {f : α → Except ε β} (h : x >>= f = .ok b) :
    ∃ a, x = .ok a ∧ f a = .ok b := by
  cases x with
  | error e => cases h
  | ok a => exact ⟨a, rfl, h⟩

theorem exists_of_map_eq_ok {f : α → β} (h : x.map f = .ok b) : ∃ a, x = .ok a ∧ f a = b := by
  cases x with
  | error e => cases h
  | ok a => exact ⟨a, rfl, Except.ok.inj h⟩

end Results

/-! ## Places -/

theorem rest_drop (c : Cursor) (n : ℕ) : (c.drop n).rest = c.rest.drop n := rfl

theorem rest_drop_one {c : Cursor} {d : Char} {t : List Char} (h : c.rest = d :: t) :
    (c.drop 1).rest = t := by
  rw [rest_drop, h, List.drop_one, List.tail_cons]

theorem dropWhile_blanks {s t : List Char} (h : Blanks s t)
    (ht : ∀ d ∈ t.head?, isBlank d = false) :
    s.dropWhile isBlank = t := by
  induction h with
  | done s =>
    cases s with
    | nil => rfl
    | cons d s => rw [List.dropWhile_cons, ht d rfl, if_neg Bool.false_ne_true]
  | more blank _ ih => rw [List.dropWhile_cons, if_pos blank, ih ht]

theorem rest_skipBlanks {c : Cursor} {t : List Char} (h : Blanks c.rest t)
    (ht : ∀ d ∈ t.head?, isBlank d = false) : c.skipBlanks.rest = t := by
  rw [Cursor.skipBlanks, rest_drop, ← dropWhile_blanks h ht]
  conv => lhs; arg 2; rw [← List.takeWhile_append_dropWhile (p := isBlank) (l := c.rest)]
  rw [List.drop_left]

theorem rest_skipBlanks_cons {c : Cursor} {d : Char} {t : List Char} (h : Blanks c.rest (d :: t))
    (hd : isBlank d = false) : c.skipBlanks.rest = d :: t :=
  rest_skipBlanks h (by rintro d' ⟨⟩; exact hd)

/-! ## Keywords -/

theorem readKeyword_append (keyword : List Char) {c : Cursor} {t : List Char}
    (h : c.rest = keyword ++ t) : ∃ after, readKeyword c keyword = .ok after ∧ after.rest = t := by
  induction keyword generalizing c with
  | nil => exact ⟨c, rfl, h⟩
  | cons k keyword ih =>
    obtain ⟨after, hread, hrest⟩ := ih (c := c.drop 1) (rest_drop_one h)
    refine ⟨after, ?_, hrest⟩
    rw [readKeyword, h, List.cons_append]
    exact (if_pos rfl).trans hread

/-! ## Strings -/

theorem utf8Size_of_hexDigit? {c : Char} {n : ℕ} (h : hexDigit? c = some n) : c.utf8Size = 1 := by
  have hle : c ≤ '\x7f' := by
    unfold hexDigit? at h
    split at h
    · rename_i hrange
      exact hrange.2.trans (by decide)
    · split at h
      · rename_i hrange
        exact hrange.2.trans (by decide)
      · split at h
        · rename_i hrange
          exact hrange.2.trans (by decide)
        · cases h
  exact if_pos hle

/-- Hexadecimal digits are one byte each. -/
theorem byteCount_of_hexNumber? {cs : List Char} {n : ℕ} (h : hexNumber? cs = some n) :
    byteCount cs = cs.length := by
  unfold hexNumber? at h
  generalize 0 = k at h
  induction cs generalizing k with
  | nil => rfl
  | cons c cs ih =>
    rw [List.foldlM_cons] at h
    obtain ⟨k', hc, hcs⟩ := Option.bind_eq_some_iff.mp h
    obtain ⟨d, hd, -⟩ := Option.map_eq_some_iff.mp hc
    rw [byteCount, utf8Size_of_hexDigit? hd, ih k' hcs, List.length_cons, Nat.add_comm]

theorem readCodeUnit_hex {a b c d : Char} {n : ℕ} (h : hexNumber? [a, b, c, d] = some n)
    (offset : ℕ) (t : List Char) : readCodeUnit offset (a :: b :: c :: d :: t) = .ok n := by
  have hfour : (a :: b :: c :: d :: t).take 4 = [a, b, c, d] := rfl
  have hbytes : ¬ byteCount [a, b, c, d] < 4 := byteCount_of_hexNumber? h ▸ lt_irrefl 4
  simp only [readCodeUnit, hfour]
  rw [if_neg hbytes, h]

theorem exists_hex_of_readCodeUnit {offset n : ℕ} {rest : List Char}
    (h : readCodeUnit offset rest = .ok n) :
    ∃ a b c d t, rest = a :: b :: c :: d :: t ∧ hexNumber? [a, b, c, d] = some n := by
  simp only [readCodeUnit] at h
  split at h
  · cases h
  · rename_i hbytes
    split at h
    · rename_i m hnumber
      obtain rfl := Except.ok.inj h
      rw [byteCount_of_hexNumber? hnumber, List.length_take] at hbytes
      match rest with
      | a :: b :: c :: d :: t => exact ⟨a, b, c, d, t, rfl, hnumber⟩
      | [] | [_] | [_, _] | [_, _, _] => simp at hbytes
    · cases h

/-- The characters that a letter stands for are those that the reader takes it for. -/
theorem readEscape_letter {l c : Char} (h : letterEscape? l = some c) (offset : ℕ) (t : List Char) :
    readEscape offset (l :: t) = .ok (c, 1) := by
  unfold letterEscape? at h
  split at h <;> cases h <;> rfl

theorem readEscape_unit {a b c d : Char} {n : ℕ} (h : hexNumber? [a, b, c, d] = some n)
    (hleading : isLeadingSurrogate n = false) (htrailing : isTrailingSurrogate n = false)
    (offset : ℕ) (t : List Char) :
    readEscape offset ('u' :: a :: b :: c :: d :: t) = .ok (Char.ofNat n, 5) := by
  simp only [readEscape, readNumericEscape, readCodeUnit_hex h]
  show Except.map _ (if isTrailingSurrogate n = true then _ else
    if isLeadingSurrogate n = true then _ else _) = _
  rw [if_neg (by simp [htrailing]), if_neg (by simp [hleading])]
  rfl

theorem readEscape_pair {a b c d a' b' c' d' : Char} {m n : ℕ}
    (h : hexNumber? [a, b, c, d] = some m) (hleading : isLeadingSurrogate m = true)
    (h' : hexNumber? [a', b', c', d'] = some n) (htrailing : isTrailingSurrogate n = true)
    (offset : ℕ) (t : List Char) :
    readEscape offset ('u' :: a :: b :: c :: d :: '\\' :: 'u' :: a' :: b' :: c' :: d' :: t) =
      .ok (surrogatePair m n, 11) := by
  have hnot : isTrailingSurrogate m = false := by
    simp only [isLeadingSurrogate, Bool.and_eq_true, decide_eq_true_eq] at hleading
    simp only [isTrailingSurrogate, Bool.and_eq_false_iff, decide_eq_false_iff_not]
    omega
  simp [readEscape, readNumericEscape, readCodeUnit_hex h, readCodeUnit_hex h', hnot, hleading,
    htrailing, bind, Except.bind, Except.map]

/-- Behind an escape the reader goes on. -/
theorem readStringRest_escape {n : ℕ} {c : Char} {s cs t : List Char}
    (hescape : ∀ offset, readEscape offset s = .ok (c, n))
    (hread : ∀ offset, ∃ after, readStringRest offset (s.drop n) = .ok (cs, after) ∧ after.rest = t)
    (offset : ℕ) :
    ∃ after, readStringRest offset ('\\' :: s) = .ok (c :: cs, after) ∧ after.rest = t := by
  obtain ⟨after, htail, hrest⟩ := hread (offset + 1 + byteCount (s.take n))
  refine ⟨after, ?_, hrest⟩
  rw [readStringRest, hescape]
  dsimp only
  rw [htail]
  rfl

/-- The reader takes off a string what the string is. -/
theorem readStringRest_of_stringRest {s cs t : List Char} (h : StringRest s cs t) (offset : ℕ) :
    ∃ after, readStringRest offset s = .ok (cs, after) ∧ after.rest = t := by
  induction h generalizing offset with
  | close t =>
    rw [readStringRest]
    exact ⟨_, rfl, rfl⟩
  | @plain c s cs t quote backslash control rest ih =>
    obtain ⟨after, hread, hrest⟩ := ih (offset + c.utf8Size)
    refine ⟨after, ?_, hrest⟩
    rw [readStringRest, if_neg (not_lt.mpr control), hread]
    · rfl
    · exact quote
    · exact backslash
  | letter escape _ ih =>
    exact readStringRest_escape (fun offset => readEscape_letter escape offset _) ih offset
  | unit digits leading trailing _ ih =>
    exact readStringRest_escape (fun offset => readEscape_unit digits leading trailing offset _) ih
      offset
  | pair digits leading digits' trailing _ ih =>
    exact readStringRest_escape
      (fun offset => readEscape_pair digits leading digits' trailing offset _) ih offset

theorem stringRest_of_readNumericEscape {offset n : ℕ} {c : Char} {s cs t : List Char}
    (h : readNumericEscape offset s = .ok (c, n)) (htail : StringRest (s.drop n) cs t) :
    StringRest ('\\' :: 'u' :: s) (c :: cs) t := by
  obtain ⟨m, hunit, h⟩ := exists_of_bind_eq_ok h
  obtain ⟨a, b, c', d, s, rfl, hdigits⟩ := exists_hex_of_readCodeUnit hunit
  split at h
  · cases h
  · rename_i htrailing
    split at h
    · rename_i hleading
      split at h
      · cases h
      · cases h
      · rename_i second hsecond
        obtain ⟨m', hunit', hpair⟩ := exists_of_bind_eq_ok h
        obtain ⟨a', b', c'', d', s', rfl, hdigits'⟩ := exists_hex_of_readCodeUnit hunit'
        split at hpair
        · rename_i htrailing'
          obtain ⟨rfl, rfl⟩ := Prod.mk.inj (Except.ok.inj hpair)
          obtain rfl : s = '\\' :: 'u' :: a' :: b' :: c'' :: d' :: s' := hsecond
          exact .pair hdigits hleading hdigits' htrailing' htail
        · cases hpair
      · cases h
      · cases h
    · rename_i hleading
      cases h
      exact .unit hdigits (Bool.not_eq_true _ ▸ hleading) (Bool.not_eq_true _ ▸ htrailing) htail

theorem stringRest_of_readEscape {offset n : ℕ} {c : Char} {s cs t : List Char}
    (h : readEscape offset s = .ok (c, n)) (htail : StringRest (s.drop n) cs t) :
    StringRest ('\\' :: s) (c :: cs) t := by
  unfold readEscape at h
  split at h
  case h_10 digits =>
    obtain ⟨⟨c', n'⟩, hnumeric, hresult⟩ := exists_of_map_eq_ok h
    cases hresult
    exact stringRest_of_readNumericEscape hnumeric htail
  all_goals cases h
  all_goals exact .letter rfl htail

/-- What the reader takes off is a string. -/
theorem stringRest_of_readStringRest {offset : ℕ} {s cs : List Char} {after : Cursor}
    (h : readStringRest offset s = .ok (cs, after)) : StringRest s cs after.rest := by
  fun_induction readStringRest offset s generalizing cs with
  | case1 | case3 | case5 => cases h
  | case2 =>
    cases h
    exact .close _
  | case4 offset rest c n hescape ih =>
    obtain ⟨⟨cs', after'⟩, hread, hresult⟩ := exists_of_map_eq_ok h
    cases hresult
    exact stringRest_of_readEscape hescape (ih hread)
  | case6 offset c rest hquote hbackslash hcontrol ih =>
    obtain ⟨⟨cs', after'⟩, hread, hresult⟩ := exists_of_map_eq_ok h
    cases hresult
    exact .plain hquote hbackslash (not_lt.mp hcontrol) (ih hread)

theorem readString_gives {c : Cursor} {s t : List Char} {o : Option String}
    (hc : c.rest = '"' :: s) (h : StringText s o t) : Gives (readString c) o t := by
  have hinside : (c.drop 1).rest = s := rest_drop_one hc
  simp only [readString, hinside]
  cases h with
  | some chars =>
    obtain ⟨after, hread, hrest⟩ := readStringRest_of_stringRest chars (c.drop 1).offset
    rw [hread]
    exact ⟨after, rfl, hrest⟩
  | none written halved =>
    cases hread : readStringRest (c.drop 1).offset s with
    | error e => exact ⟨e, rfl⟩
    | ok result => exact absurd (stringRest_of_readStringRest hread) (halved _ _)

/-! ## Numbers that are no counts -/

/-- The reading does not come to a count. -/
def NoCount (reading : Reading (ReadNumber × Cursor)) : Prop :=
  ∀ n after, reading ≠ .ok (.count n, after)

section NoCount

variable (negative : Bool) (significand : ℕ) (exponent : ℤ) (c : Cursor)

theorem noCount_readFloat : NoCount (readFloat negative significand exponent c) := by
  unfold readFloat
  split
  · rintro n after ⟨⟩
  · rintro n after ⟨⟩

theorem noCount_readPower : NoCount (readPower negative significand exponent c) := by
  unfold readPower
  split
  split
  · rintro n after ⟨⟩
  · split
    · rintro n after ⟨⟩
    · dsimp only
      split
      · split
        · rintro n after ⟨⟩
        · rintro n after ⟨⟩
      · exact noCount_readFloat negative significand _ _

theorem noCount_readPower? : NoCount (readPower? negative significand exponent c) := by
  unfold readPower?
  split
  · exact noCount_readPower negative significand exponent _
  · exact noCount_readPower negative significand exponent _
  · exact noCount_readFloat negative significand exponent c

theorem noCount_readFraction : NoCount (readFraction negative significand exponent c) := by
  unfold readFraction
  split
  · rintro n after ⟨⟩
  · split
    · rintro n after ⟨⟩
    · exact noCount_readPower? negative _ _ _

theorem noCount_readLongWhole : NoCount (readLongWhole negative significand c) := by
  unfold readLongWhole
  dsimp only
  split
  · exact noCount_readFraction negative significand _ _
  · exact noCount_readPower? negative significand _ _

/-- A point or a power of ten follows. -/
def Continues (t : List Char) : Prop := ∃ d t', t = d :: t' ∧ (d = '.' ∨ d = 'e' ∨ d = 'E')

theorem noCount_readAfterWhole (h : negative = true ∨ Continues c.rest) :
    NoCount (readAfterWhole negative significand c) := by
  unfold readAfterWhole
  split
  · exact noCount_readFraction negative significand 0 _
  · exact noCount_readPower negative significand 0 _
  · exact noCount_readPower negative significand 0 _
  · rename_i hpoint hlower hupper
    rcases h with rfl | ⟨d, t, hrest, rfl | rfl | rfl⟩
    · split
      · contradiction
      · split
        · rintro n after ⟨⟩
        · rintro n after ⟨⟩
    · exact (hpoint t hrest).elim
    · exact (hlower t hrest).elim
    · exact (hupper t hrest).elim

theorem noCount_readNumber_negative : NoCount (readNumber true c) := by
  unfold readNumber
  split
  · rintro n after ⟨⟩
  · split
    · rintro n after ⟨⟩
    · exact noCount_readAfterWhole true 0 _ (.inl rfl)
  · split
    · rintro n after ⟨⟩
    · dsimp only
      split
      · exact noCount_readLongWhole true _ _
      · exact noCount_readAfterWhole true _ _ (.inl rfl)

end NoCount

/-! ## Counts -/

/-- Digits that fit the significand are all taken, and otherwise one of them is left. -/
theorem takeSignificand_append {ds t : List Char} (hds : ∀ d ∈ ds, d.isDigit = true)
    (ht : NoDigit t) {significand : ℕ} (hfits : significand < 2 ^ 64) :
    (Nat.ofDigitChars 10 ds significand < 2 ^ 64 →
      takeSignificand significand (ds ++ t) =
        (Nat.ofDigitChars 10 ds significand, ds.length, t)) ∧
    (2 ^ 64 ≤ Nat.ofDigitChars 10 ds significand →
      (takeSignificand significand (ds ++ t)).2.2.head?.any Char.isDigit = true) := by
  induction ds generalizing significand with
  | nil =>
    rw [Nat.ofDigitChars_nil, List.nil_append]
    refine ⟨fun _ => ?_, fun hlarge => absurd hfits (not_lt.mpr hlarge)⟩
    cases t with
    | nil => rfl
    | cons d t =>
      have hd : d.isDigit = false := ht d rfl
      simp [takeSignificand, hd]
  | cons d ds ih =>
    obtain ⟨hd, hds⟩ := List.forall_mem_cons.mp hds
    have hsize : UInt64.size = 2 ^ 64 := rfl
    rw [Nat.ofDigitChars_cons, mul_comm, List.cons_append, takeSignificand, hsize]
    dsimp only
    by_cases hnext : significand * 10 + (d.toNat - '0'.toNat) < 2 ^ 64
    · rw [if_pos ⟨hd, hnext⟩]
      obtain ⟨hall, hsome⟩ := ih hds hnext
      exact ⟨fun htotal => by rw [hall htotal]; rfl, hsome⟩
    · -- what the further digits add cannot bring it back
      rw [if_neg fun hboth => hnext hboth.2, Nat.ofDigitChars_eq_ofDigitChars_zero]
      have hgrow := Nat.le_mul_of_pos_left (significand * 10 + (d.toNat - '0'.toNat))
        (Nat.pow_pos (n := ds.length) (show 0 < 10 by decide))
      exact ⟨fun htotal => by omega, fun _ => hd⟩

/-- A whole part that nothing follows is a count. -/
theorem readAfterWhole_count {c : Cursor} (h : NumberEnds c.rest) (n : ℕ) :
    readAfterWhole false n c = .ok (.count n, c) := by
  have hnext : ∀ d t, c.rest = d :: t → isDecimalChar d = false := fun d t hrest =>
    h d (by rw [hrest]; rfl)
  unfold readAfterWhole
  split
  · rename_i t hrest
    cases hnext _ t hrest
  · rename_i t hrest
    cases hnext _ t hrest
  · rename_i t hrest
    cases hnext _ t hrest
  · rfl

/-- A whole part that fits is read to its end, and one that does not is no count. -/
theorem readNumber_whole {c : Cursor} {ds u : List Char} (hc : c.rest = ds ++ u) (hds : Digits ds)
    (hzero : ∀ ds', ds = '0' :: ds' → ds' = []) (hu : NoDigit u) :
    (Nat.ofDigitChars 10 ds 0 < 2 ^ 64 → ∃ after,
      readNumber false c = readAfterWhole false (Nat.ofDigitChars 10 ds 0) after ∧
        after.rest = u) ∧
    (2 ^ 64 ≤ Nat.ofDigitChars 10 ds 0 → NoCount (readNumber false c)) := by
  have hend : ¬ (u.head?.any Char.isDigit = true) := by
    cases u with
    | nil => exact Bool.false_ne_true
    | cons d u => exact Bool.eq_false_iff.mp (hu d rfl)
  obtain ⟨first, ds, rfl⟩ := List.exists_cons_of_ne_nil hds.ne_nil
  have hfirst : first.isDigit = true := hds.isDigit first List.mem_cons_self
  rw [List.cons_append] at hc
  unfold readNumber
  split
  · rename_i hnil
    cases hc.symm.trans hnil
  · rename_i rest hrest
    cases hc.symm.trans hrest
    obtain rfl := hzero ds rfl
    rw [List.nil_append, if_neg hend]
    exact ⟨fun _ => ⟨c.drop 1, rfl, rest_drop_one hc⟩, fun hlarge => by cases hlarge⟩
  · rename_i first' rest _ hrest
    cases hc.symm.trans hrest
    have hbegin : (0 : ℕ) < 2 ^ 64 := by decide
    obtain ⟨hall, hsome⟩ := takeSignificand_append hds.isDigit hu hbegin
    rw [if_neg (by simp [hfirst]), hc, ← List.cons_append]
    dsimp only
    constructor
    · intro hfits
      rw [hall hfits, if_neg hend]
      exact ⟨_, rfl, by rw [rest_drop, hc, ← List.cons_append, List.drop_left]⟩
    · intro hlarge
      rw [if_pos (hsome hlarge)]
      exact noCount_readLongWhole false _ _

/-- Behind the whole part of a decimal comes nothing, or a point or a power of ten. -/
theorem exists_whole {cs : List Char} {q : ℚ} (h : unsignedValue? cs = some q) :
    ∃ ds r, cs = ds ++ r ∧ Digits ds ∧ (r = [] ∨ Continues r) := by
  simp only [unsignedValue?, Option.bind_eq_bind, Option.bind_eq_some_iff, Prod.exists] at h
  obtain ⟨ds, r, hwhole, fraction, r', hfraction, power, hpower, -⟩ := h
  obtain ⟨rfl, hdigits⟩ := eq_append_of_leadingDigits? hwhole
  refine ⟨ds, r, rfl, hdigits, ?_⟩
  unfold fractionDigits? at hfraction
  split at hfraction
  · exact .inr ⟨_, _, rfl, .inl rfl⟩
  · cases hfraction
    cases r with
    | nil => exact .inl rfl
    | cons d r =>
      rw [powerValue?] at hpower
      split at hpower
      · rename_i hletter
        exact .inr ⟨d, r, rfl, .inr hletter⟩
      · cases hpower

theorem exists_digit {cs : List Char} {q : ℚ} (h : unsignedValue? cs = some q) :
    ∃ d cs', cs = d :: cs' ∧ d.isDigit = true := by
  obtain ⟨ds, r, rfl, hds, -⟩ := exists_whole h
  obtain ⟨d, ds, rfl⟩ := List.exists_cons_of_ne_nil hds.ne_nil
  exact ⟨d, ds ++ r, rfl, hds.isDigit d List.mem_cons_self⟩

theorem Continues.not_isDigit {t : List Char} (h : Continues t) : NoDigit t := by
  obtain ⟨d, t, rfl, rfl | rfl | rfl⟩ := h <;> exact (noDigit_cons _ t).mpr rfl

theorem NumberEnds.noDigit {t : List Char} (h : NumberEnds t) : NoDigit t := by
  intro d hd
  have hdecimal := h d hd
  simp only [isDecimalChar, Bool.or_eq_false_iff] at hdecimal
  exact hdecimal.1.1.1.1.1

/-- The count that a value is: a whole number without a sign, written in digits only. -/
def JsonTree.count? : JsonTree → Option ℕ
  | .number text => (digitsValue? text).filter (· < 2 ^ 64)
  | _ => none

/-- The flag that a value is. -/
def JsonTree.flag? : JsonTree → Option Bool
  | .boolean b => some b
  | _ => none

/-- The trace format that a value names, in lower case. -/
def JsonTree.format? : JsonTree → Option TraceFormat
  | .string (some s) => if s = "text" then some .text else if s = "json" then some .json else none
  | _ => none

theorem count?_toDigits {n : ℕ} (h : n < 2 ^ 64) :
    (JsonTree.number (Nat.toDigits 10 n)).count? = some n := by
  rw [JsonTree.count?, digitsValue?_toDigits, Option.filter_some_pos (by simpa using h)]

theorem count?_of_not_isDigit {cs : List Char} {d : Char} (hmem : d ∈ cs) (hd : d.isDigit = false) :
    (JsonTree.number cs).count? = none := by
  have hnot : ¬ Digits cs := by
    intro hdigits
    rw [hdigits.isDigit d hmem] at hd
    cases hd
  rw [JsonTree.count?, digitsValue?, if_neg hnot]
  rfl

/-- A number without a sign in front is read as the count that it is, and as no count if it is
none. -/
theorem readNumber_unsigned {c : Cursor} {cs t : List Char} {q : ℚ} (hc : c.rest = cs ++ t)
    (h : unsignedValue? cs = some q) (hzero : NoLeadingZero cs) (ht : NumberEnds t) :
    match (JsonTree.number cs).count? with
    | some n => ∃ after, readNumber false c = .ok (.count n, after) ∧ after.rest = t
    | none => NoCount (readNumber false c) := by
  obtain ⟨ds, r, rfl, hds, hr⟩ := exists_whole h
  have hzero' : ∀ ds', ds = '0' :: ds' → ds' = [] := by
    rintro ds' rfl
    cases ds' with
    | nil => rfl
    | cons d ds' =>
      have hd : d.isDigit = false := hzero d rfl
      rw [hds.isDigit d (by simp)] at hd
      cases hd
  rw [List.append_assoc] at hc
  rcases hr with rfl | hr
  · -- only digits
    rw [List.nil_append] at hc
    obtain ⟨hfits, hlarge⟩ := readNumber_whole hc hds hzero' ht.noDigit
    rw [List.append_nil, JsonTree.count?, digitsValue?, if_pos hds]
    by_cases hsize : Nat.ofDigitChars 10 ds 0 < 2 ^ 64
    · rw [Option.filter_some_pos (by simpa using hsize)]
      obtain ⟨after, hread, rfl⟩ := hfits hsize
      exact ⟨after, hread.trans (readAfterWhole_count ht _), rfl⟩
    · rw [Option.filter_some_neg (by simpa using hsize)]
      exact hlarge (not_lt.mp hsize)
  · -- more than digits
    have hmore : Continues (r ++ t) := by
      obtain ⟨d, r, rfl, hletter⟩ := hr
      exact ⟨d, r ++ t, rfl, hletter⟩
    obtain ⟨hfits, hlarge⟩ := readNumber_whole hc hds hzero' hmore.not_isDigit
    have hnone : (JsonTree.number (ds ++ r)).count? = none := by
      obtain ⟨d, r, rfl, hletter⟩ := hr
      refine count?_of_not_isDigit (d := d) (by simp) ?_
      rcases hletter with rfl | rfl | rfl <;> rfl
    rw [hnone]
    dsimp only
    by_cases hsize : Nat.ofDigitChars 10 ds 0 < 2 ^ 64
    · obtain ⟨after, hread, hrest⟩ := hfits hsize
      rw [hread]
      exact noCount_readAfterWhole false _ _ (.inr (hrest ▸ hmore))
    · exact hlarge (not_lt.mp hsize)

/-! ## Values of settings -/

/-- A value of the wrong type is always a fault. -/
theorem misfit_fails {α : Type} (wanted : WantedValue) (c : Cursor) :
    ∃ e, (misfit wanted c : Reading α) = .error e := by
  cases h : (misfit wanted c : Reading α) with
  | error e => exact ⟨e, rfl⟩
  | ok a =>
    unfold misfit at h
    split at h
    case h_7 | h_9 => cases h
    case h_6 => cases h
    case h_8 =>
      split at h
      · obtain ⟨_, _, hfault⟩ := exists_of_bind_eq_ok h
        cases hfault
      · cases h
    all_goals
      obtain ⟨_, _, hfault⟩ := exists_of_bind_eq_ok h
      cases hfault

/-- What is no count fails where one is expected. -/
theorem countOf_fails {reading : Reading (ReadNumber × Cursor)} (h : NoCount reading) :
    ∃ e, (do let (number, after) ← reading; countOf number after) = .error e := by
  cases reading with
  | error e => exact ⟨e, rfl⟩
  | ok result =>
    obtain ⟨number, after⟩ := result
    cases number with
    | count n => exact absurd rfl (h n after)
    | negative n => exact ⟨_, rfl⟩
    | float x => exact ⟨_, rfl⟩

/-- No value begins with a blank. -/
theorem JsonTree.ValueText.not_blank {s t : List Char} {v : JsonTree} (h : ValueText s v t) :
    ∀ d ∈ s.head?, isBlank d = false := by
  cases h with
  | @number s cs t text h =>
    intro d hd
    cases s with
    | nil => cases hd
    | cons d' s =>
      cases hd
      have hdecimal := h.isDecimalChar_head text
      by_contra hblank
      rw [Bool.not_eq_false] at hblank
      rw [isDecimalChar_of_isBlank hblank] at hdecimal
      cases hdecimal
  | _ =>
    intro d hd
    cases hd
    rfl

theorem format?_string (o : Option String) :
    (JsonTree.string o).format? = o.bind TraceFormat.ofName? := by
  cases o with
  | none => rfl
  | some name =>
    by_cases htext : name = "text"
    · subst htext
      rfl
    by_cases hjson : name = "json"
    · subst hjson
      rfl
    rw [JsonTree.format?, if_neg htext, if_neg hjson, Option.bind_some, TraceFormat.ofName?]
    · exact htext
    · exact hjson

theorem readFormatName_gives {c : Cursor} {s t : List Char} {o : Option String}
    (hc : c.rest = '"' :: s) (h : StringText s o t) :
    Gives (readFormatName c) (JsonTree.string o).format? t := by
  rw [format?_string]
  refine (readString_gives hc h).bind fun name after _ hafter => ?_
  dsimp only
  cases TraceFormat.ofName? name with
  | none => exact ⟨_, rfl⟩
  | some format => exact ⟨after, rfl, hafter⟩

section Settings

variable {c : Cursor} {s t : List Char} {v : JsonTree} (hc : Blanks c.rest s)
  (h : JsonTree.ValueText s v t)

include hc h

theorem readCount_gives (ht : NumberEnds t) : Gives (readCount c) v.count? t := by
  have hrest := rest_skipBlanks hc h.not_blank
  unfold readCount
  dsimp only
  rw [hrest]
  cases h with
  | @number s cs t text h =>
    obtain ⟨q, hq⟩ := Option.isSome_iff_exists.mp h.1
    unfold decimalValue? at hq
    split at hq
    · rename_i cs
      subst text
      rw [count?_of_not_isDigit (d := '-') List.mem_cons_self rfl]
      exact countOf_fails (noCount_readNumber_negative _)
    · obtain ⟨q', hq'⟩ : ∃ q', unsignedValue? cs = some q' := ⟨q, hq⟩
      have hread := readNumber_unsigned (hrest.trans text) hq' h.2 ht
      obtain ⟨d, cs, rfl, hd⟩ := exists_digit hq'
      subst text
      rw [List.cons_append]
      split
      · rename_i heq
        cases heq
        cases hd
      · rename_i heq
        cases heq
        rw [if_pos hd]
        cases hcount : (JsonTree.number (d :: cs)).count? with
        | some n =>
          rw [hcount] at hread
          obtain ⟨after, hnumber, hafter⟩ := hread
          rw [hnumber]
          exact ⟨after, rfl, hafter⟩
        | none =>
          rw [hcount] at hread
          exact countOf_fails hread
      · rename_i heq
        cases heq
  | _ => exact misfit_fails .count _

theorem readFlag_gives : Gives (readFlag c) v.flag? t := by
  have hrest := rest_skipBlanks hc h.not_blank
  unfold readFlag
  dsimp only
  rw [hrest]
  cases h with
  | yes t =>
    obtain ⟨after, hread, hafter⟩ := readKeyword_append ['r', 'u', 'e'] (c := c.skipBlanks.drop 1)
      (t := t) (rest_drop_one hrest)
    rw [hread]
    exact ⟨after, rfl, hafter⟩
  | no t =>
    obtain ⟨after, hread, hafter⟩ := readKeyword_append ['a', 'l', 's', 'e']
      (c := c.skipBlanks.drop 1) (t := t) (rest_drop_one hrest)
    rw [hread]
    exact ⟨after, rfl, hafter⟩
  | number text h =>
    split
    · cases h.isDecimalChar_head text
    · cases h.isDecimalChar_head text
    · exact misfit_fails .flag _
  | _ => exact misfit_fails .flag _

theorem readFormat_gives (hobject : ∀ ms, v ≠ .object ms) : Gives (readFormat c) v.format? t := by
  have hrest := rest_skipBlanks hc h.not_blank
  unfold readFormat
  dsimp only
  rw [hrest]
  cases h with
  | string text => exact readFormatName_gives hrest text
  | object | noMembers => exact absurd rfl (hobject _)
  | number text h =>
    split
    · cases h.isDecimalChar_head text
    · cases h.isDecimalChar_head text
    · exact ⟨_, rfl⟩
    · exact ⟨_, rfl⟩
  | _ => exact ⟨_, rfl⟩

end Settings

end TracedEval
