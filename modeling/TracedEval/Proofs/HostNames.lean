import TracedEval.HostName
import TracedEval.Proofs.Leading

/-!
# Reading host names back

A host name is written without delimiters, so what stands for one character has to tell where it
ends. In names of printable ASCII characters without digits it does: a digit in the host name
always belongs to a code, and the first digit of a code says how many more there are, since codes
of two digits are 32 or greater and those of three digits are less than 200.

* `nameChars` and `nameOf` read a host name in this way;
* `nameChars_append` is that one character is read back, whatever follows it;
* `hostName_inj` is the statement about names.
-/

namespace TracedEval

/-! ## Reading -/

/-- How many digits of a code come behind its first one. -/
def digitsBehind (first : Char) : ℕ := if first = '1' then 2 else 1

/-- The characters that a host name stands for. -/
def nameChars : List Char → List Char
  | [] => []
  | c :: rest =>
    if c.isDigit then
      .ofNat (Nat.ofDigitChars 10 (c :: rest.take (digitsBehind c)) 0) ::
        nameChars (rest.drop (digitsBehind c))
    else c :: nameChars rest
termination_by cs => cs.length
decreasing_by all_goals simp; try omega

/-- The name that a host name stands for. -/
def nameOf (host : String) : String := .ofList (nameChars host.toList)

/-- A printable ASCII character that is no digit. -/
def IsPlain (c : Char) : Prop := 0x20 ≤ c.toNat ∧ c.toNat ≤ 0x7E ∧ c.isDigit = false

instance (c : Char) : Decidable (IsPlain c) := inferInstanceAs (Decidable (_ ∧ _ ∧ _))

/-- A name of such characters. -/
def PlainName (name : String) : Prop := ∀ c ∈ name.toList, IsPlain c

instance (name : String) : Decidable (PlainName name) := List.decidableBAll _ _

/-! ## Codes -/

theorem toDigits_two {n : ℕ} (hlow : 10 ≤ n) (hhigh : n < 100) :
    Nat.toDigits 10 n = [Nat.digitChar (n / 10), Nat.digitChar (n % 10)] := by
  rw [Nat.toDigits_of_base_le (by decide) hlow, Nat.toDigits_of_lt_base (by omega)]
  rfl

theorem digitChar_eq_one_iff {d : ℕ} (h : d < 10) : Nat.digitChar d = '1' ↔ d = 1 := by
  interval_cases d <;> decide

/-- The first digit of a code that is at least 20 and less than 200 tells how long it is. -/
theorem length_of_toDigits {n : ℕ} {first : Char} {more : List Char}
    (h : Nat.toDigits 10 n = first :: more) (hlow : 20 ≤ n) (hhigh : n < 200) :
    more.length = digitsBehind first := by
  rcases lt_or_ge n 100 with htwo | hthree
  · rw [toDigits_two (by omega) htwo, List.cons.injEq] at h
    obtain ⟨rfl, rfl⟩ := h
    rw [digitsBehind, if_neg (by rw [digitChar_eq_one_iff] <;> omega)]
    rfl
  · rw [Nat.toDigits_of_base_le (by decide) (by omega), toDigits_two (by omega) (by omega),
      List.cons_append, List.cons.injEq] at h
    obtain ⟨rfl, rfl⟩ := h
    rw [digitsBehind, if_pos (by rw [digitChar_eq_one_iff] <;> omega)]
    rfl

/-- The character that stands first is read back. -/
theorem nameChars_append {c : Char} (h : IsPlain c) (rest : List Char) :
    nameChars (hostChars c ++ rest) = c :: nameChars rest := by
  obtain ⟨hlow, hhigh, hdigit⟩ := h
  rw [hostChars]
  split
  · rw [List.singleton_append, nameChars, if_neg (by rw [hdigit]; decide)]
  · obtain ⟨first, more, hcode⟩ := List.exists_cons_of_ne_nil (digits_toDigits c.toNat).ne_nil
    have hfirst : first.isDigit = true :=
      (digits_toDigits c.toNat).isDigit first (hcode ▸ List.mem_cons_self)
    have hlength := length_of_toDigits hcode (by omega) (by omega)
    have hvalue := Nat.ofDigitChars_ten_toDigits (n := c.toNat)
    rw [hcode] at hvalue
    rw [hcode, List.cons_append, nameChars, if_pos hfirst, ← hlength, List.take_left,
      List.drop_left, hvalue, Char.ofNat_toNat]

/-! ## Names -/

theorem nameChars_flatMap {cs : List Char} (h : ∀ c ∈ cs, IsPlain c) :
    nameChars (cs.flatMap hostChars) = cs := by
  induction cs with
  | nil => rw [List.flatMap_nil, nameChars]
  | cons c cs ih =>
    obtain ⟨hc, hcs⟩ := List.forall_mem_cons.mp h
    rw [List.flatMap_cons, nameChars_append hc, ih hcs]

theorem nameOf_hostName {name : String} (h : PlainName name) : nameOf (hostName name) = name := by
  rw [nameOf, hostName, String.toList_ofList, nameChars_flatMap h, String.ofList_toList]

/-- Names of printable ASCII characters without digits are told apart by their host names, and each
is read back from its own. -/
theorem hostName_inj {a b : String} (ha : PlainName a) (hb : PlainName b) :
    (hostName a = hostName b ↔ a = b) ∧ nameOf (hostName a) = a := by
  refine ⟨⟨fun h => ?_, congrArg hostName⟩, nameOf_hostName ha⟩
  rw [← nameOf_hostName ha, ← nameOf_hostName hb, h]

/-- Codes of both lengths, one after the other. -/
theorem hostName_inj_codes :
    hostName "a~-?|" ≠ hostName "a-~?|" ∧ nameOf "a1264563124" = "a~-?|" := by
  have hplain : PlainName "a~-?|" ∧ PlainName "a-~?|" := by decide
  obtain ⟨hinj, hread⟩ := hostName_inj hplain.1 hplain.2
  have hhost : hostName "a~-?|" = "a1264563124" := by rfl
  exact ⟨fun h => absurd (hinj.mp h) (by decide), hhost ▸ hread⟩

-- With digits in names, or with characters of other codes, host names are ambiguous.
example : hostName "45" = hostName "-" ∧ hostName "\x0c\x04" = hostName "|" := by decide

end TracedEval
