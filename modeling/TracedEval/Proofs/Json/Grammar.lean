import TracedEval.Config.Scalar
import TracedEval.Proofs.DecimalText

/-!
# JSON texts

The grammar of JSON, with the value that each text denotes. All relations here are between a text and
what is left of it behind a part, so that the parts of a text follow each other without any
splitting.

* `StringRest` is the part of a string behind its opening quote;
* `Reads` is any other part: a value, an element, which is a value with blanks around it, the elements
  of an array, a member of an object, or its members;
* `Sole` is that there is only one reading, and `Reads.solePart` shows it for all parts, with one
  lemma for each production; `Sole.last` and `Sole.more` are those for lists of any kind;
* `Json.TextOf` says which value a whole text denotes, and `Json.TextOf.unique` that it is only one,
  whatever the text is.
-/

namespace TracedEval

/-- What a JSON text denotes. Numbers are exact, and the members of an object stand in their order. -/
inductive Json
  | null
  | boolean (b : Bool)
  | number (q : ℚ)
  | string (s : String)
  | array (items : List Json)
  | object (members : List (String × Json))

/-! ## Strings -/

/-- The character that a letter stands for behind a backslash. -/
def letterEscape? : Char → Option Char
  | '"' => some '"'
  | '\\' => some '\\'
  | '/' => some '/'
  | 'b' => some '\x08'
  | 'f' => some '\x0c'
  | 'n' => some '\n'
  | 'r' => some '\r'
  | 't' => some '\t'
  | _ => none

/-- Behind the opening quote of a string, the text writes these characters and the closing quote, and
then comes what is left. A character outside the first plane may be written as two surrogates; a
surrogate alone is no character. -/
inductive StringRest : List Char → List Char → List Char → Prop
  | close (t : List Char) : StringRest ('"' :: t) [] t
  | plain {c : Char} {s cs t : List Char} (quote : c ≠ '"') (backslash : c ≠ '\\')
      (control : 0x20 ≤ c.toNat) (rest : StringRest s cs t) : StringRest (c :: s) (c :: cs) t
  | letter {l c : Char} {s cs t : List Char} (escape : letterEscape? l = some c)
      (rest : StringRest s cs t) : StringRest ('\\' :: l :: s) (c :: cs) t
  | unit {a b c d : Char} {n : ℕ} {s cs t : List Char} (digits : hexNumber? [a, b, c, d] = some n)
      (leading : isLeadingSurrogate n = false) (trailing : isTrailingSurrogate n = false)
      (rest : StringRest s cs t) :
      StringRest ('\\' :: 'u' :: a :: b :: c :: d :: s) (Char.ofNat n :: cs) t
  | pair {a b c d a' b' c' d' : Char} {m n : ℕ} {s cs t : List Char}
      (digits : hexNumber? [a, b, c, d] = some m) (leading : isLeadingSurrogate m = true)
      (digits' : hexNumber? [a', b', c', d'] = some n) (trailing : isTrailingSurrogate n = true)
      (rest : StringRest s cs t) :
      StringRest ('\\' :: 'u' :: a :: b :: c :: d :: '\\' :: 'u' :: a' :: b' :: c' :: d' :: s)
        (surrogatePair m n :: cs) t

/-- A string is read in only one way. -/
theorem StringRest.unique {s cs cs' t t' : List Char} (h : StringRest s cs t)
    (h' : StringRest s cs' t') : cs = cs' ∧ t = t' := by
  induction h generalizing cs' with
  | close t =>
    cases h' with
    | close => exact ⟨rfl, rfl⟩
    | plain quote => exact absurd rfl quote
  | plain quote backslash control rest ih =>
    cases h' with
    | close => exact absurd rfl quote
    | plain _ _ _ rest' =>
      obtain ⟨rfl, rfl⟩ := ih rest'
      exact ⟨rfl, rfl⟩
    | letter | unit | pair => exact absurd rfl backslash
  | letter escape rest ih =>
    cases h' with
    | plain _ backslash => exact absurd rfl backslash
    | letter escape' rest' =>
      obtain rfl := Option.some.inj (escape.symm.trans escape')
      obtain ⟨rfl, rfl⟩ := ih rest'
      exact ⟨rfl, rfl⟩
    | unit | pair => cases escape
  | unit digits leading trailing rest ih =>
    cases h' with
    | plain _ backslash => exact absurd rfl backslash
    | letter escape' => cases escape'
    | unit digits' _ _ rest' =>
      obtain rfl := Option.some.inj (digits.symm.trans digits')
      obtain ⟨rfl, rfl⟩ := ih rest'
      exact ⟨rfl, rfl⟩
    | pair digits' leading' =>
      obtain rfl := Option.some.inj (digits.symm.trans digits')
      rw [leading] at leading'
      cases leading'
  | pair digits leading digits₂ trailing rest ih =>
    cases h' with
    | plain _ backslash => exact absurd rfl backslash
    | letter escape' => cases escape'
    | unit digits' leading' =>
      obtain rfl := Option.some.inj (digits.symm.trans digits')
      rw [leading] at leading'
      cases leading'
    | pair digits' _ digits₂' _ rest' =>
      obtain rfl := Option.some.inj (digits.symm.trans digits')
      obtain rfl := Option.some.inj (digits₂.symm.trans digits₂')
      obtain ⟨rfl, rfl⟩ := ih rest'
      exact ⟨rfl, rfl⟩

/-! ## Values -/

/-- What is left is the text behind some of the blanks that it begins with. -/
inductive Blanks : List Char → List Char → Prop
  | done (s : List Char) : Blanks s s
  | more {c : Char} {s t : List Char} (blank : isBlank c = true) (rest : Blanks s t) :
      Blanks (c :: s) t

/-- No zero stands in front of another digit of the whole part. -/
def NoLeadingZero : List Char → Prop
  | '-' :: '0' :: cs => NoDigit cs
  | '0' :: cs => NoDigit cs
  | _ => True

theorem noLeadingZero_toDigits (n : ℕ) : NoLeadingZero (Nat.toDigits 10 n) := by
  by_cases hn : n = 0
  · subst hn
    exact noDigit_nil
  · obtain ⟨c, cs, hdigits, hc⟩ := toDigits_eq_cons (Nat.pos_of_ne_zero hn)
    have hdigit : c.isDigit = true := (digits_toDigits n).isDigit c (hdigits ▸ List.mem_cons_self)
    rw [hdigits]
    unfold NoLeadingZero
    split
    · rename_i heq
      cases heq
      cases hdigit
    · rename_i heq
      cases heq
      exact absurd rfl hc
    · trivial

/-- What a part of a JSON text denotes. -/
inductive Part
  | value (v : Json)
  | element (v : Json)
  | elements (vs : List Json)
  | member (name : String) (v : Json)
  | members (ms : List (String × Json))

/-- The text begins with a part that denotes this, and then comes what is left. -/
inductive Reads : List Char → Part → List Char → Prop
  | null (t : List Char) : Reads ('n' :: 'u' :: 'l' :: 'l' :: t) (.value .null) t
  | yes (t : List Char) : Reads ('t' :: 'r' :: 'u' :: 'e' :: t) (.value (.boolean true)) t
  | no (t : List Char) :
      Reads ('f' :: 'a' :: 'l' :: 's' :: 'e' :: t) (.value (.boolean false)) t
  | number {s cs t : List Char} {q : ℚ} (text : s = cs ++ t) (decimal : decimalValue? cs = some q)
      (noZero : NoLeadingZero cs) : Reads s (.value (.number q)) t
  | string {s cs t : List Char} (chars : StringRest s cs t) :
      Reads ('"' :: s) (.value (.string (String.ofList cs))) t
  | noElements {s t : List Char} (blanks : Blanks s (']' :: t)) :
      Reads ('[' :: s) (.value (.array [])) t
  | array {s t : List Char} {vs : List Json} (elements : Reads s (.elements vs) (']' :: t)) :
      Reads ('[' :: s) (.value (.array vs)) t
  | noMembers {s t : List Char} (blanks : Blanks s ('\x7d' :: t)) :
      Reads ('\x7b' :: s) (.value (.object [])) t
  | object {s t : List Char} {ms : List (String × Json)}
      (members : Reads s (.members ms) ('\x7d' :: t)) : Reads ('\x7b' :: s) (.value (.object ms)) t
  | element {s s' t t' : List Char} {v : Json} (before : Blanks s s')
      (value : Reads s' (.value v) t') (after : Blanks t' t) : Reads s (.element v) t
  | lastElement {s t : List Char} {v : Json} (element : Reads s (.element v) t) :
      Reads s (.elements [v]) t
  | moreElements {s s' t : List Char} {v : Json} {vs : List Json}
      (element : Reads s (.element v) (',' :: s')) (others : Reads s' (.elements vs) t) :
      Reads s (.elements (v :: vs)) t
  | member {s s₁ s₂ s₃ t cs : List Char} {v : Json} (before : Blanks s ('"' :: s₁))
      (name : StringRest s₁ cs s₂) (after : Blanks s₂ (':' :: s₃))
      (element : Reads s₃ (.element v) t) : Reads s (.member (String.ofList cs) v) t
  | lastMember {s t : List Char} {name : String} {v : Json} (member : Reads s (.member name v) t) :
      Reads s (.members [(name, v)]) t
  | moreMembers {s s' t : List Char} {name : String} {v : Json} {ms : List (String × Json)}
      (member : Reads s (.member name v) (',' :: s')) (others : Reads s' (.members ms) t) :
      Reads s (.members ((name, v) :: ms)) t

/-- The whole text is JSON, and it denotes this value. -/
def Json.TextOf (text : List Char) (v : Json) : Prop := Reads text (.element v) []

/-! ## There is only one reading -/

/-- Nothing follows that could belong to a number. -/
def NumberEnds (t : List Char) : Prop := ∀ c ∈ t.head?, isDecimalChar c = false

/-- Nothing follows that could belong to an element. -/
def ElementEnds (t : List Char) : Prop :=
  ∀ c ∈ t.head?, isDecimalChar c = false ∧ isBlank c = false

/-- Nothing follows that could belong to the elements or the members. -/
def ListEnds (t : List Char) : Prop := ElementEnds t ∧ ',' ∉ t.head?

theorem elementEnds_cons {c : Char} (t : List Char) (hdecimal : isDecimalChar c = false)
    (hblank : isBlank c = false) : ElementEnds (c :: t) := by
  intro d hd
  cases hd
  exact ⟨hdecimal, hblank⟩

theorem elementEnds_nil : ElementEnds [] := by
  intro d hd
  cases hd

theorem elementEnds_comma (t : List Char) : ElementEnds (',' :: t) := elementEnds_cons t rfl rfl

theorem listEnds_bracket (t : List Char) : ListEnds (']' :: t) :=
  ⟨elementEnds_cons t rfl rfl, by simp⟩

theorem listEnds_brace (t : List Char) : ListEnds ('\x7d' :: t) :=
  ⟨elementEnds_cons t rfl rfl, by simp⟩

theorem ElementEnds.not_blank {t : List Char} (h : ElementEnds t) :
    ∀ c ∈ t.head?, isBlank c = false := fun c hc => (h c hc).2

theorem ElementEnds.numberEnds {t : List Char} (h : ElementEnds t) : NumberEnds t :=
  fun c hc => (h c hc).1

/-- A number ends where its characters do. -/
theorem eq_of_append_of_numberEnds {cs ds t t' : List Char} (hcs : DecimalChars cs)
    (hds : DecimalChars ds) (heq : cs ++ t = ds ++ t') (h : NumberEnds t) (h' : NumberEnds t') :
    cs = ds ∧ t = t' := by
  have hsplit {es u : List Char} (hes : DecimalChars es) (hu : NumberEnds u) :
      (es ++ u).takeWhile isDecimalChar = es := by
    have hstop : u.takeWhile isDecimalChar = [] := by
      cases u with
      | nil => rfl
      | cons c u => rw [List.takeWhile_cons, hu c rfl, if_neg Bool.false_ne_true]
    rw [List.takeWhile_append_of_pos hes, hstop, List.append_nil]
  have hsame : cs = ds := by rw [← hsplit hcs h, heq, hsplit hds h']
  subst hsame
  exact ⟨rfl, List.append_cancel_left heq⟩

theorem isDecimalChar_of_isBlank {c : Char} (h : isBlank c = true) : isDecimalChar c = false := by
  unfold isBlank at h
  simp only [Bool.or_eq_true, beq_iff_eq] at h
  rcases h with ((rfl | rfl) | rfl) | rfl <;> rfl

namespace Blanks

variable {s t t' : List Char}

theorem eq_of_not_isBlank (h : Blanks s t) (hs : ∀ c ∈ s.head?, isBlank c = false) : t = s := by
  cases h with
  | done => rfl
  | more blank =>
    rw [hs _ rfl] at blank
    cases blank

theorem unique (h : Blanks s t) (h' : Blanks s t') (ht : ∀ c ∈ t.head?, isBlank c = false)
    (ht' : ∀ c ∈ t'.head?, isBlank c = false) : t = t' := by
  induction h with
  | done => exact (h'.eq_of_not_isBlank ht).symm
  | more blank rest ih =>
    cases h' with
    | done =>
      rw [ht' _ rfl] at blank
      cases blank
    | more _ rest' => exact ih rest' ht

theorem unique_cons {c d : Char} (h : Blanks s (c :: t)) (h' : Blanks s (d :: t'))
    (hc : isBlank c = false) (hd : isBlank d = false) : c = d ∧ t = t' := by
  have hrest := h.unique h' (by simpa using hc) (by simpa using hd)
  exact ⟨List.head_eq_of_cons_eq hrest, List.tail_eq_of_cons_eq hrest⟩

/-- Blanks end a number. -/
theorem numberEnds (h : Blanks s t) (ht : ElementEnds t) : NumberEnds s := by
  cases h with
  | done => exact ht.numberEnds
  | more blank =>
    intro d hd
    cases hd
    exact isDecimalChar_of_isBlank blank

end Blanks

/-- A decimal is not empty, so its first character is that of the text. -/
theorem isDecimalChar_head {c : Char} {s cs t : List Char} {q : ℚ} (text : c :: s = cs ++ t)
    (decimal : decimalValue? cs = some q) : isDecimalChar c = true := by
  cases cs with
  | nil => cases decimal
  | cons d cs =>
    rw [List.cons_append, List.cons.injEq] at text
    rw [text.1]
    exact decimalChars_of_decimalValue? decimal d List.mem_cons_self

/-! ## One reading -/

/-- From here, nothing but `x` is read and nothing but `t` is left, as long as what is left ends the
reading. -/
def Sole {α : Type} (Ends : List Char → Prop) (Read : List Char → α → List Char → Prop)
    (s : List Char) (x : α) (t : List Char) : Prop :=
  ∀ ⦃y t'⦄, Read s y t' → Ends t → Ends t' → x = y ∧ t = t'

section Lists

variable {α : Type} {Item : List Char → α → List Char → Prop}
  {Items : List Char → List α → List Char → Prop}

/-- Items are listed with commas between them. -/
def Lists (Item : List Char → α → List Char → Prop)
    (Items : List Char → List α → List Char → Prop) : Prop :=
  ∀ ⦃s xs t⦄, Items s xs t → (∃ x, xs = [x] ∧ Item s x t) ∨
    ∃ x s' others, xs = x :: others ∧ Item s x (',' :: s') ∧ Items s' others t

variable {s s' t : List Char} {x : α} {xs : List α}

theorem Lists.first (h : Lists Item Items) (hitems : Items s xs t) : ∃ x r, Item s x r := by
  rcases h hitems with ⟨x, -, hitem⟩ | ⟨x, r, -, -, hitem, -⟩
  · exact ⟨x, _, hitem⟩
  · exact ⟨x, _, hitem⟩

/-- What follows the last item is no comma. -/
theorem Sole.last (hlists : Lists Item Items) (hitem : Sole ElementEnds Item s x t) :
    Sole ListEnds Items s [x] t := by
  intro ys t' h' ends ends'
  rcases hlists h' with ⟨y, rfl, hy⟩ | ⟨y, r, others, rfl, hy, -⟩
  · obtain ⟨rfl, rfl⟩ := hitem hy ends.1 ends'.1
    exact ⟨rfl, rfl⟩
  · obtain ⟨-, rfl⟩ := hitem hy ends.1 (elementEnds_comma r)
    exact absurd rfl ends.2

theorem Sole.more (hlists : Lists Item Items) (hitem : Sole ElementEnds Item s x (',' :: s'))
    (hothers : Sole ListEnds Items s' xs t) : Sole ListEnds Items s (x :: xs) t := by
  intro ys t' h' ends ends'
  rcases hlists h' with ⟨y, rfl, hy⟩ | ⟨y, r, others, rfl, hy, hrest⟩
  · obtain ⟨-, rfl⟩ := hitem hy (elementEnds_comma s') ends'.1
    exact absurd rfl ends'.2
  · obtain ⟨rfl, hcomma⟩ := hitem hy (elementEnds_comma s') (elementEnds_comma r)
    obtain rfl := List.tail_eq_of_cons_eq hcomma
    obtain ⟨rfl, rfl⟩ := hothers hrest ends ends'
    exact ⟨rfl, rfl⟩

end Lists

namespace Reads

/-! ### What parts begin with -/

/-- No value begins with a blank or with a closing bracket. -/
theorem value_head {s t : List Char} {v : Json} (h : Reads s (.value v) t) :
    ∃ c r, s = c :: r ∧ isBlank c = false ∧ c ≠ ']' := by
  cases h with
  | number text decimal =>
    cases s with
    | nil =>
      obtain ⟨rfl, -⟩ := List.append_eq_nil_iff.mp text.symm
      cases decimal
    | cons c r =>
      have hdecimal := isDecimalChar_head text decimal
      refine ⟨c, r, rfl, ?_, ?_⟩
      · by_contra hblank
        rw [Bool.not_eq_false] at hblank
        rw [isDecimalChar_of_isBlank hblank] at hdecimal
        cases hdecimal
      · rintro rfl
        cases hdecimal
  | _ => exact ⟨_, _, rfl, by decide, by decide⟩

theorem not_blank_of_value {s t : List Char} {v : Json} (h : Reads s (.value v) t) :
    ∀ c ∈ s.head?, isBlank c = false := by
  obtain ⟨c, r, rfl, hblank, -⟩ := h.value_head
  intro d hd
  cases hd
  exact hblank

theorem lists_elements :
    Lists (fun s v t => Reads s (.element v) t) (fun s vs t => Reads s (.elements vs) t) := by
  intro s vs t h
  cases h with
  | lastElement element => exact .inl ⟨_, rfl, element⟩
  | moreElements element others => exact .inr ⟨_, _, _, rfl, element, others⟩

theorem lists_members :
    Lists (fun s (m : String × Json) t => Reads s (.member m.1 m.2) t)
      (fun s ms t => Reads s (.members ms) t) := by
  intro s ms t h
  cases h with
  | lastMember member => exact .inl ⟨(_, _), rfl, member⟩
  | moreMembers member others => exact .inr ⟨(_, _), _, _, rfl, member, others⟩

/-- Elements begin with a value, so no closing bracket comes behind the blanks in front of them. -/
theorem not_blanks_bracket {s t t' : List Char} {vs : List Json} (h : Reads s (.elements vs) t) :
    ¬ Blanks s (']' :: t') := by
  intro hblanks
  obtain ⟨v, r, helement⟩ := lists_elements.first h
  cases helement with
  | element before value =>
    obtain ⟨c, r, rfl, hblank, hbracket⟩ := value.value_head
    exact hbracket (hblanks.unique_cons before rfl hblank).1.symm

/-- Members begin with a quote, so no closing brace comes behind the blanks in front of them. -/
theorem not_blanks_brace {s t t' : List Char} {ms : List (String × Json)}
    (h : Reads s (.members ms) t) : ¬ Blanks s ('\x7d' :: t') := by
  intro hblanks
  obtain ⟨⟨name, v⟩, r, hmember⟩ := lists_members.first h
  cases hmember with
  | member before => cases (hblanks.unique_cons before rfl rfl).1

/-! ### Parts -/

/-- There is only one reading of this part from here. -/
def SolePart (s : List Char) : Part → List Char → Prop
  | .value v, t => Sole NumberEnds (fun s v t => Reads s (.value v) t) s v t
  | .element v, t => Sole ElementEnds (fun s v t => Reads s (.element v) t) s v t
  | .elements vs, t => Sole ListEnds (fun s vs t => Reads s (.elements vs) t) s vs t
  | .member name v, t =>
    Sole ElementEnds (fun s (m : String × Json) t => Reads s (.member m.1 m.2) t) s (name, v) t
  | .members ms, t => Sole ListEnds (fun s ms t => Reads s (.members ms) t) s ms t

variable {s s' t t' : List Char} {v : Json}

theorem sole_number {cs : List Char} {q : ℚ} (text : s = cs ++ t)
    (decimal : decimalValue? cs = some q) : SolePart s (.value (.number q)) t := by
  intro w t' h' ends ends'
  cases h' with
  | number text' decimal' =>
    obtain ⟨rfl, rfl⟩ := eq_of_append_of_numberEnds (decimalChars_of_decimalValue? decimal)
      (decimalChars_of_decimalValue? decimal') (text.symm.trans text') ends ends'
    obtain rfl := Option.some.inj (decimal.symm.trans decimal')
    exact ⟨rfl, rfl⟩
  | _ => cases isDecimalChar_head text decimal

theorem sole_string {cs : List Char} (chars : StringRest s cs t) :
    SolePart ('"' :: s) (.value (.string (String.ofList cs))) t := by
  intro w t' h' ends ends'
  cases h' with
  | string chars' =>
    obtain ⟨rfl, rfl⟩ := chars.unique chars'
    exact ⟨rfl, rfl⟩
  | number text decimal => cases isDecimalChar_head text decimal

theorem sole_noElements (blanks : Blanks s (']' :: t)) :
    SolePart ('[' :: s) (.value (.array [])) t := by
  intro w t' h' ends ends'
  cases h' with
  | noElements blanks' =>
    exact ⟨rfl, (blanks.unique_cons blanks' rfl rfl).2⟩
  | array elements => exact absurd blanks elements.not_blanks_bracket
  | number text decimal => cases isDecimalChar_head text decimal

theorem sole_array {vs : List Json} (elements : Reads s (.elements vs) (']' :: t))
    (ih : SolePart s (.elements vs) (']' :: t)) : SolePart ('[' :: s) (.value (.array vs)) t := by
  intro w t' h' ends ends'
  cases h' with
  | noElements blanks => exact absurd blanks elements.not_blanks_bracket
  | array elements' =>
    obtain ⟨rfl, hrest⟩ := ih elements' (listEnds_bracket _) (listEnds_bracket _)
    exact ⟨rfl, List.tail_eq_of_cons_eq hrest⟩
  | number text decimal => cases isDecimalChar_head text decimal

theorem sole_noMembers (blanks : Blanks s ('\x7d' :: t)) :
    SolePart ('\x7b' :: s) (.value (.object [])) t := by
  intro w t' h' ends ends'
  cases h' with
  | noMembers blanks' =>
    exact ⟨rfl, (blanks.unique_cons blanks' rfl rfl).2⟩
  | object members => exact absurd blanks members.not_blanks_brace
  | number text decimal => cases isDecimalChar_head text decimal

theorem sole_object {ms : List (String × Json)} (members : Reads s (.members ms) ('\x7d' :: t))
    (ih : SolePart s (.members ms) ('\x7d' :: t)) :
    SolePart ('\x7b' :: s) (.value (.object ms)) t := by
  intro w t' h' ends ends'
  cases h' with
  | noMembers blanks => exact absurd blanks members.not_blanks_brace
  | object members' =>
    obtain ⟨rfl, hrest⟩ := ih members' (listEnds_brace _) (listEnds_brace _)
    exact ⟨rfl, List.tail_eq_of_cons_eq hrest⟩
  | number text decimal => cases isDecimalChar_head text decimal

/-- The blanks around a value end where the value and what follows them begin. -/
theorem sole_element (before : Blanks s s') (value : Reads s' (.value v) t')
    (after : Blanks t' t) (ih : SolePart s' (.value v) t') : SolePart s (.element v) t := by
  intro w u h' ends ends'
  cases h' with
  | element before' value' after' =>
    obtain rfl := before.unique before' value.not_blank_of_value value'.not_blank_of_value
    obtain ⟨rfl, rfl⟩ := ih value' (after.numberEnds ends) (after'.numberEnds ends')
    exact ⟨rfl, after.unique after' ends.not_blank ends'.not_blank⟩

theorem sole_member {s₁ s₂ s₃ cs : List Char} (before : Blanks s ('"' :: s₁))
    (name : StringRest s₁ cs s₂) (after : Blanks s₂ (':' :: s₃))
    (ih : SolePart s₃ (.element v) t) : SolePart s (.member (String.ofList cs) v) t := by
  rintro ⟨name', w⟩ u h' ends ends'
  cases h' with
  | member before' name' after' element' =>
    obtain ⟨-, rfl⟩ := before.unique_cons before' rfl rfl
    obtain ⟨rfl, rfl⟩ := name.unique name'
    obtain ⟨-, rfl⟩ := after.unique_cons after' rfl rfl
    obtain ⟨rfl, rfl⟩ := ih element' ends ends'
    exact ⟨rfl, rfl⟩

/-- Every part is read in only one way. -/
theorem solePart {p : Part} (h : Reads s p t) : SolePart s p t := by
  induction h with
  | null | yes | no =>
    intro w t' h' ends ends'
    cases h' with
    | number text decimal => cases isDecimalChar_head text decimal
    | _ => exact ⟨rfl, rfl⟩
  | number text decimal => exact sole_number text decimal
  | string chars => exact sole_string chars
  | noElements blanks => exact sole_noElements blanks
  | array elements ih => exact sole_array elements ih
  | noMembers blanks => exact sole_noMembers blanks
  | object members ih => exact sole_object members ih
  | element before value after ih => exact sole_element before value after ih
  | lastElement _ ih => exact ih.last lists_elements
  | moreElements _ _ ih ihothers => exact ih.more lists_elements ihothers
  | member before name after _ ih => exact sole_member before name after ih
  | lastMember _ ih => exact ih.last lists_members
  | moreMembers _ _ ih ihothers => exact ih.more lists_members ihothers

end Reads

/-- A text denotes only one value. -/
theorem Json.TextOf.unique {text : List Char} {v w : Json} (h : Json.TextOf text v)
    (h' : Json.TextOf text w) : v = w := by
  have hsole : Reads.SolePart text (.element v) [] := Reads.solePart h
  exact (hsole h' elementEnds_nil elementEnds_nil).1

end TracedEval
