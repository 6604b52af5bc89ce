import TracedEval.Proofs.Json.Grammar

/-!
# The syntax of JSON texts

`Json` is what a text denotes, which leaves open how a number is written and is nothing at all for a
string with half of a surrogate pair in it. A `JsonTree` is what a text says: it has a number as it
is written, and any text that is JSON by its syntax has one. Blanks and escapes are gone.

The relations are again between a text and what is left of it behind a part. `JsonTree.TextOf` is
the one for a whole text.
-/

namespace TracedEval

/-- A JSON text without its blanks and escapes. A string, also one that is a key, is missing when it
has half of a surrogate pair in it: it is no sequence of characters. -/
inductive JsonTree
  | null
  | boolean (b : Bool)
  | number (text : List Char)
  | string (s : Option String)
  | array (items : List JsonTree)
  | object (members : List (Option String × JsonTree))

/-- Behind the opening quote stands a string by its syntax. Each numeric escape is one code unit,
whichever it is. -/
inductive StringSyntax : List Char → List Char → Prop
  | close (t : List Char) : StringSyntax ('"' :: t) t
  | plain {c : Char} {s t : List Char} (quote : c ≠ '"') (backslash : c ≠ '\\')
      (control : 0x20 ≤ c.toNat) (rest : StringSyntax s t) : StringSyntax (c :: s) t
  | letter {l c : Char} {s t : List Char} (escape : letterEscape? l = some c)
      (rest : StringSyntax s t) : StringSyntax ('\\' :: l :: s) t
  | unit {a b c d : Char} {n : ℕ} {s t : List Char} (digits : hexNumber? [a, b, c, d] = some n)
      (rest : StringSyntax s t) : StringSyntax ('\\' :: 'u' :: a :: b :: c :: d :: s) t

/-- Characters that need no escape are written as they are. -/
theorem stringRest_plain {cs : List Char} (h : ∀ c ∈ cs, c ≠ '"' ∧ c ≠ '\\' ∧ 0x20 ≤ c.toNat)
    (t : List Char) : StringRest (cs ++ '"' :: t) cs t := by
  induction cs with
  | nil => exact .close t
  | cons c cs ih =>
    obtain ⟨⟨hquote, hbackslash, hcontrol⟩, hcs⟩ := List.forall_mem_cons.mp h
    exact .plain hquote hbackslash hcontrol (ih hcs)

/-- Behind the opening quote the text writes this string, or one that is none. -/
inductive StringText : List Char → Option String → List Char → Prop
  | some {s cs t : List Char} (chars : StringRest s cs t) : StringText s (some (String.ofList cs)) t
  | none {s t : List Char} (written : StringSyntax s t) (halved : ∀ cs t', ¬ StringRest s cs t') :
      StringText s none t

/-- The text is a JSON number. -/
def IsNumber (text : List Char) : Prop := (decimalValue? text).isSome ∧ NoLeadingZero text

theorem IsNumber.isDecimalChar_head {d : Char} {s cs t : List Char} (h : IsNumber cs)
    (text : d :: s = cs ++ t) : isDecimalChar d = true := by
  obtain ⟨q, hq⟩ := Option.isSome_iff_exists.mp h.1
  exact TracedEval.isDecimalChar_head text hq

namespace JsonTree

mutual

/-- The text begins with this value, and then comes what is left. -/
inductive ValueText : List Char → JsonTree → List Char → Prop
  | null (t : List Char) : ValueText ('n' :: 'u' :: 'l' :: 'l' :: t) .null t
  | yes (t : List Char) : ValueText ('t' :: 'r' :: 'u' :: 'e' :: t) (.boolean true) t
  | no (t : List Char) : ValueText ('f' :: 'a' :: 'l' :: 's' :: 'e' :: t) (.boolean false) t
  | number {s cs t : List Char} (text : s = cs ++ t) (h : IsNumber cs) :
      ValueText s (.number cs) t
  | string {s t : List Char} {o : Option String} (text : StringText s o t) :
      ValueText ('"' :: s) (.string o) t
  | noElements {s t : List Char} (blanks : Blanks s (']' :: t)) : ValueText ('[' :: s) (.array []) t
  | array {s t : List Char} {vs : List JsonTree} (elements : ElementsText s vs (']' :: t)) :
      ValueText ('[' :: s) (.array vs) t
  | noMembers {s t : List Char} (blanks : Blanks s ('\x7d' :: t)) :
      ValueText ('\x7b' :: s) (.object []) t
  | object {s t : List Char} {ms : List (Option String × JsonTree)}
      (members : MembersText s ms ('\x7d' :: t)) : ValueText ('\x7b' :: s) (.object ms) t

/-- A value with blanks around it. -/
inductive ElementText : List Char → JsonTree → List Char → Prop
  | mk {s s' t t' : List Char} {v : JsonTree} (before : Blanks s s') (value : ValueText s' v t')
      (after : Blanks t' t) : ElementText s v t

/-- Elements with commas between them. -/
inductive ElementsText : List Char → List JsonTree → List Char → Prop
  | last {s t : List Char} {v : JsonTree} (element : ElementText s v t) : ElementsText s [v] t
  | more {s s' t : List Char} {v : JsonTree} {vs : List JsonTree}
      (element : ElementText s v (',' :: s')) (others : ElementsText s' vs t) :
      ElementsText s (v :: vs) t

/-- A key, a colon and an element. -/
inductive MemberText : List Char → Option String × JsonTree → List Char → Prop
  | mk {s s₁ s₂ s₃ t : List Char} {o : Option String} {v : JsonTree}
      (before : Blanks s ('"' :: s₁)) (key : StringText s₁ o s₂) (after : Blanks s₂ (':' :: s₃))
      (element : ElementText s₃ v t) : MemberText s (o, v) t

/-- Members with commas between them. -/
inductive MembersText : List Char → List (Option String × JsonTree) → List Char → Prop
  | last {s t : List Char} {m : Option String × JsonTree} (member : MemberText s m t) :
      MembersText s [m] t
  | more {s s' t : List Char} {m : Option String × JsonTree}
      {ms : List (Option String × JsonTree)} (member : MemberText s m (',' :: s'))
      (others : MembersText s' ms t) : MembersText s (m :: ms) t

end

/-- The whole text is JSON, and it says this. -/
def TextOf (text : List Char) (v : JsonTree) : Prop := ElementText text v []

end JsonTree

end TracedEval
