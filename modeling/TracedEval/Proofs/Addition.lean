import TracedEval.Proofs.Folding

/-!
# Adding values up

Addition is the operator that takes operands of different kinds: numbers are added, and as soon as
one side is a string the texts of both are joined. In a form with several operands it is the place
of the first string that decides. What stands in front of it has to add up without it, which only
numbers or a single value do; from there on everything is joined.

* `Value.SumsTo` is what the values in front of the first string add up to;
* `Value.Adds` tells the four ways apart in which values can stand, the last of which gets stuck,
  and `Value.exists_adds` is that there is no other;
* `Bundle.fold_add` is the statement about operator forms.
-/

namespace TracedEval

/-! ## Two operands -/

namespace Operator

/-- A string takes any operand behind it. -/
theorem add_string_left (s : String) (v : Value) :
    add.apply (.string s) v = .ok (.string (s ++ v.display)) := by
  cases v <;> rfl

/-- A string takes any operand in front of it. -/
theorem add_string_right (v : Value) (s : String) :
    add.apply v (.string s) = .ok (.string (v.display ++ s)) := by
  cases v <;> rfl

/-- Without a string among them, only numbers are added. -/
theorem add_mismatch {v w : Value} (hv : v.type ≠ .string) (hw : w.type ≠ .string)
    (hnumbers : ¬ (v.type = .number ∧ w.type = .number)) :
    add.apply v w = .error (add.mismatch v w) := by
  cases v <;> cases w <;> first | rfl | simp_all [Value.type]

end Operator

namespace Value

/-! ## In front of the first string -/

/-- What values without a string among them add up to. A single value is left as it is, whatever it
is; several have to be numbers, and these are added from left to right. -/
inductive SumsTo : List Value → Value → Prop
  | single (v : Value) : SumsTo [v] v
  | numbers (x : Float) (xs : List Float) :
      SumsTo ((x :: xs).map .number) (.number (xs.foldl (· + ·) x))

/-- None of the values is a string. -/
def NoStrings (values : List Value) : Prop := ∀ v ∈ values, v.type ≠ .string

theorem noStrings_numbers (xs : List Float) : NoStrings (xs.map .number) := by
  intro v hv
  obtain ⟨x, -, rfl⟩ := List.mem_map.mp hv
  exact ValueType.noConfusion

theorem foldlM_string (s : String) (rest : List Value) :
    rest.foldlM Operator.add.apply (.string s) =
      .ok (.string (s ++ String.join (rest.map display))) := by
  induction rest generalizing s with
  | nil => simp [pure, Except.pure]
  | cons v rest ih =>
    rw [List.foldlM_cons, Operator.add_string_left]
    show rest.foldlM Operator.add.apply (.string (s ++ v.display)) = _
    rw [ih, List.map_cons, String.join_cons, String.append_assoc]

/-- What the front adds up to is carried on to the values behind it. -/
theorem SumsTo.fold_append {front : List Value} {u : Value} (h : SumsTo front u)
    (rest : List Value) :
    Operator.add.fold (front ++ rest) = rest.foldlM Operator.add.apply u := by
  cases h with
  | single => rfl
  | numbers x xs => exact Operator.foldlM_numbers (fun _ _ => rfl) x xs rest

theorem SumsTo.ne_nil {front : List Value} {u : Value} (h : SumsTo front u) : front ≠ [] := by
  cases h <;> simp

theorem SumsTo.type_ne {front : List Value} {u : Value} (h : SumsTo front u)
    (hfront : NoStrings front) : u.type ≠ .string := by
  cases h with
  | single => exact hfront _ (List.mem_singleton_self _)
  | numbers => exact ValueType.noConfusion

/-! ## How values can stand -/

/-- The ways in which values can stand, with what they add up to. In the last one there is nothing:
the front cannot be added to the value behind it. -/
inductive Adds : List Value → Except Fault Value → Prop
  | plain {values : List Value} {u : Value} (h : SumsTo values u) (strings : NoStrings values) :
      Adds values (.ok u)
  | first (s : String) (rest : List Value) :
      Adds (.string s :: rest) (.ok (.string (s ++ String.join (rest.map display))))
  | later {front : List Value} {u : Value} (h : SumsTo front u) (strings : NoStrings front)
      (s : String) (rest : List Value) :
      Adds (front ++ .string s :: rest)
        (.ok (.string (u.display ++ s ++ String.join (rest.map display))))
  | stuck {front : List Value} {u : Value} (h : SumsTo front u) (strings : NoStrings front)
      {operand : Value} (string : operand.type ≠ .string)
      (numbers : ¬ (u.type = .number ∧ operand.type = .number)) (rest : List Value) :
      Adds (front ++ operand :: rest) (.error (Operator.add.mismatch u operand))

/-- What values add up to is what the operator makes of them. -/
theorem Adds.fold {values : List Value} {result : Except Fault Value} (h : Adds values result) :
    Operator.add.fold values = result := by
  cases h with
  | plain h =>
    have hfold := h.fold_append []
    rwa [List.append_nil] at hfold
  | first s rest => exact foldlM_string s rest
  | later h strings s rest =>
    rw [h.fold_append, List.foldlM_cons, Operator.add_string_right]
    exact foldlM_string _ rest
  | stuck h strings string numbers rest =>
    rw [h.fold_append, List.foldlM_cons, Operator.add_mismatch (h.type_ne strings) string numbers]
    rfl

/-- What comes behind a front without strings decides how the values stand. -/
theorem exists_adds_of_front {front : List Value} {u : Value} (h : SumsTo front u)
    (strings : NoStrings front) {rest : List Value}
    (hrest : ∀ v ∈ rest.head?, ¬ (u.type = .number ∧ v.type = .number)) :
    ∃ result, Adds (front ++ rest) result := by
  cases rest with
  | nil =>
    rw [List.append_nil]
    exact ⟨_, .plain h strings⟩
  | cons v rest =>
    by_cases hv : v.type = .string
    · cases v <;> cases hv
      exact ⟨_, .later h strings _ rest⟩
    · exact ⟨_, .stuck h strings hv (hrest v rfl) rest⟩

/-- The numbers at the front of values. -/
theorem exists_numbers (values : List Value) :
    ∃ (xs : List Float) (rest : List Value), values = xs.map .number ++ rest ∧
      ∀ v ∈ rest.head?, v.type ≠ .number := by
  induction values with
  | nil => exact ⟨[], [], rfl, by simp⟩
  | cons v values ih =>
    cases v with
    | number x =>
      obtain ⟨xs, rest, rfl, hrest⟩ := ih
      exact ⟨x :: xs, rest, rfl, hrest⟩
    | nil | boolean | string | function | builtin => exact ⟨[], _, rfl, by simp [type]⟩

theorem exists_adds {values : List Value} (h : values ≠ []) : ∃ result, Adds values result := by
  obtain ⟨v, rest, rfl⟩ := List.exists_cons_of_ne_nil h
  cases v with
  | string s => exact ⟨_, .first s rest⟩
  | number x =>
    obtain ⟨xs, rest, rfl, hrest⟩ := exists_numbers rest
    exact exists_adds_of_front (.numbers x xs) (noStrings_numbers (x :: xs))
      fun v hv hboth => hrest v hv hboth.2
  | nil | boolean | function | builtin =>
    exact exists_adds_of_front (.single _) (by simp [NoStrings, type]) (by simp [type])

/-! ## The first string -/

/-- Where the first string stands, counted from one. -/
def firstString? (values : List Value) : Option ℕ :=
  (values.findIdx? fun v => v.type = .string).map (· + 1)

theorem firstString?_eq_none {values : List Value} (h : NoStrings values) :
    firstString? values = none := by
  rw [firstString?, Option.map_eq_none_iff, List.findIdx?_eq_none_iff]
  simpa [NoStrings] using h

theorem firstString?_append {front : List Value} (h : NoStrings front) (rest : List Value) :
    firstString? (front ++ rest) = (firstString? rest).map (front.length + ·) := by
  have hfront : front.findIdx? (fun v => v.type = .string) = none := by
    rw [List.findIdx?_eq_none_iff]
    simpa [NoStrings] using h
  rw [firstString?, firstString?, List.findIdx?_append, hfront]
  cases rest.findIdx? fun v => v.type = .string with
  | none => rfl
  | some i => simp; omega

/-- All of the values are numbers. -/
def AllNumbers (values : List Value) : Prop := ∀ v ∈ values, v.type = .number

/-- The condition under which values can be added up: there is only one; or there is no string, and
all are numbers; or the first string is the first or the second value; or everything in front of it
is a number. -/
def Addable (values : List Value) : Prop :=
  values.length = 1 ∨
  match firstString? values with
  | none => AllNumbers values
  | some k => k ≤ 2 ∨ 3 ≤ k ∧ AllNumbers (values.take (k - 1))

/-- What values add up to. From the first string on the texts are joined, and the text of what the
front adds up to leads. -/
def Total (values : List Value) (w : Value) : Prop :=
  match firstString? values with
  | none => SumsTo values w
  | some k => ∃ lead, w = .string (lead ++ String.join ((values.drop (k - 1)).map display)) ∧
      if k = 1 then lead = "" else ∃ u, SumsTo (values.take (k - 1)) u ∧ lead = u.display

variable {front rest values : List Value} {u w : Value}

theorem firstString?_first (s : String) (rest : List Value) :
    firstString? (.string s :: rest) = some 1 := rfl

theorem firstString?_later (h : NoStrings front) (s : String) (rest : List Value) :
    firstString? (front ++ .string s :: rest) = some (front.length + 1) := by
  rw [firstString?_append h, firstString?_first, Option.map_some]

theorem SumsTo.length_or_numbers (h : SumsTo front u) : front.length = 1 ∨ AllNumbers front := by
  cases h with
  | single => exact .inl rfl
  | numbers x xs =>
    right
    intro v hv
    obtain ⟨y, -, rfl⟩ := List.mem_map.mp hv
    rfl

theorem SumsTo.type_number (h : SumsTo front u) (hfront : AllNumbers front) :
    u.type = .number := by
  cases h with
  | single => exact hfront _ (List.mem_singleton_self _)
  | numbers => rfl

theorem SumsTo.addable_later (h : SumsTo front u) (strings : NoStrings front) (s : String)
    (rest : List Value) : Addable (front ++ .string s :: rest) := by
  right
  rw [firstString?_later strings]
  dsimp only
  rw [Nat.add_sub_cancel, List.take_left]
  have hpos := List.length_pos_of_ne_nil h.ne_nil
  rcases h.length_or_numbers with hone | hnumbers
  · exact .inl (by omega)
  · by_cases hlength : front.length + 1 ≤ 2
    · exact .inl hlength
    · exact .inr ⟨by omega, hnumbers⟩

/-- Where addition gets stuck, all values up to there are in front of the first string, and one of
them is no number. -/
theorem SumsTo.not_addable (h : SumsTo front u) (strings : NoStrings front) {operand : Value}
    (string : operand.type ≠ .string) (numbers : ¬ (u.type = .number ∧ operand.type = .number))
    (rest : List Value) : ¬ Addable (front ++ operand :: rest) := by
  have hpos := List.length_pos_of_ne_nil h.ne_nil
  have hfront : NoStrings (front ++ [operand]) := by
    intro v hv
    rcases List.mem_append.mp hv with hv | hv
    · exact strings v hv
    · rwa [List.mem_singleton.mp hv]
  -- not all values of a longer piece are numbers
  have hmixed : ∀ piece, AllNumbers (front ++ operand :: piece) → False := by
    intro piece hall
    have hnumbers : AllNumbers front := fun v hv => hall v (List.mem_append_left _ hv)
    exact numbers ⟨h.type_number hnumbers, hall operand (by simp)⟩
  rintro (hone | hstring)
  · simp at hone
    omega
  · rw [List.append_cons, firstString?_append hfront] at hstring
    cases hfirst : firstString? rest with
    | none =>
      rw [hfirst, List.append_assoc] at hstring
      exact hmixed rest hstring
    | some j =>
      rw [hfirst, Option.map_some] at hstring
      have hlength : (front ++ [operand]).length = front.length + 1 := by simp
      have hj : 1 ≤ j := by
        obtain ⟨i, -, rfl⟩ := Option.map_eq_some_iff.mp hfirst
        omega
      rcases hstring with hsmall | ⟨-, hnumbers⟩
      · omega
      · rw [hlength, show front.length + 1 + j - 1 = (front ++ [operand]).length + (j - 1) by
          omega, List.take_length_add_append, List.append_assoc] at hnumbers
        exact hmixed _ hnumbers

theorem Adds.addable_iff {result : Except Fault Value} (h : Adds values result) :
    Addable values ↔ ∃ w, result = .ok w := by
  cases h with
  | plain h strings =>
    refine iff_of_true ?_ ⟨_, rfl⟩
    rw [Addable, firstString?_eq_none strings]
    exact h.length_or_numbers
  | first s rest => exact iff_of_true (.inr (.inl (by decide))) ⟨_, rfl⟩
  | later h strings s rest => exact iff_of_true (h.addable_later strings s rest) ⟨_, rfl⟩
  | stuck h strings string numbers rest =>
    exact iff_of_false (h.not_addable strings string numbers rest) (by simp)

theorem Adds.total (h : Adds values (.ok w)) : Total values w := by
  cases h with
  | plain h strings =>
    rw [Total, firstString?_eq_none strings]
    exact h
  | first s rest =>
    exact ⟨"", by simp [display], by simp⟩
  | @later front u h strings s rest =>
    have hpos := List.length_pos_of_ne_nil h.ne_nil
    rw [Total, firstString?_later strings]
    dsimp only
    rw [Nat.add_sub_cancel, List.take_left, List.drop_left]
    refine ⟨u.display, ?_, ?_⟩
    · rw [List.map_cons, String.join_cons, ← String.append_assoc]
      rfl
    · rw [if_neg (by omega)]
      exact ⟨u, h, rfl⟩

end Value

/-! ## Forms -/

namespace Bundle

variable {run : BodyRunner} {args : List Value} {scope : Scope} {ctx : Context}

/-- Addition of any number of operands, of whatever kinds they are. It succeeds exactly when the
values are `Addable`, it comes to their `Total`, which is the value itself if there is only one, and
it changes nothing. Otherwise there is an operand that what came before it, added up, cannot be
added to: neither of the two is a string, and they are not both numbers. All operands up to there
can be added, so that it is the first of its kind; the fault names the kinds of the two and is at
the place of the form. -/
theorem fold_add (pos : Position) {operands : List Expr} {values : List Value}
    (h : List.Forall₂ (Expr.Yields run args scope ctx) operands values) (hvalues : values ≠ []) :
    let result := (fold .add pos operands).eval run args scope ctx
    ((∃ w, result = .ok w ctx) ↔ Value.Addable values) ∧
    (∀ w, result = .ok w ctx → Value.Total values w ∧ ∀ v, values = [v] → w = v) ∧
    (¬ Value.Addable values → ∃ front u operand rest, values = front ++ operand :: rest ∧
      Value.NoStrings front ∧ Value.SumsTo front u ∧ operand.type ≠ .string ∧
      ¬ (u.type = .number ∧ operand.type = .number) ∧
      result = .error ⟨pos, .typeError
        s!"unsupported operands for '+': {u.type.name} and {operand.type.name}"⟩ ctx) := by
  intro result
  obtain ⟨sum, hadds⟩ := Value.exists_adds hvalues
  have hresult : result = .ofWorld ctx (pos.blame sum, ctx.world) := by
    rw [← hadds.fold]
    exact eval_fold .add pos h
  have hok : ∀ w, result = .ok w ctx ↔ sum = .ok w := by
    intro w
    rw [hresult]
    cases sum with
    | error => exact iff_of_false nofun nofun
    | ok v =>
      constructor
      · intro heq
        rw [(Outcome.ok.inj heq).1]
      · intro heq
        rw [Except.ok.inj heq]
        rfl
  refine ⟨?_, ?_, ?_⟩
  · rw [hadds.addable_iff]
    exact exists_congr hok
  · intro w hw
    have hsum := (hok w).mp hw
    subst hsum
    refine ⟨hadds.total, ?_⟩
    rintro v rfl
    exact (Except.ok.inj hadds.fold).symm
  · intro hnot
    rw [hadds.addable_iff] at hnot
    cases hadds with
    | plain | first | later => exact absurd ⟨_, rfl⟩ hnot
    | stuck hsums strings string numbers =>
      exact ⟨_, _, _, _, rfl, strings, hsums, string, numbers, hresult⟩

/-- Two numbers in front of a string are added before they are joined to it, but what is no number
either cannot be added to a number, although a string follows. -/
theorem fold_add_mixed :
    let ctx := Context.new 1 .text (.new none true)
    let joined : List Value := [.number 1, .number 2, .string "x"]
    let stuck : List Value := [.number 1, .nil, .string "x"]
    let sum := fun values =>
      (fold .add ⟨4, 5⟩ [.argument 0, .argument 1, .argument 2]).eval (runBody 0) values .empty ctx
    (∃ w, sum joined = .ok w ctx ∧ Value.Total joined w) ∧
    ∃ front u operand rest, stuck = front ++ operand :: rest ∧
      Value.NoStrings front ∧ Value.SumsTo front u ∧ operand.type ≠ .string ∧
      ¬ (u.type = .number ∧ operand.type = .number) ∧
      sum stuck = .error ⟨⟨4, 5⟩, .typeError
        s!"unsupported operands for '+': {u.type.name} and {operand.type.name}"⟩ ctx := by
  intro ctx joined stuck sum
  have hyields : ∀ u v w : Value, List.Forall₂ (Expr.Yields (runBody 0) [u, v, w] .empty ctx)
      [.argument 0, .argument 1, .argument 2] [u, v, w] := fun _ _ _ =>
    .cons rfl (.cons rfl (.cons rfl .nil))
  obtain ⟨hjoined, htotal, -⟩ := fold_add ⟨4, 5⟩ (hyields (.number 1) (.number 2) (.string "x"))
    (List.cons_ne_nil _ _)
  obtain ⟨-, -, hstuck⟩ := fold_add ⟨4, 5⟩ (hyields (.number 1) .nil (.string "x"))
    (List.cons_ne_nil _ _)
  refine ⟨?_, hstuck ?_⟩
  · obtain ⟨w, hw⟩ := hjoined.mpr (.inr (.inr ⟨by decide, by simp [Value.AllNumbers, Value.type]⟩))
    exact ⟨w, hw, (htotal w hw).1⟩
  · simp [Value.Addable, Value.firstString?, Value.AllNumbers, Value.type, List.findIdx?_cons]

end Bundle
end TracedEval
