import TracedEval.Arithmetic
import TracedEval.Proofs.ByteOrder
import TracedEval.Proofs.Number.Order

/-!
# The order of values

The comparisons are five separate operators, but on strings they are all about one linear order,
and on numbers about another one. That of strings is the order of their bytes as well as of their
code points. That of numbers leaves out not-a-number, of which no comparison is true. Nothing else
has an order: without two strings or two numbers the comparisons other than equality are faults.

* `Operator.Decides` is that an operator answers a question, and `Operator.Relates` what each
  comparison asks of a linear order;
* `Operator.Orders` are the laws that the five operators keep together, and `Operator.orders` is
  that they do on everything that has a place in a linear order;
* `Operator.comparisons_order` is the statement about all values.
-/

namespace TracedEval

namespace Operator

/-! ## Questions -/

/-- The operators that ask for an order. -/
def orderings : List Operator := [less, lessEq, greater, greaterEq]

/-- The operators that compare. -/
def comparisons : List Operator := equal :: orderings

/-- The operator is true of the values. -/
def Holds (op : Operator) (v w : Value) : Prop := op.apply v w = .ok (.boolean true)

/-- The operator answers the question whether something is the case. -/
def Decides (op : Operator) (v w : Value) (p : Prop) : Prop :=
  ∃ b, op.apply v w = .ok (.boolean b) ∧ (b = true ↔ p)

/-- What a comparison asks of two members of a linear order. -/
def Relates {α : Type} [LinearOrder α] (op : Operator) (a b : α) : Prop :=
  match op with
  | less => a < b
  | lessEq => a ≤ b
  | greater => b < a
  | greaterEq => b ≤ a
  | _ => a = b

theorem forall_comparisons {p : Operator → Prop} :
    (∀ op ∈ comparisons, p op) ↔ p equal ∧ p less ∧ p lessEq ∧ p greater ∧ p greaterEq := by
  simp [comparisons, orderings]

section Questions

variable {op op' : Operator} {v w v' w' : Value} {p q : Prop} {α : Type} [LinearOrder α]

theorem Decides.holds_iff (h : op.Decides v w p) : op.Holds v w ↔ p := by
  obtain ⟨b, happly, hb⟩ := h
  rw [Holds, happly, ← hb]
  cases b <;> simp

theorem Decides.congr (h : op.Decides v w p) (hpq : p ↔ q) : op.Decides v w q := by
  obtain ⟨b, happly, hb⟩ := h
  exact ⟨b, happly, hb.trans hpq⟩

/-- A question has one answer. -/
theorem Decides.apply_eq (h : op.Decides v w p) (h' : op'.Decides v' w' p) :
    op.apply v w = op'.apply v' w' := by
  obtain ⟨b, happly, hb⟩ := h
  obtain ⟨b', happly', hb'⟩ := h'
  rw [happly, happly', Bool.eq_iff_iff.mpr (hb.trans hb'.symm)]

theorem exists_relates (a b : α) : ∃ op ∈ [less, equal, greater], op.Relates a b := by
  rcases lt_trichotomy a b with hlt | heq | hgt
  · exact ⟨less, by decide, hlt⟩
  · exact ⟨equal, by decide, heq⟩
  · exact ⟨greater, by decide, hgt⟩

theorem Relates.unique {a b : α} (h : op.Relates a b) (hop : op ∈ [less, equal, greater])
    (hop' : op' ∈ [less, equal, greater]) (h' : op'.Relates a b) : op = op' := by
  simp only [List.mem_cons, List.not_mem_nil, or_false] at hop hop'
  rcases hop with rfl | rfl | rfl <;> rcases hop' with rfl | rfl | rfl <;>
    simp only [Relates] at h h' <;> first | rfl | order

end Questions

/-! ## Laws -/

/-- The comparisons are one order of these values. -/
structure Orders {ι : Type} (value : ι → Value) : Prop where
  answers : ∀ a b, ∀ op ∈ comparisons, ∃ c, op.apply (value a) (value b) = .ok (.boolean c)
  trichotomy : ∀ a b, ∃! op, op ∈ [less, equal, greater] ∧ op.Holds (value a) (value b)
  lessEq_iff : ∀ a b, lessEq.Holds (value a) (value b) ↔
    less.Holds (value a) (value b) ∨ equal.Holds (value a) (value b)
  greaterEq_iff : ∀ a b, greaterEq.Holds (value a) (value b) ↔
    greater.Holds (value a) (value b) ∨ equal.Holds (value a) (value b)
  mirror : ∀ a b, greater.apply (value a) (value b) = less.apply (value b) (value a)
  trans : ∀ a b c, less.Holds (value a) (value b) → less.Holds (value b) (value c) →
    less.Holds (value a) (value c)

/-- What has a place in a linear order is ordered, if the comparisons ask for the places. -/
theorem orders {ι α : Type} [LinearOrder α] {value : ι → Value} (place : ι → α)
    (h : ∀ a b, ∀ op ∈ comparisons,
      op.Decides (value a) (value b) (op.Relates (place a) (place b))) : Orders value where
  answers a b op hop := by
    obtain ⟨c, happly, -⟩ := h a b op hop
    exact ⟨c, happly⟩
  trichotomy a b := by
    have hcomparisons : [less, equal, greater] ⊆ comparisons := by decide
    obtain ⟨op, hop, hrelates⟩ := exists_relates (place a) (place b)
    refine ⟨op, ⟨hop, (h a b op (hcomparisons hop)).holds_iff.mpr hrelates⟩, ?_⟩
    rintro op' ⟨hop', hholds⟩
    exact ((h a b op' (hcomparisons hop')).holds_iff.mp hholds).unique hop' hop hrelates
  lessEq_iff a b := by
    rw [(h a b lessEq (by decide)).holds_iff, (h a b less (by decide)).holds_iff,
      (h a b equal (by decide)).holds_iff]
    exact le_iff_lt_or_eq
  greaterEq_iff a b := by
    rw [(h a b greaterEq (by decide)).holds_iff, (h a b greater (by decide)).holds_iff,
      (h a b equal (by decide)).holds_iff]
    exact le_iff_lt_or_eq.trans (or_congr_right eq_comm)
  mirror a b := (h a b greater (by decide)).apply_eq (h b a less (by decide))
  trans a b c := by
    rw [(h a b less (by decide)).holds_iff, (h b c less (by decide)).holds_iff,
      (h a c less (by decide)).holds_iff]
    exact lt_trans

/-! ## Strings -/

theorem decides_strings (s t : String) :
    ∀ op ∈ comparisons, op.Decides (.string s) (.string t) (op.Relates s t) :=
  forall_comparisons.mpr ⟨⟨_, rfl, beq_iff_eq⟩, ⟨_, rfl, decide_eq_true_iff⟩,
    ⟨_, rfl, decide_eq_true_iff⟩, ⟨_, rfl, decide_eq_true_iff⟩, ⟨_, rfl, decide_eq_true_iff⟩⟩

theorem less_strings_iff {s t : String} : less.Holds (.string s) (.string t) ↔ s < t :=
  (decides_strings s t less (by decide)).holds_iff

/-- A common prefix that is added to both strings does not matter. -/
theorem less_add (r s t : String) :
    (do
      let s' ← add.apply (.string r) (.string s)
      let t' ← add.apply (.string r) (.string t)
      less.apply s' t') = less.apply (.string s) (.string t) := by
  have hless : less ∈ comparisons := by decide
  exact (decides_strings (r ++ s) (r ++ t) less hless).apply_eq
    ((decides_strings s t less hless).congr append_lt_append_iff.symm)

/-! ## Numbers -/

theorem decides_numbers {x y : Float} (hx : x.isNaN = false) (hy : y.isNaN = false) :
    ∀ op ∈ comparisons,
      op.Decides (.number x) (.number y) (op.Relates (place x) (place y)) :=
  forall_comparisons.mpr ⟨⟨_, rfl, beq_iff_place hx hy⟩,
    ⟨_, rfl, decide_eq_true_iff.trans (lt_iff_place hx hy)⟩,
    ⟨_, rfl, decide_eq_true_iff.trans (le_iff_place hx hy)⟩,
    ⟨_, rfl, decide_eq_true_iff.trans (lt_iff_place hy hx)⟩,
    ⟨_, rfl, decide_eq_true_iff.trans (le_iff_place hy hx)⟩⟩

/-- Every question about not-a-number is answered in the negative. -/
theorem apply_notANumber {x y : Float} (h : x.isNaN = true ∨ y.isNaN = true) :
    ∀ op ∈ comparisons, op.apply (.number x) (.number y) = .ok (.boolean false) := by
  have hno {b : Bool} (hb : b = false) :
      (.ok (.boolean b) : Except Fault Value) = .ok (.boolean false) := by rw [hb]
  obtain ⟨hlt, hle, hbeq⟩ := incomparable h
  obtain ⟨hgt, hge, -⟩ := incomparable h.symm
  exact forall_comparisons.mpr ⟨hno hbeq, hno (decide_eq_false hlt), hno (decide_eq_false hle),
    hno (decide_eq_false hgt), hno (decide_eq_false hge)⟩

/-! ## All values -/

theorem apply_unordered {v w : Value} (hstrings : ¬ (v.type = .string ∧ w.type = .string))
    (hnumbers : ¬ (v.type = .number ∧ w.type = .number)) {op : Operator} (hop : op ∈ orderings) :
    op.apply v w = .error (op.mismatch v w) := by
  simp only [orderings, List.mem_cons, List.not_mem_nil, or_false] at hop
  rcases hop with rfl | rfl | rfl | rfl <;> cases v <;> cases w <;>
    first | rfl | exact absurd ⟨rfl, rfl⟩ hstrings | exact absurd ⟨rfl, rfl⟩ hnumbers

/-- The comparisons are one order of all strings and one of all numbers. That of strings is the
order of their bytes and that of their code points, and prefixing keeps it. Both zeros are one
number, and no comparison with not-a-number is true. Other operands cannot be ordered. -/
theorem comparisons_order :
    Orders Value.string ∧
      (∀ s t, less.Holds (.string s) (.string t) ↔ textBytes s < textBytes t) ∧
      (∀ s t, less.Holds (.string s) (.string t) ↔
        s.toList.map Char.toNat < t.toList.map Char.toNat) ∧
      (∀ r s t, (do
          let s' ← add.apply (.string r) (.string s)
          let t' ← add.apply (.string r) (.string t)
          less.apply s' t') = less.apply (.string s) (.string t)) ∧
      Orders (fun x : {x : Float // x.isNaN = false} => .number x) ∧
      (∀ x ∈ [0, -0], ∀ y ∈ [0, -0], equal.Holds (.number x) (.number y)) ∧
      (∀ x y : Float, x.isNaN = true ∨ y.isNaN = true → ∀ op ∈ comparisons,
        op.apply (.number x) (.number y) = .ok (.boolean false)) ∧
      ∀ v w : Value, ¬ (v.type = .string ∧ w.type = .string) →
        ¬ (v.type = .number ∧ w.type = .number) → ∀ op ∈ orderings,
          op.apply v w = .error (.typeError
            s!"unsupported operands for '{op.symbol}': {v.type.name} and {w.type.name}") := by
  refine ⟨orders id decides_strings, fun s t => ?_, fun s t => ?_, less_add,
    orders (fun x => place x.val) fun x y => decides_numbers x.property y.property, ?_,
    fun _ _ => apply_notANumber,
    fun _ _ hstrings hnumbers _ hop => apply_unordered hstrings hnumbers hop⟩
  · rw [less_strings_iff, textBytes_lt_iff]
  · rw [less_strings_iff, map_toNat_lt_iff]
  · intro x hx y hy
    simp only [List.mem_cons, List.not_mem_nil, or_false] at hx hy
    rcases hx with rfl | rfl <;> rcases hy with rfl | rfl <;> rfl

/-- Letters of one and of two bytes, not-a-number, and values without an order. -/
theorem comparisons_order_kinds :
    less.Holds (.string "Z") (.string "a") ∧ less.Holds (.string "Z") (.string "é") ∧
      textBytes "Z" < textBytes "é" ∧
      less.apply (.number (0 / 0)) (.number 1) = .ok (.boolean false) ∧
      greaterEq.apply .nil (.number 1) =
        .error (.typeError "unsupported operands for '>=': nil and number") := by
  obtain ⟨hstrings, hbytes, -, -, -, -, hnan, hother⟩ := comparisons_order
  have hfirst : less.Holds (.string "Z") (.string "a") := rfl
  have hsecond : less.Holds (.string "a") (.string "é") := rfl
  have hholds := hstrings.trans _ _ _ hfirst hsecond
  exact ⟨hfirst, hholds, (hbytes _ _).mp hholds, hnan _ _ (.inl rfl) _ (by decide),
    hother _ _ (by decide) (by decide) _ (by decide)⟩

end Operator

end TracedEval
