import TracedEval.Proofs.Equality
import TracedEval.Proofs.Machine.Functions
import TracedEval.Proofs.Sessions
import TracedEval.Proofs.Writing

/-!
# Which functions are equal

Functions are compared by their identities, which are numbers that a context gives out. This file
says what that comes to for a program: of two functions that meet anywhere in a session, either both
go back to one and the same evaluation of a function form, and then they are the same in every
respect, or they are not equal.

* `Slot.Makes` and `Session.Makes` are the functions made by a step, and by the steps for one slot;
* `Machine.State.ToldApart` is what a log of the functions made says of the values in a state;
* `Session.strictEquals_by_origin` is the statement for every state of every evaluation in a session.
-/

namespace TracedEval

/-! ## Actions -/

section Contexts

variable {made : List Closure} {ctx : Context}

theorem Context.Numbered.clearStack (h : ctx.Numbered made) : ctx.clearStack.Numbered made :=
  ⟨h.known, h.identities⟩

theorem Context.Numbered.report (h : ctx.Numbered made) (failure : Failure) :
    (ctx.report failure).2.Numbered made := by
  rw [Context.report_eq]
  exact ⟨h.known, h.identities⟩

theorem Context.Numbered.withOutput (h : ctx.Numbered made) (output : Output) :
    Context.Numbered made { ctx with output := output } :=
  ⟨h.known, h.identities⟩

/-- Evaluating a body directly makes these functions. -/
def Context.EvaluationMakes (ctx : Context) (body : Expr) (made : List Closure) : Prop :=
  ∃ final, Machine.Makes (Machine.start body [] .empty ctx) made final ∧ final.step = .halted

/-- What an evaluation leaves keeps to the log with what it has made at the end. -/
theorem Context.Numbered.evaluate (h : ctx.Numbered made) {body : Expr} {after : Context}
    (hafter : (ctx.evaluate body).context? = some after) :
    ∃ more, ctx.EvaluationMakes body more ∧ after.Numbered (made ++ more) := by
  obtain ⟨events, final, hrun, hhalted, houtcome⟩ := Machine.ends_of_context? hafter
  obtain ⟨more, hmakes⟩ := hrun.reaches.makes
  have hfinal : (ctx.evaluate body).context? = some final.context :=
    Machine.context?_of_outcome? houtcome
  rw [hafter, Option.some.injEq] at hfinal
  rw [hfinal]
  exact ⟨more, ⟨final, hmakes, hhalted⟩, ((h.start body).makes hmakes).context⟩

end Contexts

/-- The functions that an action makes on a slot: those of what it evaluates, if it evaluates
something. -/
def Slot.Makes (slot : Slot) (action : Action) (made : List Closure) : Prop :=
  match action.body? with
  | some body => slot.context.EvaluationMakes body made
  | none => made = []

/-- What an action leaves keeps to the log with what it has made at the end. -/
theorem Slot.numbered_of_act {slot after : Slot} {action : Action} {reply : Reply}
    {made : List Closure} (h : slot.context.Numbered made)
    (hact : slot.act action = .ok (reply, after)) :
    ∃ more, slot.Makes action more ∧ after.context.Numbered (made ++ more) := by
  cases action with
  | evaluate body =>
    cases ho : slot.context.evaluate body with
    | ok value ctx | error failure ctx =>
      have hcontext : (slot.context.evaluate body).context? = some ctx := by rw [ho]; rfl
      simp only [act, ho] at hact
      cases hact
      exact h.evaluate hcontext
    | underflow | exhausted =>
      simp only [act, ho] at hact
      cases hact
  | execute program =>
    cases ho : slot.context.evaluate program.body with
    | ok value ctx =>
      have hcontext : (slot.context.evaluate program.body).context? = some ctx := by rw [ho]; rfl
      simp only [act, Context.execute, ho, Context.settle] at hact
      cases hact
      obtain ⟨more, hmakes, hafter⟩ := h.evaluate hcontext
      exact ⟨more, hmakes, hafter.clearStack⟩
    | error failure ctx =>
      have hcontext : (slot.context.evaluate program.body).context? = some ctx := by rw [ho]; rfl
      simp only [act, Context.execute, ho, Context.settle] at hact
      cases hact
      obtain ⟨more, hmakes, hafter⟩ := h.evaluate hcontext
      exact ⟨more, hmakes, hafter.report failure⟩
    | underflow | exhausted =>
      simp only [act, Context.execute, ho, Context.settle] at hact
      cases hact
  | report =>
    refine ⟨[], rfl, ?_⟩
    rw [List.append_nil]
    cases hpending : slot.pending with
    | none =>
      simp only [act, hpending] at hact
      cases hact
      exact h
    | some failure =>
      simp only [act, hpending] at hact
      cases hact
      exact h.report failure
  | takeLines | setEcho =>
    cases hact
    refine ⟨[], rfl, ?_⟩
    rw [List.append_nil]
    exact h.withOutput _
  | nothing =>
    cases hact
    refine ⟨[], rfl, ?_⟩
    rwa [List.append_nil]

/-! ## Sessions -/

/-- Steps that all go through, and the functions that those for slot `i` make, in the order in which
they make them. -/
inductive Session.Makes (i : Nat) : Session → List Step → List Closure → Session → Prop
  | nil (s : Session) : Makes i s [] [] s
  | here {s s' s'' : Session} {st : Step} {rest : List Step} {answer : Answer}
      {more made : List Closure} (step : s.step st = .ok (answer, s')) (current : s'.current = i)
      (makes : (s.slotAt i).Makes st.action more) (next : Makes i s' rest made s'') :
      Makes i s (st :: rest) (more ++ made) s''
  | elsewhere {s s' s'' : Session} {st : Step} {rest : List Step} {answer : Answer}
      {made : List Closure} (step : s.step st = .ok (answer, s')) (other : s'.current ≠ i)
      (next : Makes i s' rest made s'') : Makes i s (st :: rest) made s''

/-- The functions that a slot's steps make are all that get into it. -/
theorem Session.Takes.makes {s s' : Session} {steps : List Step} (h : s.Takes steps s')
    (hs : s.HasCurrent) {i : Nat} {made : List Closure}
    (hslot : (s.slotAt i).context.Numbered made) :
    ∃ more, s.Makes i steps more s' ∧ (s'.slotAt i).context.Numbered (made ++ more) := by
  induction h generalizing made with
  | nil s =>
    refine ⟨[], .nil s, ?_⟩
    rwa [List.append_nil]
  | cons step _ ih =>
    have hs' := hasCurrent_of_step hs step
    rcases slotAt_of_step hs step i with ⟨hcurrent, hact⟩ | ⟨hother, hkept⟩
    · obtain ⟨more, hmakes, hafter⟩ := Slot.numbered_of_act hslot hact
      obtain ⟨rest, hrest, hlast⟩ := ih hs' hafter
      rw [List.append_assoc] at hlast
      exact ⟨more ++ rest, .here step hcurrent hmakes hrest, hlast⟩
    · rw [← hkept] at hslot
      obtain ⟨rest, hrest, hlast⟩ := ih hs' hslot
      exact ⟨rest, .elsewhere step hother hrest, hlast⟩

/-! ## Telling functions apart -/

/-- What a log of all functions that have been made says of the values in a state. -/
structure Machine.State.ToldApart (made : List Closure) (m : Machine.State) : Prop where
  /-- No two functions that were made are equal, not even if the same form made them. -/
  distinct : made.Pairwise fun f g => (Value.function f).strictEquals (.function g) = false
  /-- Every function was made, and only once. -/
  origin : ∀ f, m.Holds (.function f) → ∃! k : Nat, made[k]? = some f
  /-- Functions are equal if they are one builtin, or copies of one function that was made. -/
  same : ∀ v w, m.Holds v → m.Holds w → v.type = .function → w.type = .function →
    (v.strictEquals w = true ↔
      (∃ b, v = .builtin b ∧ w = .builtin b) ∨
        ∃ (k : Nat) (f : Closure), made[k]? = some f ∧ v = .function f ∧ w = .function f)
  /-- Equal values are alike. -/
  alike : ∀ v w, m.Holds v → m.Holds w → v.strictEquals w = true → v.Alike w

section Numbered

variable {made : List Closure} {m : Machine.State}

theorem Machine.State.Numbered.alike (h : m.Numbered made) {v w : Value} (hv : m.Holds v)
    (hw : m.Holds w) (hequal : v.strictEquals w = true) : v.Alike w := by
  refine Value.alike_of_strictEquals hequal ?_
  rintro f g rfl rfl hidentity
  -- both are at the place in the log that the identity is
  have hplace := h.getElem?_identity hv
  rw [hidentity, h.getElem?_identity hw, Option.some.injEq] at hplace
  exact hplace.symm

/-- Functions are told apart by their places in the log. -/
theorem Machine.State.Numbered.toldApart (h : m.Numbered made) : m.ToldApart made := by
  refine ⟨?_, ?_, ?_, ?_⟩
  · have hnodup : (made.map Closure.identity).Nodup := by
      rw [h.identities]
      exact List.nodup_range
    exact (List.pairwise_map.mp hnodup).imp fun hne => beq_false_of_ne hne
  · intro f hf
    refine ⟨f.identity, h.getElem?_identity hf, ?_⟩
    intro k hk
    exact (identity_of_getElem? h.identities hk).symm
  · intro v w hv hw hvtype hwtype
    constructor
    · intro hequal
      obtain rfl := (h.alike hv hw hequal).function hvtype
      cases v with
      | function f => exact .inr ⟨f.identity, f, h.getElem?_identity hv, rfl, rfl⟩
      | builtin b => exact .inl ⟨b, rfl, rfl⟩
      | nil | boolean | number | string => cases hvtype
    · rintro (⟨b, rfl, rfl⟩ | ⟨k, f, -, rfl, rfl⟩)
      · exact beq_self_eq_true b
      · exact beq_self_eq_true f.identity
  · exact fun v w => h.alike

end Numbered

namespace Session

/-- Strict equality is symmetric, transitive and, but for not-a-number, reflexive, and the
equalities take any two values. In every state of every evaluation in a session, functions are equal
only if they are one builtin or copies of one function that was made, and equal values are alike. -/
theorem strictEquals_by_origin (e : Engine) :
    (∀ v w : Value, v.strictEquals w = w.strictEquals v) ∧
    (∀ u v w : Value, u.strictEquals v = true → v.strictEquals w = true →
      u.strictEquals w = true) ∧
    (∀ v : Value, v.strictEquals v = true ↔ ∀ x, v = .number x → x.isNaN = false) ∧
    (∀ v w : Value, Operator.equal.apply v w = .ok (.boolean (v.strictEquals w)) ∧
      Operator.notEqual.apply v w = .ok (.boolean (!v.strictEquals w))) ∧
    ∀ before s st body, (start e).Takes before s → st.action.body? = some body →
      ∃ made, (start e).Makes (s.select st.target).current before made s ∧
        ∀ more m, Machine.Makes (Machine.start body [] .empty (s.addressed st).context) more m →
          m.ToldApart (made ++ more) := by
  refine ⟨Value.strictEquals_comm, ?_, ?_, ?_, ?_⟩
  · exact fun u v w => Value.strictEquals_trans
  · exact fun v => Value.strictEquals_self_iff
  · exact fun v w => ⟨rfl, rfl⟩
  · intro before s st body hbefore hbody
    have hnew : ((start e).slotAt (s.select st.target).current).context.Numbered [] := by
      rw [slotAt_start]
      exact Context.numbered_new _ _ _
    obtain ⟨made, hmakes, hslot⟩ := hbefore.makes (hasCurrent_start e) hnew
    rw [← addressed_eq_slotAt] at hslot
    exact ⟨made, hmakes, fun more m hm => ((hslot.start body).makes hm).toldApart⟩

/-- A function is compared with another one that the same form makes in a later step. -/
theorem strictEquals_by_origin_twice :
    let form := Expr.function "f" 0 (.literal .nil)
    let before : List Step := [⟨.current, .evaluate (.define "f" form)⟩]
    let body := Expr.binary .equal ⟨2, 1⟩ (.global "f" ⟨2, 2⟩) form
    let st : Step := ⟨.current, .evaluate body⟩
    ∃ s, (start (Engine.ofConfig {})).Takes before s ∧
      (∃ made, (start (Engine.ofConfig {})).Makes 0 before made s ∧
        ∀ more m, Machine.Makes (Machine.start body [] .empty (s.addressed st).context) more m →
          m.ToldApart (made ++ more)) ∧
      (s.run [st]).1.map Answer.reply = [.value (.boolean false)] := by
  intro form before body st
  refine ⟨_, .cons rfl (.nil _), ?_, rfl⟩
  obtain ⟨-, -, -, -, happly⟩ := strictEquals_by_origin (Engine.ofConfig {})
  exact happly before _ st body (.cons rfl (.nil _)) rfl

end Session
end TracedEval
