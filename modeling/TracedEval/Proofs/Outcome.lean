import TracedEval.Eval

/-!
# Reasoning about outcomes

Evaluation is put together with `Outcome.bind` and `Outcome.handle`. This file has the rules by
which a postcondition is carried through the two.

`Outcome.Meets` says what holds of an outcome: of the value or the error that something ended in,
and, as a proposition of its own, whether it may have stopped short of either.
-/

namespace TracedEval
namespace Outcome

variable {ε ε' α β γ : Type}

/-! ## Sequencing -/

theorem bind_assoc (o : Outcome ε α) (f : α → Context → Outcome ε β)
    (g : β → Context → Outcome ε γ) :
    (o.bind f).bind g = o.bind fun a ctx => (f a ctx).bind g := by
  cases o <;> rfl

/-! ## Postconditions -/

/-- What an outcome satisfies: one thing if it is a value, another if it is an error, and a third
if it is neither. -/
def Meets (o : Outcome ε α) (onOk : α → Context → Prop) (onError : ε → Context → Prop)
    (onStop : Prop) : Prop :=
  match o with
  | ok value ctx => onOk value ctx
  | error e ctx => onError e ctx
  | underflow => onStop
  | exhausted => onStop

variable {P : α → Context → Prop} {Q : ε → Context → Prop} {S : Prop}

theorem Meets.bind {R : β → Context → Prop} {o : Outcome ε α}
    {next : α → Context → Outcome ε β} (h : o.Meets P Q S)
    (hnext : ∀ value ctx, P value ctx → (next value ctx).Meets R Q S) :
    (o.bind next).Meets R Q S := by
  cases o with
  | ok value ctx => exact hnext value ctx h
  | error | underflow | exhausted => exact h

theorem Meets.handle {Q' : ε' → Context → Prop} {o : Outcome ε α}
    {handler : ε → Context → Outcome ε' α} (h : o.Meets P Q S)
    (hhandler : ∀ e ctx, Q e ctx → (handler e ctx).Meets P Q' S) :
    (o.handle handler).Meets P Q' S := by
  cases o with
  | error e ctx => exact hhandler e ctx h
  | ok | underflow | exhausted => exact h

theorem Meets.mono {P' : α → Context → Prop} {Q' : ε → Context → Prop} {S' : Prop}
    {o : Outcome ε α} (h : o.Meets P Q S) (hP : ∀ value ctx, P value ctx → P' value ctx)
    (hQ : ∀ e ctx, Q e ctx → Q' e ctx) (hS : S → S') : o.Meets P' Q' S' := by
  cases o with
  | ok value ctx => exact hP value ctx h
  | error e ctx => exact hQ e ctx h
  | underflow | exhausted => exact hS h

theorem Meets.and {P' : α → Context → Prop} {Q' : ε → Context → Prop} {S' : Prop}
    {o : Outcome ε α} (h : o.Meets P Q S) (h' : o.Meets P' Q' S') :
    o.Meets (fun value ctx => P value ctx ∧ P' value ctx) (fun e ctx => Q e ctx ∧ Q' e ctx)
      (S ∧ S') := by
  cases o <;> exact ⟨h, h'⟩

/-- `Meets.bind`, with something else that is known of the first outcome. -/
theorem Meets.bindWith {P' : α → Context → Prop} {Q' : ε → Context → Prop} {S' : Prop}
    {R : β → Context → Prop} {o : Outcome ε α} {next : α → Context → Outcome ε β}
    (h : o.Meets P Q S) (hside : o.Meets P' Q' S')
    (hnext : ∀ value ctx, P value ctx → P' value ctx → (next value ctx).Meets R Q S) :
    (o.bind next).Meets R Q S := by
  have hboth := (h.and hside).mono (fun _ _ hok => hok) (fun _ _ herror => herror.1)
    fun hstop => hstop.1
  exact hboth.bind fun value ctx hok => hnext value ctx hok.1 hok.2

/-- `Meets.handle`, with something else that is known of the first outcome. -/
theorem Meets.handleWith {P' : α → Context → Prop} {Q' : ε → Context → Prop} {S' : Prop}
    {R : ε' → Context → Prop} {o : Outcome ε α} {handler : ε → Context → Outcome ε' α}
    (h : o.Meets P Q S) (hside : o.Meets P' Q' S')
    (hhandler : ∀ e ctx, Q e ctx → Q' e ctx → (handler e ctx).Meets P R S) :
    (o.handle handler).Meets P R S := by
  have hboth := (h.and hside).mono (fun _ _ hok => hok.1) (fun _ _ herror => herror)
    fun hstop => hstop.1
  exact hboth.handle fun e ctx herror => hhandler e ctx herror.1 herror.2

/-- An outcome that cannot stop short is a value or an error. -/
theorem Meets.ok_or_error {o : Outcome ε α} (h : o.Meets P Q False) :
    (∃ value ctx, o = .ok value ctx ∧ P value ctx) ∨ ∃ e ctx, o = .error e ctx ∧ Q e ctx := by
  cases o with
  | ok value ctx => exact .inl ⟨value, ctx, rfl, h⟩
  | error e ctx => exact .inr ⟨e, ctx, rfl, h⟩
  | underflow | exhausted => exact absurd h id

theorem Meets.ne_exhausted {o : Outcome ε α} (h : o.Meets P Q False) : o ≠ .exhausted := by
  rintro rfl
  exact h

end Outcome
end TracedEval
