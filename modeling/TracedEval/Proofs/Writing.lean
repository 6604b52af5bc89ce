import TracedEval.Proofs.Machine.Adequacy
import TracedEval.Proofs.Machine.Events

/-!
# What evaluations and programs write

The events of a run of the machine are what an evaluation writes, if it ends. A program writes the
events of its body, and then the report of its failure, if it fails.

* `Context.EvaluationWrites` and `Context.ExecutionWrites` say which events these are;
* `Context.shows_evaluation` and `Context.shows_execution`: if no write fails, then the channel has
  exactly their lines more than before.
-/

namespace TracedEval

open Machine (start Run Ends Reaches)

/-- The context that an outcome leaves, if it leaves one. -/
def Outcome.context? {ε α : Type} : Outcome ε α → Option Context
  | ok _ ctx => some ctx
  | error _ ctx => some ctx
  | underflow | exhausted => none

/-- What is reported of an outcome. -/
def Outcome.reports : Outcome Failure Value → List Event
  | .error failure ctx => [ctx.reportEvent failure]
  | _ => []

namespace Machine

variable {e : Expr} {args : List Value} {scope : Scope} {ctx after : Context} {bound : Nat}
  {s final other : State} {events : List Event} {o : Outcome Failure Value}

theorem context?_of_outcome? (h : s.outcome? = some o) : o.context? = some s.context := by
  rcases eq_of_outcome? h with ⟨v, -, rfl⟩ | ⟨f, -, rfl⟩ <;> rfl

/-- An evaluation that ends in a value or a failure is a run that ends with it. -/
theorem ends_of_meets {P : Value → Context → Prop} {Q : Failure → Context → Prop}
    (h : (e.eval (runBody bound) args scope ctx).Meets P Q False) :
    ∃ events, Ends (start e args scope ctx) events (e.eval (runBody bound) args scope ctx) := by
  obtain ⟨final, hreach, hhalted, houtcome⟩ := halts_of_meets h
  obtain ⟨events, hrun⟩ := hreach.run
  exact ⟨events, final, hrun, hhalted, houtcome⟩

/-- So is one that leaves a context. -/
theorem ends_of_context? (h : (e.eval (runBody bound) args scope ctx).context? = some after) :
    ∃ events, Ends (start e args scope ctx) events (e.eval (runBody bound) args scope ctx) := by
  have hmeets : (e.eval (runBody bound) args scope ctx).Meets (fun _ _ => True)
      (fun _ _ => True) False := by
    revert h
    cases e.eval (runBody bound) args scope ctx with
    | ok | error => exact fun _ => trivial
    | underflow | exhausted => exact fun h => by cases h
  exact ends_of_meets hmeets

/-- There is only one state to halt in. -/
theorem Reaches.eq_of_halted (h : Reaches s final) (h' : Reaches s other)
    (hhalted : final.step = .halted) (hhalted' : other.step = .halted) : final = other := by
  rcases (h.of_halted h' hhalted').cases_head with heq | ⟨next, hnext, -⟩
  · exact heq
  · rw [Steps, hhalted] at hnext
    cases hnext

/-- What a run that ends has written is on the channel. -/
theorem Ends.takes (h : Ends s events o) (htaken : s.AllTaken) (hafter : o.context? = some after) :
    s.context.output.Takes s.context.traceFormat events after.output := by
  obtain ⟨final, hrun, -, houtcome⟩ := h
  rw [context?_of_outcome? houtcome, Option.some.injEq] at hafter
  subst hafter
  exact hrun.takes htaken

end Machine

namespace Context

/-- Evaluating a body directly writes these events. -/
def EvaluationWrites (ctx : Context) (body : Expr) (events : List Event) : Prop :=
  Ends (start body [] .empty ctx) events (ctx.evaluate body)

/-- Running a program writes these events: those of its body, and then the report of its failure, if
it fails. -/
def ExecutionWrites (ctx : Context) (body : Expr) (events : List Event) : Prop :=
  ∃ before, ctx.EvaluationWrites body before ∧ events = before ++ (ctx.evaluate body).reports

/-- No write fails while a body is evaluated. -/
def EvaluationTaken (ctx : Context) (body : Expr) : Prop := (start body [] .empty ctx).AllTaken

/-- No write fails while a program runs, and none while its failure is reported. -/
structure ExecutionTaken (ctx : Context) (body : Expr) : Prop where
  evaluation : ctx.EvaluationTaken body
  report : ∀ failure raised, ctx.evaluate body = .error failure raised →
    (raised.output.writeLines (raised.reportLines failure)).2 = none

/-- On a channel without a limit no write fails. -/
theorem ExecutionTaken.of_open {ctx : Context} (h : ctx.output.Open) (body : Expr) :
    ctx.ExecutionTaken body where
  evaluation := .of_open h
  report := by
    intro failure raised hraised
    obtain ⟨final, hreach, -, -, rfl⟩ := Machine.halts_of_error hraised
    exact ((hreach.output_open h).writeLines _).1

/-- If there is a context after an outcome, then its channel is the one from before with the lines
of some events written on it, which are the events of what has come to the outcome. -/
def Shows {ε α : Type} (ctx : Context) (writes : List Event → Prop) (o : Outcome ε α) : Prop :=
  ∀ after, o.context? = some after →
    ∃ events, writes events ∧ ctx.output.Takes ctx.traceFormat events after.output

variable {ctx : Context} {body : Expr}

theorem shows_evaluation (htaken : ctx.EvaluationTaken body) :
    ctx.Shows (ctx.EvaluationWrites body) (ctx.evaluate body) := by
  intro after hafter
  obtain ⟨events, hends⟩ := Machine.ends_of_context? hafter
  exact ⟨events, hends, hends.takes htaken hafter⟩

theorem shows_execution (htaken : ctx.ExecutionTaken body) :
    ctx.Shows (ctx.ExecutionWrites body) (ctx.execute body) := by
  intro after hafter
  cases ho : ctx.evaluate body with
  | ok value raised =>
    have hcontext : (ctx.evaluate body).context? = some raised := by rw [ho]; rfl
    obtain ⟨events, hends, htakes⟩ := shows_evaluation htaken.evaluation raised hcontext
    rw [execute, ho] at hafter
    cases hafter
    refine ⟨events, ⟨events, hends, ?_⟩, htakes⟩
    rw [ho]
    exact (List.append_nil _).symm
  | error failure raised =>
    have hcontext : (ctx.evaluate body).context? = some raised := by rw [ho]; rfl
    obtain ⟨events, hends, htakes⟩ := shows_evaluation htaken.evaluation raised hcontext
    refine ⟨events ++ [raised.reportEvent failure], ⟨events, hends, ?_⟩, htakes.append ?_⟩
    · rw [ho]
      rfl
    · -- the report is written on the channel that the body has left
      have hformat : raised.traceFormat = ctx.traceFormat := by
        obtain ⟨final, hrun, -, houtcome⟩ := hends
        have hfinal := Machine.context?_of_outcome? houtcome
        rw [hcontext, Option.some.injEq] at hfinal
        rw [hfinal]
        exact hrun.traceFormat
      have hlines : raised.output.writeLines (raised.reportLines failure) =
          ((raised.output.writeLines (raised.reportLines failure)).1, none) :=
        Prod.ext rfl (htaken.report failure raised ho)
      rw [execute, ho, settle_of_written hlines] at hafter
      cases hafter
      unfold Output.Takes
      rw [← hformat, allLines_reportEvent]
      exact hlines
  | underflow | exhausted =>
    rw [execute, ho] at hafter
    cases hafter

end Context
end TracedEval
