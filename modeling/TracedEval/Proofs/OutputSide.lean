import TracedEval.Proofs.Machine.Muted
import TracedEval.Proofs.Writing

/-!
# The output side is not observed

What a program computes does not depend on where its output goes. As long as no write fails,
evaluation in two contexts that differ only on the output side comes to the same, and what is
written is the same too, event by event: only the lines of reports differ, which have a format.

* `Machine.eval_muted` is this for evaluation and a single context: muting the context before or
  after makes no difference. It needs that no write fails *on the way*, and what is on the way is
  known from the machine;
* `Context.output_unobserved` compares two contexts, for direct evaluation and for programs.
-/

namespace TracedEval

open Machine (start Run Ends Reaches)

/-! ## Sequencing -/

section Sequencing

variable {ε ε' α β : Type}

/-- What comes after has to agree only for the value that the first outcome really has. -/
theorem Outcome.muted_bind {o : Outcome ε α} {next next' : α → Context → Outcome ε β}
    (hnext : ∀ value ctx, o = .ok value ctx → (next value ctx).muted = next' value ctx.muted) :
    (o.bind next).muted = o.muted.bind next' := by
  cases o with
  | ok value ctx => exact hnext value ctx rfl
  | error | underflow | exhausted => rfl

theorem Outcome.muted_handle {o : Outcome ε α} {handler handler' : ε → Context → Outcome ε' α}
    (hhandler : ∀ e ctx, o = .error e ctx → (handler e ctx).muted = handler' e ctx.muted) :
    (o.handle handler).muted = o.muted.handle handler' := by
  cases o with
  | error e ctx => exact hhandler e ctx rfl
  | ok | underflow | exhausted => rfl

theorem Outcome.muted_ofWorld (ctx : Context) (result : Except ε α × World) :
    (Outcome.ofWorld ctx result).muted = .ofWorld ctx.muted (result.1, result.2.muted) := by
  obtain ⟨result, w⟩ := result
  cases result <;> rfl

theorem Context.muted_leave (ctx : Context) (value : Value) :
    (ctx.leave value).muted = ctx.muted.leave value := by
  have hstack : ctx.muted.callStack = ctx.callStack := rfl
  unfold Context.leave
  rw [hstack]
  cases ctx.callStack.leave? <;> rfl

end Sequencing

namespace Machine

/-! ## Evaluation -/

/-- Running functions does not look at the output side. -/
def RunMutes (run : BodyRunner) : Prop :=
  ∀ f values k ctx, State.AllTaken ⟨.body f values, k, ctx⟩ →
    (run f values ctx).muted = run f values ctx.muted

section Eval

variable {run : BodyRunner} {k : List Layer} {ctx : Context}

/-- All is taken after a value as well. -/
theorem State.AllTaken.of_ok {α : Type} {s : State} {arrive : α → Context → State}
    {o : Outcome Failure α} (h : s.AllTaken) (hfollows : Follows s arrive k o) {value : α}
    (ho : o = .ok value ctx) : (arrive value ctx).AllTaken := by
  subst ho
  exact h.of_reaches hfollows

/-- So it is after a failure that is handled. -/
theorem State.AllTaken.of_error {α : Type} {s s' : State} {arrive : α → Context → State}
    {o : Outcome Failure α} (h : s.AllTaken) (hfollows : Follows s arrive k o)
    {failure : Failure} (ho : o = .error failure ctx) (hunwind : unwind failure ctx k = .next s') :
    s'.AllTaken := by
  subst ho
  obtain ⟨inner, hopen, hreach⟩ := hfollows
  have hstep : Steps ⟨.failure failure, inner ++ k, ctx⟩ s' := by
    show unwind failure ctx (inner ++ k) = .next s'
    rw [unwind_append hopen, hunwind]
  exact h.of_reaches (hreach.tail hstep)

theorem track_muted (hmutes : RunMutes run) {callee : Option Value} {name : String}
    {pos : Position} {values : List Value}
    (htaken : (ctx.output.writeLines (Event.allLines ctx.traceFormat
      ((ctx.resolve callee name pos values).events values))).2 = none)
    (hnext : (enter callee name pos values k ctx).AllTaken) :
    (ctx.track run callee name pos values).muted =
      ctx.muted.track run callee name pos values := by
  have hrun : ((ctx.resolve callee name pos values).run run (ctx.entered ⟨name, pos⟩) pos
      values).muted =
        (ctx.resolve callee name pos values).run run (ctx.entered ⟨name, pos⟩).muted pos
          values := by
    cases hres : ctx.resolve callee name pos values with
    | refused failure => rfl
    | builtin b =>
      rw [hres] at htaken
      have hbuiltin := Builtin.runOn_muted (w := ctx.world) htaken pos
      show (Outcome.ofWorld _ (b.runOn pos values ctx.world)).muted =
        .ofWorld _ (b.runOn pos values ctx.world.muted)
      rw [Outcome.muted_ofWorld, hbuiltin]
    | body f =>
      -- the body starts in the state after the call
      have henter : enter callee name pos values k ctx =
          ⟨.body f values, .invocation ⟨⟨name, pos⟩, ctx.callStack.size, true⟩ :: k,
            ctx.entered ⟨name, pos⟩⟩ := by
        show (⟨(follow pos values ctx.world (ctx.resolve callee name pos values)).1,
          .invocation ⟨_, _, runsBody (ctx.resolve callee name pos values)⟩ :: k,
          (follow pos values ctx.world (ctx.resolve callee name pos values)).2.on _⟩ : State) = _
        rw [hres]
        rfl
      exact hmutes f values _ _ (henter ▸ hnext)
  exact (Outcome.muted_bind fun value ctx _ => Context.muted_leave ctx value).trans
    (congrArg (fun o : Outcome Failure Value => o.bind fun value ctx => ctx.leave value) hrun)

theorem perform_muted (hmutes : RunMutes run) {t : Task} {site : Site} {values : List Value}
    (h : State.AllTaken ⟨.operands t values [] site, k, ctx⟩) :
    (t.perform run site.args site.scope values ctx).muted =
      t.perform run site.args site.scope values ctx.muted := by
  have htaken := h _ .refl
  have hnext : (perform site values k ctx t).AllTaken := h.of_reaches (.single rfl)
  cases t with
  | compute op =>
    have hrun := Operation.run_muted (w := ctx.world) htaken ctx.callStack.size site.args site.scope
    show (Outcome.ofWorld _ (op.run ctx.callStack.size site.args site.scope values
        ctx.world)).muted =
      .ofWorld _ (op.run ctx.callStack.size site.args site.scope values ctx.world.muted)
    rw [Outcome.muted_ofWorld, hrun]
  | call | apply => exact track_muted hmutes htaken hnext

theorem operands_muted (hfollows : RunFollows run) {t : Task} {site : Site}
    {operands : List Expr}
    (h : ∀ operand ∈ operands, ∀ (k : List Layer) (ctx : Context),
      State.AllTaken ⟨.eval operand site, k, ctx⟩ →
        (operand.eval run site.args site.scope ctx).muted =
          operand.eval run site.args site.scope ctx.muted)
    (done : List Value) (ctx : Context)
    (htaken : State.AllTaken ⟨.operands t done operands site, k, ctx⟩) :
    (Expr.evalAll run site.args site.scope ctx operands).muted =
      Expr.evalAll run site.args site.scope ctx.muted operands := by
  induction operands generalizing done ctx with
  | nil => rfl
  | cons first rest ih =>
    rw [List.forall_mem_cons] at h
    rw [Expr.evalAll, Expr.evalAll]
    have hfirst : State.AllTaken ⟨.eval first site, .operands t done rest site :: k, ctx⟩ :=
      htaken.of_reaches (.single rfl)
    rw [← h.1 _ ctx hfirst]
    refine Outcome.muted_bind fun value ctx' hvalue => ?_
    -- the others are evaluated after the value of the first has been put to those before
    have hrest : State.AllTaken ⟨.operands t (done ++ [value]) rest site, k, ctx'⟩ :=
      (hfirst.of_ok (eval_follows_of_run hfollows first site _ ctx) hvalue).of_reaches
        (.single rfl)
    rw [← ih h.2 _ ctx' hrest]
    exact Outcome.muted_bind fun values ctx'' _ => rfl

/-- Evaluation does not look at the output side, if this is so for the functions that it runs. -/
theorem eval_muted_of_run (hfollows : RunFollows run) (hmutes : RunMutes run) (e : Expr) :
    ∀ (site : Site) (k : List Layer) (ctx : Context), State.AllTaken ⟨.eval e site, k, ctx⟩ →
      (e.eval run site.args site.scope ctx).muted =
        e.eval run site.args site.scope ctx.muted := by
  induction e using Expr.shapeInduction with
  | task e t operands hs ih =>
    intro site k ctx h
    have hoperands : State.AllTaken ⟨.operands t [] operands site, k, ctx⟩ :=
      h.of_reaches (.single (steps_eval hs site k ctx))
    rw [Expr.eval_shape, Expr.eval_shape, hs, Shape.eval, Shape.eval,
      ← operands_muted hfollows (fun operand hmem => ih operand hmem site) [] ctx hoperands]
    refine Outcome.muted_bind fun values ctx' hvalues => ?_
    have hfollow : Follows ⟨.operands t [] operands site, k, ctx⟩ (arriveOperands t [] site k) k
        (Expr.evalAll run site.args site.scope ctx operands) :=
      operands_follows (fun operand _ => eval_follows_of_run hfollows operand site) t [] ctx
    exact perform_muted hmutes (hoperands.of_ok hfollow hvalues)
  | letIn e name bound body hs ihbound ihbody =>
    intro site k ctx h
    have hbound : State.AllTaken ⟨.eval bound site, .letIn name body site :: k, ctx⟩ :=
      h.of_reaches (.single (steps_eval hs site k ctx))
    rw [Expr.eval_shape, Expr.eval_shape, hs, Shape.eval, Shape.eval,
      ← ihbound site _ ctx hbound]
    refine Outcome.muted_bind fun value ctx' hvalue => ?_
    have hbody : State.AllTaken ⟨.eval body ⟨site.args, .bind name value site.scope⟩, k, ctx'⟩ :=
      (hbound.of_ok (eval_follows_of_run hfollows bound site _ ctx) hvalue).of_reaches
        (.single rfl)
    exact ihbody ⟨site.args, .bind name value site.scope⟩ k ctx' hbody
  | cond e guard branch otherwise hs ihguard ihbranch ihotherwise =>
    intro site k ctx h
    have hguard : State.AllTaken ⟨.eval guard site, .cond branch otherwise site :: k, ctx⟩ :=
      h.of_reaches (.single (steps_eval hs site k ctx))
    rw [Expr.eval_shape, Expr.eval_shape, hs, Shape.eval, Shape.eval,
      ← ihguard site _ ctx hguard]
    refine Outcome.muted_bind fun value ctx' hvalue => ?_
    have hchosen : State.AllTaken
        ⟨.eval (if value.isTruthy then branch else otherwise) site, k, ctx'⟩ :=
      (hguard.of_ok (eval_follows_of_run hfollows guard site _ ctx) hvalue).of_reaches
        (.single rfl)
    revert hchosen
    split
    · exact ihbranch site k ctx'
    · exact ihotherwise site k ctx'
  | attempt e body handler hs ihbody ihhandler =>
    intro site k ctx h
    have hbody : State.AllTaken ⟨.eval body site, .attempt handler site :: k, ctx⟩ :=
      h.of_reaches (.single (steps_eval hs site k ctx))
    rw [Expr.eval_shape, Expr.eval_shape, hs, Shape.eval, Shape.eval, ← ihbody site _ ctx hbody]
    refine Outcome.muted_handle fun failure ctx' hfailure => ?_
    have hhandler : State.AllTaken ⟨.eval handler site, k, ctx'⟩ :=
      hbody.of_error (eval_follows_of_run hfollows body site _ ctx) hfailure rfl
    exact ihhandler site k ctx' hhandler
  | execute e body handler hs ihbody ihhandler =>
    intro site k ctx h
    have hbody : State.AllTaken ⟨.eval body ⟨[], site.scope⟩, .program handler site :: k, ctx⟩ :=
      h.of_reaches (.single (steps_eval hs site k ctx))
    rw [Expr.eval_shape, Expr.eval_shape, hs, Shape.eval, Shape.eval, Context.settle_handle,
      Context.settle_handle, ← ihbody ⟨[], site.scope⟩ _ ctx hbody]
    -- a value only clears the call stack, which a failure does not get to see
    have hcleared : ∀ o : Outcome Failure Value,
        (o.bind fun value ctx => .ok value ctx.clearStack).muted =
          o.muted.bind fun value ctx => .ok value ctx.clearStack :=
      fun o => Outcome.muted_bind fun _ _ _ => rfl
    rw [← hcleared]
    refine Outcome.muted_handle fun failure ctx' hfailure => ?_
    have hraised : body.eval run [] site.scope ctx = .error failure ctx' := by
      cases ho : body.eval run [] site.scope ctx <;> rw [ho] at hfailure <;> cases hfailure
      rfl
    have hhandler : State.AllTaken ⟨.eval handler site, k, (ctx'.report failure).2⟩ :=
      hbody.of_error (eval_follows_of_run hfollows body ⟨[], site.scope⟩ _ ctx) hraised rfl
    show _ = handler.eval run site.args site.scope (ctx'.muted.report failure).2
    rw [Context.report_muted]
    exact ihhandler site k _ hhandler

theorem runBody_mutes (bound : Nat) : RunMutes (runBody bound) := by
  induction bound with
  | zero => exact fun f values k ctx _ => rfl
  | succ bound ih =>
    intro f values k ctx h
    have hbody : State.AllTaken ⟨.eval f.body ⟨values, f.scope⟩, k, ctx⟩ :=
      h.of_reaches (.single rfl)
    exact eval_muted_of_run (runBody_follows bound) ih f.body ⟨values, f.scope⟩ k ctx hbody

/-- As long as no write fails, evaluation does not look at the output side. -/
theorem eval_muted (bound : Nat) {e : Expr} {args : List Value} {scope : Scope} {ctx : Context}
    (h : (start e args scope ctx).AllTaken) :
    (e.eval (runBody bound) args scope ctx).muted =
      e.eval (runBody bound) args scope ctx.muted :=
  eval_muted_of_run (runBody_follows bound) (runBody_mutes bound) e ⟨args, scope⟩ [] ctx h

end Eval
end Machine

/-! ## Two contexts -/

theorem Outcome.reports_muted (o : Outcome Failure Value) : o.muted.reports = o.reports := by
  cases o <;> rfl

theorem Outcome.context?_muted {ε α : Type} (o : Outcome ε α) :
    o.muted.context? = o.context?.map Context.muted := by
  cases o <;> rfl

namespace Context

theorem settle_muted {o : Outcome Failure Value}
    (h : ∀ failure raised, o = .error failure raised →
      (raised.output.writeLines (raised.reportLines failure)).2 = none) :
    (settle o).muted = settle o.muted := by
  cases o with
  | ok | underflow | exhausted => rfl
  | error failure raised =>
    have hlines : raised.output.writeLines (raised.reportLines failure) =
        ((raised.output.writeLines (raised.reportLines failure)).1, none) :=
      Prod.ext rfl (h failure raised rfl)
    have hmuted : raised.muted.output.writeLines (raised.muted.reportLines failure) =
        (.muted, none) := Output.muted_writeLines _
    rw [settle_of_written hlines, Outcome.muted, Outcome.muted, settle_of_written hmuted]
    rfl

variable {body : Expr} {ctx ctx₁ ctx₂ : Context}

theorem evaluate_muted (h : ctx.EvaluationTaken body) :
    (ctx.evaluate body).muted = ctx.muted.evaluate body :=
  Machine.eval_muted ctx.nestingBound h

theorem execute_muted (h : ctx.ExecutionTaken body) :
    (ctx.execute body).muted = ctx.muted.execute body := by
  rw [execute, settle_muted h.report, evaluate_muted h.evaluation]
  rfl

/-- Whatever is on the way of the evaluation in one context is on its way in the other, after the
same events, and the lines of these are on either channel. -/
def SameRuns (body : Expr) (ctx₁ ctx₂ : Context) : Prop :=
  ∀ events s₁, Run (start body [] .empty ctx₁) events s₁ →
    ∃ s₂, Run (start body [] .empty ctx₂) events s₂ ∧ s₁.muted = s₂.muted ∧
      s₁.step.muted = s₂.step.muted ∧
      ctx₁.output.Takes ctx₁.traceFormat events s₁.context.output ∧
      ctx₂.output.Takes ctx₂.traceFormat events s₂.context.output

theorem sameRuns (h₁ : ctx₁.EvaluationTaken body) (h₂ : ctx₂.EvaluationTaken body)
    (hmuted : ctx₁.muted = ctx₂.muted) : SameRuns body ctx₁ ctx₂ := by
  intro events s₁ hrun₁
  have hstart : (start body [] .empty ctx₁).muted = (start body [] .empty ctx₂).muted := by
    unfold Machine.State.muted
    rw [start, start, hmuted]
  obtain ⟨s₂, hrun₂, hsame, hstep⟩ := hrun₁.of_muted_eq h₁ h₂ hstart
  exact ⟨s₂, hrun₂, hsame, hstep, hrun₁.takes h₁, hrun₂.takes h₂⟩

theorem evaluationWrites_of_sameRuns (hruns : SameRuns body ctx₁ ctx₂)
    (houtcome : (ctx₁.evaluate body).muted = (ctx₂.evaluate body).muted) {events : List Event}
    (h : ctx₁.EvaluationWrites body events) : ctx₂.EvaluationWrites body events := by
  obtain ⟨final₁, hrun₁, hhalted₁, hfinal₁⟩ := h
  obtain ⟨s₂, hrun₂, -, hstep, -⟩ := hruns events final₁ hrun₁
  -- the other run has halted as well, and with the outcome of the other evaluation
  have hhalted₂ : s₂.step = .halted := by
    rw [hhalted₁] at hstep
    cases hs : s₂.step with
    | halted => rfl
    | next | underflow =>
      rw [hs] at hstep
      cases hstep
  have hcontext : (ctx₂.evaluate body).context?.map Context.muted =
      some final₁.context.muted := by
    rw [← Outcome.context?_muted, ← houtcome, Outcome.context?_muted,
      Machine.context?_of_outcome? hfinal₁]
    rfl
  obtain ⟨after, hafter, -⟩ := Option.map_eq_some_iff.mp hcontext
  obtain ⟨_, final₂, hreach₂, hended₂, hfinal₂⟩ := Machine.ends_of_context? hafter
  obtain rfl := hrun₂.reaches.eq_of_halted hreach₂.reaches hhalted₂ hended₂
  exact ⟨s₂, hrun₂, hhalted₂, hfinal₂⟩

/-- In two contexts something comes to the same, apart from the output side, and writes the same
events, of which either channel shows the lines. -/
structure Agree {ε α : Type} (ctx₁ ctx₂ : Context) (writes₁ writes₂ : List Event → Prop)
    (o₁ o₂ : Outcome ε α) : Prop where
  outcome : o₁.muted = o₂.muted
  events : ∀ events, writes₁ events ↔ writes₂ events
  shows₁ : ctx₁.Shows writes₁ o₁
  shows₂ : ctx₂.Shows writes₂ o₂

theorem agree_evaluation (h₁ : ctx₁.EvaluationTaken body) (h₂ : ctx₂.EvaluationTaken body)
    (hmuted : ctx₁.muted = ctx₂.muted) :
    Agree ctx₁ ctx₂ (ctx₁.EvaluationWrites body) (ctx₂.EvaluationWrites body)
      (ctx₁.evaluate body) (ctx₂.evaluate body) := by
  have houtcome : (ctx₁.evaluate body).muted = (ctx₂.evaluate body).muted := by
    rw [evaluate_muted h₁, evaluate_muted h₂, hmuted]
  exact ⟨houtcome,
    fun events => ⟨evaluationWrites_of_sameRuns (sameRuns h₁ h₂ hmuted) houtcome,
      evaluationWrites_of_sameRuns (sameRuns h₂ h₁ hmuted.symm) houtcome.symm⟩,
    shows_evaluation h₁, shows_evaluation h₂⟩

theorem agree_execution (h₁ : ctx₁.ExecutionTaken body) (h₂ : ctx₂.ExecutionTaken body)
    (hmuted : ctx₁.muted = ctx₂.muted) :
    Agree ctx₁ ctx₂ (ctx₁.ExecutionWrites body) (ctx₂.ExecutionWrites body)
      (ctx₁.execute body) (ctx₂.execute body) := by
  have hbody := agree_evaluation h₁.evaluation h₂.evaluation hmuted
  have hreports : (ctx₁.evaluate body).reports = (ctx₂.evaluate body).reports := by
    rw [← Outcome.reports_muted, hbody.outcome, Outcome.reports_muted]
  refine ⟨?_, fun events => ?_, shows_execution h₁, shows_execution h₂⟩
  · rw [execute_muted h₁, execute_muted h₂, hmuted]
  · -- the bodies write the same, and so do the reports
    unfold ExecutionWrites
    rw [hreports]
    exact exists_congr fun before => and_congr_left' (hbody.events before)

/-- Two contexts with the same call stack, the same bindings and the same depth limit, whatever
their channels and formats: as long as no write fails, a program has the same result in both, leaves
the same call stack and the same bindings, and writes the same events, of which only the lines of
reports differ with the format. The same goes for direct evaluation, and also for one that does not
end, up to every point that it gets to. That the same identity is next only gives new functions the
same name in both. -/
theorem output_unobserved (body : Expr) {ctx₁ ctx₂ : Context}
    (hstack : ctx₁.callStack = ctx₂.callStack) (henv : ctx₁.environment = ctx₂.environment)
    (hlimit : ctx₁.maxDepth = ctx₂.maxDepth) (hmade : ctx₁.nextIdentity = ctx₂.nextIdentity) :
    (ctx₁.ExecutionTaken body → ctx₂.ExecutionTaken body →
      Agree ctx₁ ctx₂ (ctx₁.ExecutionWrites body) (ctx₂.ExecutionWrites body)
        (ctx₁.execute body) (ctx₂.execute body)) ∧
    (ctx₁.EvaluationTaken body → ctx₂.EvaluationTaken body →
      Agree ctx₁ ctx₂ (ctx₁.EvaluationWrites body) (ctx₂.EvaluationWrites body)
        (ctx₁.evaluate body) (ctx₂.evaluate body) ∧
      SameRuns body ctx₁ ctx₂ ∧ SameRuns body ctx₂ ctx₁) := by
  have hmuted : ctx₁.muted = ctx₂.muted := by
    unfold muted
    rw [hstack, henv, hlimit, hmade]
  exact ⟨fun h₁ h₂ => agree_execution h₁ h₂ hmuted, fun h₁ h₂ =>
    ⟨agree_evaluation h₁ h₂ hmuted, sameRuns h₁ h₂ hmuted, sameRuns h₂ h₁ hmuted.symm⟩⟩

/-- A line, the report of a program that runs inside, and the report of the program itself: captured
as text in one context, and echoed as JSON in the other. -/
theorem output_unobserved_formats :
    let body := Expr.seq
      [.builtin .print ⟨1, 1⟩ [.literal (.string "a")],
        .execute (.raise ⟨2, 1⟩ "inner") (.literal .nil), .call "missing" ⟨3, 1⟩ []]
    let ctx₁ := Context.new 5 .text (.new none true)
    let ctx₂ := Context.new 5 .json (.new (some .unlimited) false)
    let inner := Report.ofFailure ⟨⟨2, 1⟩, .raised "inner"⟩ []
    let outer := Report.ofFailure ⟨⟨3, 1⟩, .undefinedName "missing"⟩ [⟨"missing", ⟨3, 1⟩⟩]
    Agree ctx₁ ctx₂ (ctx₁.ExecutionWrites body) (ctx₂.ExecutionWrites body)
        (ctx₁.execute body) (ctx₂.execute body) ∧
      SameRuns body ctx₁ ctx₂ ∧
      ∃ failure after₁ after₂, ctx₁.execute body = .error (.uncaught failure) after₁ ∧
        ctx₂.execute body = .error (.uncaught failure) after₂ ∧
        after₁.output.lines = ["a"] ++ inner.textLines ++ outer.textLines ∧
        after₂.output.lines = [] := by
  intro body ctx₁ ctx₂ inner outer
  have hopen₁ : ctx₁.output.Open := fun sink hsink => by cases hsink
  have hopen₂ : ctx₂.output.Open := by
    intro sink hsink
    cases hsink
    exact ⟨rfl, rfl⟩
  have hstack : ctx₁.callStack = ctx₂.callStack := rfl
  obtain ⟨hexecution, hevaluation⟩ := output_unobserved body hstack rfl rfl rfl
  refine ⟨hexecution (.of_open hopen₁ body) (.of_open hopen₂ body), ?_, ?_⟩
  · exact (hevaluation (.of_open hopen₁) (.of_open hopen₂)).2.1
  · exact ⟨_, _, _, rfl, rfl, rfl, rfl⟩

end Context
end TracedEval
