import TracedEval.Proofs.Machine.Events

/-!
# Runs without the output side

A context is muted by taking its output side away: the channel, which then neither echoes nor
captures, and the format of reports. The machine does not look at either, as long as no write
fails, so that a run and its muted counterpart go side by side:

* `State.step_muted`: muting a state and then taking a step is the same as the other way around;
* `Run.muted` and `Run.of_muted` carry this over to runs, in both directions and with the same
  events.

Two states with the same muted state thus have the same runs.
-/

namespace TracedEval

/-- The channel that neither echoes nor captures. -/
def Output.muted : Output := .new none false

theorem Output.muted_writeLines (lines : List String) :
    Output.muted.writeLines lines = (Output.muted, none) := by
  induction lines with
  | nil => rfl
  | cons line rest ih => exact ih

/-- The context without its output side. -/
def Context.muted (ctx : Context) : Context :=
  { ctx with output := .muted, traceFormat := .text }

def World.muted (w : World) : World := w.withOutput .muted

/-- The outcome without the output side of its context. -/
def Outcome.muted {ε α : Type} : Outcome ε α → Outcome ε α
  | ok value ctx => ok value ctx.muted
  | error e ctx => error e ctx.muted
  | underflow => underflow
  | exhausted => exhausted

/-! ## Single operations -/

/-- A builtin of which the line is taken has the same result without a channel. -/
theorem Builtin.runOn_muted {b : Builtin} {values : List Value} {w : World} {format : TraceFormat}
    (h : (w.output.writeLines (Event.allLines format (b.events values))).2 = none)
    (pos : Position) :
    b.runOn pos values w.muted =
      ((b.runOn pos values w).1, (b.runOn pos values w).2.muted) := by
  by_cases hb : b = .print
  · subst hb
    have hprinted : ∀ out : Output,
        (out.writeLines (Event.allLines format (Builtin.print.events values))).2 = none →
          (Builtin.print.call values out).1 = .ok .nil := by
      intro out hout
      have hline : out.writeLines [printedLine values] =
          ((out.writeLines [printedLine values]).1, none) := Prod.ext rfl hout
      rw [StackFree.writeLines_printed hline]
    have hmuted := hprinted .muted (by rw [Output.muted_writeLines])
    refine Prod.ext ?_ rfl
    show pos.blame (Builtin.print.call values .muted).1 =
      pos.blame (Builtin.print.call values w.output).1
    rw [hmuted, hprinted w.output h]
  · -- the other builtins do not look at the channel
    have hcall := StackFree.call_eq_of_ne_print hb values .muted w.output
    show (pos.blame (b.call values .muted).1, w.withOutput (b.call values .muted).2) = _
    rw [hcall]
    rfl

theorem Operation.run_muted {op : Operation} {values : List Value} {w : World}
    {format : TraceFormat}
    (h : (w.output.writeLines (Event.allLines format (op.events values))).2 = none) (depth : Nat)
    (args : List Value) (scope : Scope) :
    op.run depth args scope values w.muted =
      ((op.run depth args scope values w).1, (op.run depth args scope values w).2.muted) := by
  cases op with
  | builtin b pos => exact Builtin.runOn_muted h pos
  | _ => rfl

/-- Whatever is on the channel, a report leaves the same behind. -/
theorem Context.report_muted (ctx : Context) (failure : Failure) :
    (ctx.muted.report failure).2 = (ctx.report failure).2.muted := by
  rw [Context.report_eq, Context.report_eq]
  simp only [Context.muted, Output.muted_writeLines]

namespace Machine

def State.muted (s : State) : State := { s with context := s.context.muted }

def Progress.muted : Progress → Progress
  | next s => next s.muted
  | halted => halted
  | underflow => underflow

/-! ## Steps -/

section Step

variable {k : List Layer} {ctx : Context}

theorem muted_perform {t : Task} {done : List Value} (site : Site)
    (h : (ctx.output.writeLines (Event.allLines ctx.traceFormat (t.events done ctx))).2 = none) :
    perform site done k ctx.muted t = (perform site done k ctx t).muted := by
  -- the start of a call sees no more of the channel than what it calls does
  have henter : ∀ (callee : Option Value) (name : String) (pos : Position) (values : List Value),
      (ctx.output.writeLines (Event.allLines ctx.traceFormat
        ((ctx.resolve callee name pos values).events values))).2 = none →
      enter callee name pos values k ctx.muted = (enter callee name pos values k ctx).muted := by
    intro callee name pos values htaken
    have hfollow : follow pos values ctx.world.muted (ctx.resolve callee name pos values) =
        ((follow pos values ctx.world (ctx.resolve callee name pos values)).1,
          (follow pos values ctx.world (ctx.resolve callee name pos values)).2.muted) := by
      cases hres : ctx.resolve callee name pos values with
      | refused | body => rfl
      | builtin b =>
        rw [hres] at htaken
        have hrun := Builtin.runOn_muted (w := ctx.world) htaken pos
        simp only [follow, hrun]
    show (⟨(follow pos values ctx.world.muted (ctx.resolve callee name pos values)).1, _,
      (follow pos values ctx.world.muted (ctx.resolve callee name pos values)).2.on
        (ctx.muted.entered ⟨name, pos⟩)⟩ : State) = _
    rw [hfollow]
    rfl
  cases t with
  | compute op =>
    have hrun := Operation.run_muted (w := ctx.world) h ctx.callStack.size site.args site.scope
    show (⟨.ofResult (op.run ctx.callStack.size site.args site.scope done ctx.world.muted).1, k,
      (op.run ctx.callStack.size site.args site.scope done ctx.world.muted).2.on ctx.muted⟩ :
        State) = _
    rw [hrun]
    rfl
  | call | apply => exact henter _ _ _ _ h

theorem muted_resume (v : Value) (layer : Layer) :
    layer.resume v k ctx.muted = (layer.resume v k ctx).muted := by
  cases layer with
  | operands | letIn | cond | attempt | program => rfl
  | invocation inv =>
    have hstack : ctx.muted.callStack = ctx.callStack := rfl
    unfold Layer.resume
    rw [hstack]
    cases ctx.callStack.leave? <;> rfl

theorem muted_unwind (failure : Failure) (layers : List Layer) :
    unwind failure ctx.muted layers = (unwind failure ctx layers).muted := by
  induction layers with
  | nil => rfl
  | cons layer k ih =>
    cases layer with
    | attempt => rfl
    | program handler site =>
      show Progress.next ⟨_, k, (ctx.muted.report failure).2⟩ = _
      rw [Context.report_muted]
      rfl
    | operands | letIn | cond | invocation => exact ih

/-- Muting commutes with a step that writes nothing that is refused. -/
theorem State.step_muted {s : State} (h : s.Taken) : s.muted.step = s.step.muted := by
  obtain ⟨focus, layers, ctx⟩ := s
  cases focus with
  | eval e site =>
    show Progress.next (begin site layers ctx.muted e.shape) =
      .next (begin site layers ctx e.shape).muted
    unfold begin
    split <;> rfl
  | operands t done rest site =>
    cases rest with
    | nil => exact congrArg Progress.next (muted_perform site h)
    | cons => rfl
  | body => rfl
  | value v =>
    cases layers with
    | nil => rfl
    | cons layer k => exact muted_resume v layer
  | failure f => exact muted_unwind f layers

theorem unwindEvents_muted (failure : Failure) (layers : List Layer) :
    unwindEvents failure ctx.muted layers = unwindEvents failure ctx layers := by
  induction layers with
  | nil => rfl
  | cons layer k ih =>
    cases layer with
    | attempt | program => rfl
    | operands | letIn | cond | invocation => exact ih

/-- The channel has no say in what is written. -/
theorem State.emits_muted (s : State) : s.muted.emits = s.emits := by
  obtain ⟨focus, layers, ctx⟩ := s
  cases focus with
  | operands t done rest site =>
    cases rest with
    | nil => cases t <;> rfl
    | cons => rfl
  | failure f => exact unwindEvents_muted f layers
  | eval | body | value => rfl

theorem Steps.muted {s s' : State} (h : Steps s s') (htaken : s.Taken) :
    Steps s.muted s'.muted := by
  rw [Steps, State.step_muted htaken, h]
  rfl

/-- A step of the muted state is one of the state itself. -/
theorem Steps.of_muted {s m : State} (h : Steps s.muted m) (htaken : s.Taken) :
    ∃ s', Steps s s' ∧ s'.muted = m := by
  rw [Steps, State.step_muted htaken] at h
  cases hstep : s.step with
  | next s' =>
    rw [hstep] at h
    cases h
    exact ⟨s', hstep, rfl⟩
  | halted | underflow =>
    rw [hstep] at h
    cases h

end Step

/-! ## Runs -/

section Run

variable {s a m : State} {events : List Event}

theorem Run.muted (h : Run s events a) (htaken : s.AllTaken) : Run s.muted events a.muted := by
  induction h with
  | refl => exact .refl
  | tail hrun hstep ih =>
    rename_i events a b
    have hnext := ih.tail (hstep.muted (htaken a hrun.reaches))
    rwa [State.emits_muted] at hnext

theorem Run.of_muted (h : Run s.muted events m) (htaken : s.AllTaken) :
    ∃ a, Run s events a ∧ a.muted = m := by
  induction h with
  | refl => exact ⟨s, .refl, rfl⟩
  | tail _ hstep ih =>
    obtain ⟨a, hrun, rfl⟩ := ih
    obtain ⟨b, hnext, rfl⟩ := hstep.of_muted (htaken a hrun.reaches)
    refine ⟨b, ?_, rfl⟩
    rw [State.emits_muted]
    exact hrun.tail hnext

/-- States that differ only on the output side have the same runs, and go on in the same way. -/
theorem Run.of_muted_eq {s₁ s₂ a₁ : State} (h : Run s₁ events a₁) (h₁ : s₁.AllTaken)
    (h₂ : s₂.AllTaken) (hmuted : s₁.muted = s₂.muted) :
    ∃ a₂, Run s₂ events a₂ ∧ a₁.muted = a₂.muted ∧ a₁.step.muted = a₂.step.muted := by
  have hrun := h.muted h₁
  rw [hmuted] at hrun
  obtain ⟨a₂, hrun₂, heq⟩ := hrun.of_muted h₂
  refine ⟨a₂, hrun₂, heq.symm, ?_⟩
  rw [← State.step_muted (h₁ a₁ h.reaches), ← State.step_muted (h₂ a₂ hrun₂.reaches), heq]

end Run
end Machine
end TracedEval
