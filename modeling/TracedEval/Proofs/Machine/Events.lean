import TracedEval.Proofs.Machine.Effect
import TracedEval.Proofs.Printing

/-!
# What a run writes

On the channel everything is a line. An `Event` says what a line is: it was printed, or it is part
of the report of a failure. What a step writes can be read off the state that it starts from, and
does not depend on the channel.

* `State.emits` are the events of the next step, and `Run` is `Reaches` with the events of all steps
  on the way;
* `Steps.written`: a step writes the lines of its events in the context's format, and nothing else;
* `State.AllTaken` is that no write fails from a state on, and `Run.takes` says what is on the
  channel then.
-/

namespace TracedEval

/-! ## Events -/

/-- Something that a program has written. -/
inductive Event
  | printed (line : String)
  | reported (report : Report)
  deriving DecidableEq, Repr

/-- The lines of an event, of which only those of a report depend on the format. -/
def Event.lines (format : TraceFormat) : Event → List String
  | printed line => [line]
  | reported report => report.lines format

/-- The lines of events in their order. -/
def Event.allLines (format : TraceFormat) (events : List Event) : List String :=
  events.flatMap (Event.lines format)

@[simp] theorem Event.allLines_append (format : TraceFormat) (xs ys : List Event) :
    Event.allLines format (xs ++ ys) = Event.allLines format xs ++ Event.allLines format ys :=
  List.flatMap_append

/-- Writing the events takes the channel from one state to the other, and no line is refused. -/
def Output.Takes (out : Output) (format : TraceFormat) (events : List Event) (out' : Output) :
    Prop :=
  out.writeLines (Event.allLines format events) = (out', none)

theorem Output.Takes.append {out between out' : Output} {format : TraceFormat}
    {xs ys : List Event} (hfirst : out.Takes format xs between)
    (hmore : between.Takes format ys out') : out.Takes format (xs ++ ys) out' := by
  unfold Output.Takes at hfirst hmore ⊢
  rw [Event.allLines_append, Output.writeLines_append, hfirst]
  exact hmore

/-! ## Builtins -/

/-- What calling a builtin writes. -/
def Builtin.events (values : List Value) : Builtin → List Event
  | sum | sub => []
  | print => [.printed (printedLine values)]

theorem Builtin.output_call (b : Builtin) (values : List Value) (out : Output)
    (format : TraceFormat) :
    (b.call values out).2 =
      (out.writeLines (Event.allLines format (b.events values))).1 := by
  cases b with
  | sum | sub =>
    simp only [Builtin.call]
    split <;> rfl
  | print =>
    have hprinted : Builtin.print.call values out = _ := StackFree.writeLines_printed rfl
    exact congrArg Prod.snd hprinted

/-- What an operation writes. -/
def Operation.events (values : List Value) : Operation → List Event
  | .builtin b _ => b.events values
  | _ => []

/-- What a call writes by itself, apart from the body of a function. -/
def Resolution.events (values : List Value) : Resolution → List Event
  | builtin b => b.events values
  | refused _ | body _ => []

/-- What a call in this context comes to. -/
def Context.resolve (ctx : Context) (callee : Option Value) (name : String) (pos : Position)
    (values : List Value) : Resolution :=
  .resolve ctx.maxDepth (ctx.callStack.size + 1) ctx.environment callee name pos values

/-- A call beyond the depth limit. -/
theorem Context.resolve_of_lt {ctx : Context} (h : ctx.maxDepth < ctx.callStack.size + 1)
    (callee : Option Value) (name : String) (pos : Position) (values : List Value) :
    ctx.resolve callee name pos values = .refused ⟨pos, .depthExceeded ctx.maxDepth⟩ := if_pos h

/-- What a task writes. -/
def Task.events (values : List Value) (ctx : Context) : Task → List Event
  | compute op => op.events values
  | call name pos => (ctx.resolve none name pos values).events values
  | apply name pos =>
    (ctx.resolve (some (values.headD .nil)) name pos values.tail).events values.tail

/-- The report of a failure in this context. -/
def Context.reportEvent (ctx : Context) (failure : Failure) : Event :=
  .reported (.ofFailure failure ctx.callStack.frames)

theorem Context.allLines_reportEvent (ctx : Context) (failure : Failure) :
    Event.allLines ctx.traceFormat [ctx.reportEvent failure] = ctx.reportLines failure :=
  List.append_nil _

namespace Machine

/-! ## Steps -/

/-- A call beyond the depth limit does nothing but fail, with its frame on the call stack. -/
theorem enter_of_lt {ctx : Context} (h : ctx.maxDepth < ctx.callStack.size + 1)
    (callee : Option Value) (name : String) (pos : Position) (values : List Value)
    (k : List Layer) :
    enter callee name pos values k ctx =
      ⟨.failure ⟨pos, .depthExceeded ctx.maxDepth⟩,
        .invocation ⟨⟨name, pos⟩, ctx.callStack.size, false⟩ :: k, ctx.entered ⟨name, pos⟩⟩ := by
  have hres := Context.resolve_of_lt h callee name pos values
  unfold Context.resolve at hres
  unfold enter
  rw [hres]
  rfl

/-- What is written when a failure gets to the nearest layer that handles failures: its report, if
that is a program. -/
def unwindEvents (failure : Failure) (ctx : Context) : List Layer → List Event
  | [] => []
  | .attempt .. :: _ => []
  | .program .. :: _ => [ctx.reportEvent failure]
  | _ :: k => unwindEvents failure ctx k

/-- What the next step writes. -/
def State.emits : State → List Event
  | ⟨.operands t done [] _, _, ctx⟩ => t.events done ctx
  | ⟨.failure f, k, ctx⟩ => unwindEvents f ctx k
  | _ => []

/-- A step writes its events and nothing else. -/
structure Written (s s' : State) : Prop where
  output : s'.context.output =
    (s.context.output.writeLines (Event.allLines s.context.traceFormat s.emits)).1
  traceFormat : s'.context.traceFormat = s.context.traceFormat

section Written

variable {k : List Layer} {ctx : Context} {s s' : State}

/-- Most steps write nothing. -/
theorem written_nothing (hemits : s.emits = []) (output : s'.context.output = s.context.output)
    (traceFormat : s'.context.traceFormat = s.context.traceFormat) : Written s s' where
  output := by
    rw [output, hemits]
    rfl
  traceFormat := traceFormat

theorem output_compute (op : Operation) (site : Site) (values : List Value) :
    (op.run ctx.callStack.size site.args site.scope values ctx.world).2.output =
      (ctx.output.writeLines (Event.allLines ctx.traceFormat (op.events values))).1 := by
  cases op with
  | builtin b pos => exact b.output_call values ctx.output ctx.traceFormat
  | _ => rfl

theorem output_enter (callee : Option Value) (name : String) (pos : Position)
    (values : List Value) :
    (enter callee name pos values k ctx).context.output =
      (ctx.output.writeLines (Event.allLines ctx.traceFormat
        ((ctx.resolve callee name pos values).events values))).1 := by
  show (follow pos values ctx.world (ctx.resolve callee name pos values)).2.output = _
  cases ctx.resolve callee name pos values with
  | refused | body => rfl
  | builtin b => exact b.output_call values ctx.output ctx.traceFormat

theorem written_resume {v : Value} {layer : Layer} (h : layer.resume v k ctx = .next s') :
    Written ⟨.value v, layer :: k, ctx⟩ s' := by
  cases layer with
  | operands | letIn | cond | attempt | program =>
    cases h
    exact written_nothing rfl rfl rfl
  | invocation inv =>
    obtain ⟨stack, -, rfl⟩ := resume_invocation_eq_next h
    exact written_nothing rfl rfl rfl

theorem written_unwind {failure : Failure} {layers : List Layer}
    (h : unwind failure ctx layers = .next s') : Written ⟨.failure failure, layers, ctx⟩ s' := by
  induction layers with
  | nil => cases h
  | cons layer k ih =>
    cases layer with
    | attempt handler site =>
      cases h
      exact written_nothing rfl rfl rfl
    | program handler site =>
      cases h
      refine ⟨?_, ?_⟩
      · show (ctx.report failure).2.output =
          (ctx.output.writeLines (Event.allLines ctx.traceFormat [ctx.reportEvent failure])).1
        rw [Context.allLines_reportEvent, Context.report_eq]
        rfl
      · show (ctx.report failure).2.traceFormat = ctx.traceFormat
        rw [Context.report_eq]
    | operands | letIn | cond | invocation =>
      have hwritten := ih h
      exact ⟨hwritten.output, hwritten.traceFormat⟩

/-- There is nothing else that a step writes. -/
theorem Steps.written (h : Steps s s') : Written s s' := by
  obtain ⟨focus, layers, ctx⟩ := s
  cases focus with
  | eval e site =>
    cases h
    unfold begin
    split <;> exact written_nothing rfl rfl rfl
  | operands t done rest site =>
    cases rest with
    | nil =>
      cases h
      cases t with
      | compute op => exact ⟨output_compute op site done, rfl⟩
      | call | apply => exact ⟨output_enter _ _ _ _, rfl⟩
    | cons first rest =>
      cases h
      exact written_nothing rfl rfl rfl
  | body f values =>
    cases h
    exact written_nothing rfl rfl rfl
  | value v =>
    cases layers with
    | nil => cases h
    | cons layer k => exact written_resume h
  | failure f => exact written_unwind h

end Written

/-! ## Runs -/

/-- Any number of steps lead from one state to the other, and these events are what they write. -/
inductive Run (s : State) : List Event → State → Prop
  | refl : Run s [] s
  | tail {events : List Event} {a b : State} (run : Run s events a) (step : Steps a b) :
      Run s (events ++ a.emits) b

/-- The run from a state that halts in an outcome, and what it writes. -/
def Ends (s : State) (events : List Event) (o : Outcome Failure Value) : Prop :=
  ∃ final, Run s events final ∧ final.step = .halted ∧ final.outcome? = some o

/-- The channel takes what the next step writes. -/
def State.Taken (s : State) : Prop :=
  (s.context.output.writeLines (Event.allLines s.context.traceFormat s.emits)).2 = none

/-- No write fails from here on. -/
def State.AllTaken (s : State) : Prop := ∀ a, Reaches s a → a.Taken

section Run

variable {s a b : State} {events more : List Event}

theorem Run.reaches (h : Run s events a) : Reaches s a := by
  induction h with
  | refl => exact .refl
  | tail _ hstep ih => exact .tail ih hstep

theorem Reaches.run (h : Reaches s a) : ∃ events, Run s events a := by
  induction h with
  | refl => exact ⟨[], .refl⟩
  | tail _ hstep ih =>
    obtain ⟨events, hrun⟩ := ih
    exact ⟨_, hrun.tail hstep⟩

theorem Run.trans (h : Run s events a) (h' : Run a more b) : Run s (events ++ more) b := by
  induction h' with
  | refl => rwa [List.append_nil]
  | tail _ hstep ih =>
    rw [← List.append_assoc]
    exact ih.tail hstep

theorem State.AllTaken.of_reaches (h : s.AllTaken) (hreach : Reaches s a) : a.AllTaken :=
  fun b hb => h b (hreach.trans hb)

theorem Run.traceFormat (h : Run s events a) : a.context.traceFormat = s.context.traceFormat := by
  induction h with
  | refl => rfl
  | tail _ hstep ih => rw [hstep.written.traceFormat, ih]

/-- As long as no write fails, the channel shows the events of the run one after the other. -/
theorem Run.takes (h : Run s events a) (htaken : s.AllTaken) :
    s.context.output.Takes s.context.traceFormat events a.context.output := by
  induction h with
  | refl => rfl
  | tail hrun hstep ih =>
    rename_i events a b
    have hlast : a.context.output.Takes s.context.traceFormat a.emits b.context.output := by
      rw [← hrun.traceFormat]
      exact Prod.ext hstep.written.output.symm (htaken a hrun.reaches)
    exact ih.append hlast

/-- What has been captured stays. -/
theorem Reaches.lines_prefix (h : Reaches s a) :
    s.context.output.lines <+: a.context.output.lines := by
  induction h with
  | refl => exact List.prefix_refl _
  | tail _ hstep ih =>
    rw [hstep.written.output]
    exact ih.trans (Output.lines_writeLines _ _)

/-- A channel without a limit stays without one. -/
theorem Reaches.output_open (h : Reaches s a) (hopen : s.context.output.Open) :
    a.context.output.Open := by
  induction h with
  | refl => exact hopen
  | tail _ hstep ih =>
    rw [hstep.written.output]
    exact (ih.writeLines _).2

/-- On a channel without a limit no write fails. -/
theorem State.AllTaken.of_open (h : s.context.output.Open) : s.AllTaken :=
  fun _ hreach => ((hreach.output_open h).writeLines _).1

end Run
end Machine
end TracedEval
