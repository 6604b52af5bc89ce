import TracedEval.Proofs.Channel
import TracedEval.Proofs.StackFree

/-!
# What a program writes

As long as nothing swallows failures, the channel has a say in one thing only: where the program
stops. There are lines that do not depend on the channel, and a program either writes all of them
and then gives a result that does not depend on it either, or it ends at the line that is refused.

* `StackFree.Printing` says this of anything that is run with an output channel, and
  `StackFree.eval_printing` that it holds of evaluation;
* `Context.execute_writes` is the same for a whole program, the report of its failure included;
* `Context.execute_limited` compares a sink without a limit to one with a limit.
-/

namespace TracedEval

/-- The world with another output channel. -/
def World.withOutput (w : World) (out : Output) : World := { w with output := out }

namespace StackFree

/-! ## Printing -/

/-- The result with another output channel. -/
def Result.withOutput {α : Type} (out : Output) : Result α → Result α
  | ok value w => ok value (w.withOutput out)
  | error failure active w => error failure active (w.withOutput out)
  | uncovered => uncovered

/-- With whatever channel it is run, `f` writes these lines and has this result, unless a line is
refused: that makes the failure it then has. -/
structure Prints {α : Type} (f : Output → Result α) (lines : List String) (r : Result α) :
    Prop where
  written : ∀ {out out' : Output}, out.writeLines lines = (out', none) → f out = r.withOutput out'
  refused : ∀ {out out' : Output} {e : ChannelError}, out.writeLines lines = (out', some e) →
    ∃ pos active w, f out = .error ⟨pos, .output e⟩ active w ∧ w.output = out'

/-- The channel decides on nothing but whether a line is refused. -/
def Printing {α : Type} (f : Output → Result α) : Prop := ∃ lines r, Prints f lines r

/-- Running functions is printing. -/
def Runner.Printing (run : Runner) : Prop :=
  ∀ f args active (w : World), StackFree.Printing fun out => run f args active (w.withOutput out)

/-- Something that does not look at the channel writes nothing. -/
theorem Printing.of_silent {α : Type} {f : Output → Result α} {r : Result α}
    (h : ∀ out, f out = r.withOutput out) : Printing f := by
  refine ⟨[], r, ?_, ?_⟩
  · intro out out' hnothing
    cases hnothing
    exact h out
  · intro out out' e hnothing
    cases hnothing

section Bind

variable {α β : Type} {f : Output → Result α} {next : α → World → Result β} {lines : List String}

/-- What comes after a result that is not a value is never run. -/
theorem Prints.bind_of_stop {r : Result α} {r' : Result β} (hf : Prints f lines r)
    (h : ∀ out, (r.withOutput out).bind next = r'.withOutput out) :
    Prints (fun out => (f out).bind next) lines r' := by
  refine ⟨?_, ?_⟩
  · intro out out' hlines
    show (f out).bind next = _
    rw [hf.written hlines]
    exact h out'
  · intro out out' e hlines
    obtain ⟨pos, active, w, hf, hout⟩ := hf.refused hlines
    refine ⟨pos, active, w, ?_, hout⟩
    show (f out).bind next = _
    rw [hf]
    rfl

theorem Prints.bind {value : α} {w : World} {more : List String} {r : Result β}
    (hf : Prints f lines (.ok value w))
    (hnext : Prints (fun out => next value (w.withOutput out)) more r) :
    Prints (fun out => (f out).bind next) (lines ++ more) r := by
  refine ⟨?_, ?_⟩
  · intro out out' hlines
    obtain ⟨between, hfirst, hmore⟩ := Output.eq_of_writeLines_append hlines
    show (f out).bind next = _
    -- the value is the same, and the rest is run with the channel that is left
    rw [hf.written hfirst]
    exact hnext.written hmore
  · intro out out' e hlines
    show ∃ pos active w, (f out).bind next = _ ∧ _
    rcases Output.refused_of_writeLines_append hlines with hfirst | ⟨between, hfirst, hmore⟩
    · -- nothing is run after a line that is refused
      obtain ⟨pos, active, w', hf, hout⟩ := hf.refused hfirst
      refine ⟨pos, active, w', ?_, hout⟩
      rw [hf]
      rfl
    · rw [hf.written hfirst]
      exact hnext.refused hmore

theorem Printing.bind (hf : Printing f)
    (hnext : ∀ value (w : World), Printing fun out => next value (w.withOutput out)) :
    Printing fun out => (f out).bind next := by
  obtain ⟨lines, r, hf⟩ := hf
  cases r with
  | ok value w =>
    obtain ⟨more, r', hnext⟩ := hnext value w
    exact ⟨lines ++ more, r', hf.bind hnext⟩
  | error failure active w =>
    exact ⟨lines, .error failure active w, hf.bind_of_stop fun out => rfl⟩
  | uncovered => exact ⟨lines, .uncovered, hf.bind_of_stop fun out => rfl⟩

end Bind

/-! ## Evaluation -/

section Eval

variable {limit : Nat} {srun : Runner} {active : List Frame}

theorem Result.withOutput_ofWorld (out : Output) (result : Except Failure Value × World) :
    (Result.ofWorld active result).withOutput out =
      .ofWorld active (result.1, result.2.withOutput out) := by
  obtain ⟨result, w⟩ := result
  cases result <;> rfl

/-- Of the builtins only `print` looks at the channel. -/
theorem call_eq_of_ne_print {b : Builtin} (h : b ≠ .print) (values : List Value)
    (out out' : Output) : b.call values out = ((b.call values out').1, out) := by
  cases b with
  | sum | sub =>
    simp only [Builtin.call]
    split <;> rfl
  | print => exact absurd rfl h

/-- `print` writes its line. -/
theorem writeLines_printed {values : List Value} {out out' : Output} {refused : Option ChannelError}
    (h : out.writeLines [printedLine values] = (out', refused)) :
    Builtin.print.call values out =
      ((match refused with
        | none => .ok .nil
        | some e => .error (.output e)), out') := by
  rw [Output.writeLines] at h
  rw [Builtin.call]
  cases hline : out.writeLine (printedLine values) with
  | mk between refused' =>
    rw [hline] at h
    cases refused' <;> cases h <;> rfl

theorem builtin_printing (b : Builtin) (pos : Position) (values : List Value) (w : World) :
    Printing fun out => Result.ofWorld active (b.runOn pos values (w.withOutput out)) := by
  by_cases hb : b = .print
  · subst hb
    refine ⟨[printedLine values], .ok .nil w, ?_, ?_⟩
    · intro out out' hline
      have hcall : Builtin.print.call values (w.withOutput out).output = _ :=
        writeLines_printed hline
      simp only [Builtin.runOn, hcall]
      rfl
    · intro out out' e hline
      have hcall : Builtin.print.call values (w.withOutput out).output = _ :=
        writeLines_printed hline
      refine ⟨pos, active, w.withOutput out', ?_, rfl⟩
      simp only [Builtin.runOn, hcall]
      rfl
  · refine Printing.of_silent (r := .ofWorld active (b.runOn pos values w)) fun out => ?_
    -- the other builtins have the same result with every channel
    have hcall : b.call values (w.withOutput out).output = ((b.call values w.output).1, out) :=
      call_eq_of_ne_print hb values out w.output
    rw [Result.withOutput_ofWorld]
    simp only [Builtin.runOn, hcall]
    rfl

theorem compute_printing (args : List Value) (scope : Scope) (op : Operation) (values : List Value)
    (w : World) :
    Printing fun out => compute active args scope op values (w.withOutput out) := by
  by_cases hop : ∃ b pos, op = .builtin b pos
  · obtain ⟨b, pos, rfl⟩ := hop
    exact builtin_printing b pos values w
  · refine Printing.of_silent (r := compute active args scope op values w) fun out => ?_
    -- no other operation has to do with the channel
    have hrun : op.run active.length args scope values (w.withOutput out) =
        ((op.run active.length args scope values w).1,
          (op.run active.length args scope values w).2.withOutput out) := by
      cases op with
      | builtin b pos => exact absurd ⟨b, pos, rfl⟩ hop
      | _ => rfl
    rw [compute, compute, Result.withOutput_ofWorld, hrun]

theorem track_printing (hrun : srun.Printing) (callee : Option Value) (name : String)
    (pos : Position) (values : List Value) (w : World) :
    Printing fun out =>
      track limit srun active callee name pos values (w.withOutput out) := by
  show Printing fun out => follow srun (active ++ [⟨name, pos⟩]) pos values (w.withOutput out)
    (Resolution.resolve limit (active.length + 1) w.environment callee name pos values)
  cases Resolution.resolve limit (active.length + 1) w.environment callee name pos values with
  | refused failure => exact Printing.of_silent (r := .error failure _ w) fun out => rfl
  | builtin b => exact builtin_printing b pos values w
  | body f => exact hrun f values _ w

theorem perform_printing (hrun : srun.Printing) (args : List Value) (scope : Scope) (t : Task)
    (values : List Value) (w : World) :
    Printing fun out => perform limit srun active args scope t values (w.withOutput out) := by
  cases t with
  | compute op => exact compute_printing args scope op values w
  | call name pos => exact track_printing hrun none name pos values w
  | apply name pos => exact track_printing hrun (some (values.headD .nil)) name pos values.tail w

theorem evalAll_printing {args : List Value} {scope : Scope} {operands : List Expr}
    (h : ∀ operand ∈ operands, ∀ w : World,
      Printing fun out => eval limit srun active args scope (w.withOutput out) operand)
    (w : World) :
    Printing fun out => evalAll limit srun active args scope (w.withOutput out) operands := by
  induction operands generalizing w with
  | nil => exact Printing.of_silent (r := .ok [] w) fun out => rfl
  | cons first rest ih =>
    rw [List.forall_mem_cons] at h
    simp only [evalAll]
    refine (h.1 w).bind fun value w => (ih h.2 w).bind fun values w => ?_
    exact Printing.of_silent (r := .ok (value :: values) w) fun out => rfl

theorem eval_printing (hrun : srun.Printing) (e : Expr) :
    ∀ (args : List Value) (scope : Scope) (w : World),
      Printing fun out => eval limit srun active args scope (w.withOutput out) e := by
  induction e using Expr.shapeInduction with
  | task e t operands hs ih =>
    intro args scope w
    simp only [eval_task _ _ _ _ _ _ hs]
    exact (evalAll_printing (fun operand hmem => ih operand hmem args scope) w).bind
      fun values w => perform_printing hrun args scope t values w
  | letIn e name bound body hs ihbound ihbody =>
    intro args scope w
    simp only [eval_letIn _ _ _ _ _ _ hs]
    exact (ihbound args scope w).bind fun value w => ihbody args _ w
  | cond e guard branch otherwise hs ihguard ihbranch ihotherwise =>
    intro args scope w
    simp only [eval_cond _ _ _ _ _ _ hs]
    refine (ihguard args scope w).bind fun value w => ?_
    by_cases hvalue : value.isTruthy = true
    · simp only [if_pos hvalue]
      exact ihbranch args scope w
    · simp only [if_neg hvalue]
      exact ihotherwise args scope w
  | attempt e body handler hs | execute e body handler hs =>
    intro args scope w
    cases e <;> cases hs
    exact Printing.of_silent (r := .uncovered) fun out => rfl

theorem bodies_printing (limit levels : Nat) : (bodies limit levels).Printing := by
  induction levels with
  | zero => exact fun f args active w => Printing.of_silent (r := .uncovered) fun out => rfl
  | succ levels ih => exact fun f args active w => eval_printing ih f.body args f.scope w

theorem run_printing (limit : Nat) (active : List Frame) (args : List Value) (scope : Scope)
    (w : World) (e : Expr) :
    Printing fun out => run limit active args scope (w.withOutput out) e :=
  eval_printing (bodies_printing limit (limit - active.length)) e args scope w

end Eval
end StackFree

/-! ## Programs -/

namespace Context

/-- The context with another output channel. -/
def withOutput (ctx : Context) (out : Output) : Context := { ctx with output := out }

theorem on_withOutput {α : Type} (r : StackFree.Result α) (ctx : Context) (out : Output) :
    r.on (ctx.withOutput out) = r.on ctx := by
  cases r <;> rfl

/-- The lines of the report of a failure. -/
def reportLines (ctx : Context) (failure : Failure) : List String :=
  (Report.ofFailure failure ctx.callStack.frames).lines ctx.traceFormat

theorem reportLines_ne_nil (ctx : Context) (failure : Failure) : ctx.reportLines failure ≠ [] := by
  unfold reportLines Report.lines
  cases ctx.traceFormat <;> exact List.cons_ne_nil _ _

theorem settle_of_written {ctx : Context} {failure : Failure} {out : Output}
    (h : ctx.output.writeLines (ctx.reportLines failure) = (out, none)) :
    settle (.error failure ctx) = .error (.uncaught failure) (ctx.clearStack.withOutput out) := by
  unfold reportLines at h
  simp only [settle, report, h]
  rfl

theorem settle_of_refused {ctx : Context} {failure : Failure} {out : Output} {e : ChannelError}
    (h : ctx.output.writeLines (ctx.reportLines failure) = (out, some e)) :
    settle (.error failure ctx) =
      .error (.unreported failure e) (ctx.clearStack.withOutput out) := by
  unfold reportLines at h
  simp only [settle, report, h]
  rfl

section Execute

variable {body : Expr} (hbody : body.within .direct .direct) {ctx : Context}
  (henv : ctx.environment.within .direct)

include hbody henv

theorem execute_eq_settle_on (out : Output) :
    (ctx.withOutput out).execute body =
      settle ((StackFree.run ctx.maxDepth ctx.callStack.frames [] .empty (ctx.world.withOutput out)
        body).on ctx) := by
  have henv' : (ctx.withOutput out).environment.within .direct := henv
  have hbound : (ctx.withOutput out).maxDepth ≤
      (ctx.withOutput out).callStack.size + ctx.nestingBound := by
    show ctx.maxDepth ≤ ctx.callStack.size + (ctx.maxDepth + 1000000)
    omega
  have heval := StackFree.eval_on hbody Value.allWithin_nil Scope.within_empty henv' hbound
  show settle (body.eval (runBody ctx.nestingBound) [] .empty (ctx.withOutput out)) = _
  rw [heval]
  exact congrArg settle (on_withOutput _ ctx out)

/-- A refusal while the program runs makes a failure, and the report of this failure is refused as
well. -/
theorem execute_of_refused {out out' : Output} {e : ChannelError} {active : List Frame} {w : World}
    {pos : Position}
    (hrun : StackFree.run ctx.maxDepth ctx.callStack.frames [] .empty (ctx.world.withOutput out)
      body = .error ⟨pos, .output e⟩ active w)
    (hout : w.output = out') (hdead : ∀ more ≠ [], out'.writeLines more = (out', some e)) :
    ∃ failure ctx', (ctx.withOutput out).execute body = .error (.unreported failure e) ctx' ∧
      ctx'.callStack = ∅ ∧ ctx'.output = out' := by
  let failed := w.on { ctx with callStack := ⟨active.reverse⟩ }
  have hreport : failed.output.writeLines (failed.reportLines ⟨pos, .output e⟩) =
      (out', some e) := by
    rw [← hdead _ (failed.reportLines_ne_nil ⟨pos, .output e⟩), ← hout]
    rfl
  refine ⟨⟨pos, .output e⟩, failed.clearStack.withOutput out', ?_, rfl, rfl⟩
  rw [execute_eq_settle_on hbody henv, hrun]
  exact settle_of_refused hreport

/-- A program writes lines that do not depend on the channel, those of the report included. If they
are all taken, then its result does not depend on the channel. If one is refused, and every line
after it as well, then it ends in the error that says so. -/
theorem execute_writes :
    ∃ (lines : List String) (result : Except RunError Value) (w : World),
      (∀ {out out' : Output}, out.writeLines lines = (out', none) →
        (ctx.withOutput out).execute body =
          .ofWorld ctx.clearStack (result, w.withOutput out')) ∧
      ∀ {out out' : Output} {e : ChannelError}, out.writeLines lines = (out', some e) →
        (∀ more ≠ [], out'.writeLines more = (out', some e)) →
          ∃ failure ctx', (ctx.withOutput out).execute body = .error (.unreported failure e) ctx' ∧
            ctx'.callStack = ∅ ∧ ctx'.output = out' := by
  obtain ⟨lines, r, hprints⟩ :=
    StackFree.run_printing ctx.maxDepth ctx.callStack.frames [] .empty ctx.world body
  have hrefused : ∀ {out out' : Output} {e : ChannelError}, out.writeLines lines = (out', some e) →
      (∀ more ≠ [], out'.writeLines more = (out', some e)) →
        ∃ failure ctx', (ctx.withOutput out).execute body = .error (.unreported failure e) ctx' ∧
          ctx'.callStack = ∅ ∧ ctx'.output = out' := by
    intro out out' e hlines hdead
    obtain ⟨pos, active, w, hrun, hout⟩ := hprints.refused hlines
    exact execute_of_refused hbody henv hrun hout hdead
  cases r with
  | ok value w =>
    refine ⟨lines, .ok value, w, ?_, hrefused⟩
    intro out out' hlines
    rw [execute_eq_settle_on hbody henv, hprints.written hlines]
    rfl
  | error failure active w =>
    -- the lines of the report come after those of the program
    let failed := w.on { ctx with callStack := ⟨active.reverse⟩ }
    refine ⟨lines ++ failed.reportLines failure, .error (.uncaught failure), w, ?_, ?_⟩
    · intro out out' hlines
      obtain ⟨between, hfirst, hreport⟩ := Output.eq_of_writeLines_append hlines
      rw [execute_eq_settle_on hbody henv, hprints.written hfirst]
      exact settle_of_written hreport
    · intro out out' e hlines hdead
      rcases Output.refused_of_writeLines_append hlines with hfirst | ⟨between, hfirst, hreport⟩
      · -- the refused line is one of the program's, or one of the report's
        exact hrefused hfirst hdead
      · refine ⟨failure, failed.clearStack.withOutput out', ?_, rfl, rfl⟩
        rw [execute_eq_settle_on hbody henv, hprints.written hfirst]
        exact settle_of_refused hreport
  | uncovered =>
    -- a channel that takes every line would show the run without a result
    have htaken : (ctx.output.setEcho .unlimited).writeLines lines = _ :=
      Output.writeLines_fits ctx.output rfl fun n hn => by cases hn
    have henv' : (ctx.withOutput (ctx.output.setEcho .unlimited)).environment.within .direct := henv
    exact absurd (hprints.written htaken)
      (StackFree.run_ne_uncovered hbody Value.allWithin_nil Scope.within_empty henv')

end Execute

/-- The context with its echo going to this sink. -/
def echoTo (ctx : Context) (sink : Sink) : Context := ctx.withOutput (ctx.output.setEcho sink)

/-- The same program, on a sink that takes everything and on sinks with room for `n` bytes. With
room for all the bytes that it writes nothing differs, but for the room that is left. With less room
it ends in the error of an unwritable report: the sink has received the first `n` bytes, the lines
that arrived as a whole are captured, and no frame is left. -/
theorem execute_limited {body : Expr} (hbody : body.within .direct .direct) {ctx : Context}
    (henv : ctx.environment.within .direct) (sink : Sink) (hflushes : sink.flushes = none) :
    ∃ (lines : List String) (result : Except RunError Value) (w : World),
      (ctx.echoTo (sink.withRoom none)).execute body =
        .ofWorld ctx.clearStack (result, w.withOutput
          (ctx.output.wrote (sink.took none (linesBytes lines)) lines)) ∧
      ∀ n,
        ((linesBytes lines).length ≤ n →
          (ctx.echoTo (sink.withRoom (some n))).execute body =
            .ofWorld ctx.clearStack (result, w.withOutput
              (ctx.output.wrote (sink.took (some (n - (linesBytes lines).length))
                (linesBytes lines)) lines))) ∧
        (n < (linesBytes lines).length →
          ∃ failure ctx', (ctx.echoTo (sink.withRoom (some n))).execute body =
              .error (.unreported failure sink.refusal) ctx' ∧ ctx'.callStack = ∅ ∧
            ∃ k < lines.length, (linesBytes (lines.take k)).length ≤ n ∧
              n < (linesBytes (lines.take (k + 1))).length ∧
              ctx'.output = ctx.output.wrote (sink.took (some 0) ((linesBytes lines).take n))
                (lines.take k)) := by
  obtain ⟨lines, result, w, hwritten, hrefused⟩ := execute_writes hbody henv
  have hflushes' : ∀ room, (sink.withRoom room).flushes = none := fun _ => hflushes
  refine ⟨lines, result, w, ?_, fun n => ⟨fun hn => ?_, fun hn => ?_⟩⟩
  · have hroom : (sink.withRoom none).HasRoom (linesBytes lines).length :=
      fun n hn => by cases hn
    exact hwritten (Output.writeLines_fits ctx.output (hflushes' _) hroom)
  · have hroom : (sink.withRoom (some n)).HasRoom (linesBytes lines).length := by
      intro m hm
      cases hm
      exact hn
    exact hwritten (Output.writeLines_fits ctx.output (hflushes' _) hroom)
  · have hroom : (sink.withRoom (some n)).room = some n := rfl
    obtain ⟨k, hk, hle, hlt, hlines⟩ := Output.writeLines_cut ctx.output (hflushes' _) hroom hn
    -- after the cut the sink takes no more bytes, so every line is refused
    obtain ⟨failure, ctx', hexecute, hstack, hout⟩ := hrefused hlines fun more hmore =>
      Output.writeLines_wrote_dead ctx.output sink _ _ hmore
    exact ⟨failure, ctx', hexecute, hstack, k, hk, hle, hlt, hout⟩

/-- A line of three bytes on a sink with room for two. -/
theorem execute_limited_two :
    let body := Expr.builtin .print ⟨1, 1⟩ [.literal (.string "ab")]
    let ctx := Context.new 5 .text (.new none true)
    ∃ failure ctx', (ctx.echoTo (Sink.unlimited.withRoom (some 2))).execute body =
        .error (.unreported failure ⟨.brokenPipe, "closed"⟩) ctx' ∧
      ctx'.output.echo = some (Sink.unlimited.took (some 0) [97, 98]) ∧
      ctx'.output.lines = [] := by
  intro body ctx
  have hbody : body.within .direct .direct := rfl
  have henv : ctx.environment.within .direct := rfl
  obtain ⟨lines, result, w, hopen, hlimited⟩ := execute_limited hbody henv .unlimited rfl
  -- the run without a limit shows which lines there are
  have hwritten : (ctx.echoTo (Sink.unlimited.withRoom none)).execute body =
      .ok .nil (ctx.withOutput
        (ctx.output.wrote (Sink.unlimited.took none [97, 98, 10]) ["ab"])) := rfl
  rw [hwritten] at hopen
  cases result with
  | error e => cases hopen
  | ok value =>
    injection hopen with hvalue hctx
    have hlines : ["ab"] = lines := congrArg (fun c : Context => c.output.lines) hctx
    subst hlines
    obtain ⟨failure, ctx', hexecute, -, k, hk, -, -, hout⟩ := (hlimited 2).2 (by decide)
    obtain rfl : k = 0 := Nat.lt_one_iff.mp hk
    refine ⟨failure, ctx', hexecute, ?_, ?_⟩
    · rw [hout]
      rfl
    · rw [hout]
      rfl

end Context
end TracedEval
