import TracedEval.Proofs.Machine.Effect
import TracedEval.Proofs.Printing
import TracedEval.Proofs.Writing

/-!
# One report for each failure

Programs run one after the other in a context that starts with an empty call stack, each of them
possibly with another sink to echo to. Whatever they do, each is settled as if it were the first
one: its failure is reported once, with frames of its own, and no frame is left for the next one.

* `Context.Series` is that programs have run one after the other;
* `Machine.Since` is that a frame was pushed during a run and has been there since;
* `Context.Handled` says how the run of a program is settled, and `executions_handled` that every
  program of a series is.
-/

namespace TracedEval

/-! ## Where frames come from -/

namespace Machine

/-- A call has pushed this frame at this index, on the way from `s`, and it has been there since. -/
inductive Since (s : State) (i : Nat) (frame : Frame) : State → Prop
  | pushed {a b : State} (reach : Reaches s a) (step : Steps a b)
      (index : a.context.callStack.size = i)
      (stack : b.context.callStack = a.context.callStack.enter frame) : Since s i frame b
  | kept {a b : State} (since : Since s i frame a) (step : Steps a b)
      (inPlace : b.context.callStack.frames[i]? = some frame) : Since s i frame b

/-- On a call stack that was empty, all frames come from calls on the way. -/
theorem since_of_reaches {s a : State} (hempty : s.context.callStack = ∅) (h : Reaches s a)
    {i : Nat} {frame : Frame} (hframe : a.context.callStack.frames[i]? = some frame) :
    Since s i frame a := by
  induction h generalizing i frame with
  | refl =>
    rw [hempty] at hframe
    cases hframe
  | tail hreach hstep ih =>
    rename_i a b
    cases hstep.stepped.effect with
    | keep calls stack | fail inner calls stack =>
      exact .kept (ih (stack ▸ hframe)) hstep hframe
    | enter inv calls index stack =>
      have hframes := hframe
      rw [stack, CallStack.frames_enter] at hframes
      rcases Nat.lt_or_ge i a.context.callStack.frames.length with hbelow | htop
      · rw [List.getElem?_append_left hbelow] at hframes
        exact .kept (ih hframes) hstep hframe
      · -- this is the frame that has just been pushed
        rw [List.getElem?_append_right htop, List.getElem?_singleton] at hframes
        have hlength := CallStack.length_frames a.context.callStack
        split at hframes
        · cases hframes
          exact .pushed hreach hstep (by omega) stack
        · cases hframes
    | leave inv calls stack =>
      obtain ⟨top, hstack⟩ := CallStack.eq_enter_of_leave? stack
      have hbelow := (List.getElem?_eq_some_iff.mp hframe).1
      refine .kept (ih ?_) hstep hframe
      rwa [hstack, CallStack.frames_enter, List.getElem?_append_left hbelow]
    | clear inner handler site k layers calls stack =>
      rw [stack] at hframe
      cases hframe

end Machine

/-! ## Series of programs -/

/-- A program that is to run. -/
structure Turn where
  body : Expr
  /-- The sink that the context echoes to from then on, if it is another one. -/
  sink : Option Sink

namespace Context

/-- The context for a turn. -/
def prepare (ctx : Context) (turn : Turn) : Context :=
  match turn.sink with
  | none => ctx
  | some sink => ctx.echoTo sink

/-- The programs have run one after the other, none of them has broken down, and this is the context
afterwards. -/
inductive Series : Context → List Turn → Context → Prop
  | nil (ctx : Context) : Series ctx [] ctx
  | cons {ctx after final : Context} {turn : Turn} {rest : List Turn}
      (run : ((ctx.prepare turn).execute turn.body).context? = some after)
      (series : Series after rest final) : Series ctx (turn :: rest) final

theorem callStack_prepare (ctx : Context) (turn : Turn) :
    (ctx.prepare turn).callStack = ctx.callStack := by
  unfold prepare
  split <;> rfl

/-- How the run of a program is settled. -/
structure Handled (ctx : Context) (body : Expr) : Prop where
  /-- No frame is left. -/
  cleared : ∀ after, (ctx.execute body).context? = some after → after.callStack = ∅
  /-- A value is handed over, and nothing more is written. -/
  returned : ∀ value left, ctx.evaluate body = .ok value left →
    ctx.execute body = .ok value left.clearStack
  /-- The report of a failure is written, and nothing more. -/
  reported : ∀ failure left out, ctx.evaluate body = .error failure left →
    left.output.writeLines (left.reportLines failure) = (out, none) →
      ctx.execute body = .error (.uncaught failure) (left.clearStack.withOutput out)
  /-- A line of the report is refused: those before it are captured, nothing more is written, and
  the failure is handed over together with the refusal. -/
  cut : ∀ failure left before line rest between out e, ctx.evaluate body = .error failure left →
    left.reportLines failure = before ++ line :: rest →
    left.output.writeLines before = (between, none) → between.writeLine line = (out, some e) →
      ctx.execute body = .error (.unreported failure e) (left.clearStack.withOutput out) ∧
      out.lines = if left.output.capture then left.output.lines ++ before else left.output.lines
  /-- If no write fails, then the lines of the body are on the channel, and after them those of the
  report, if there is one. -/
  written : ctx.ExecutionTaken body → ∀ after, (ctx.execute body).context? = some after →
    ∃ events, ctx.EvaluationWrites body events ∧ ctx.output.Gains
      (Event.allLines ctx.traceFormat (events ++ (ctx.evaluate body).reports)) after.output
  /-- Every frame in the report is that of a call during this run. -/
  own : ∀ failure left, ctx.evaluate body = .error failure left →
    ∀ i frame, left.callStack.frames[i]? = some frame →
      ∃ final, final.context = left ∧ final.step = .halted ∧
        Machine.Since (Machine.start body [] .empty ctx) i frame final

section Handled

variable {ctx ctx' : Context} {turns : List Turn}

theorem callStack_of_execute {body : Expr} {after : Context}
    (h : (ctx.execute body).context? = some after) : after.callStack = ∅ := by
  unfold execute at h
  cases ho : ctx.evaluate body with
  | ok value left =>
    rw [ho] at h
    cases h
    rfl
  | error failure left =>
    rw [ho] at h
    cases h
    exact left.callStack_report failure
  | underflow | exhausted =>
    rw [ho] at h
    cases h

theorem handled (hempty : ctx.callStack = ∅) (body : Expr) : ctx.Handled body where
  cleared _ h := callStack_of_execute h
  returned value left h := by
    rw [execute, h]
    rfl
  reported failure left out h hlines := by
    rw [execute, h]
    exact settle_of_written hlines
  cut failure left before line rest between out e h hlines hbefore hline := by
    have hrefused : left.output.writeLines (left.reportLines failure) = (out, some e) := by
      rw [hlines, Output.writeLines_append, hbefore]
      simp only [Output.writeLines, hline]
    refine ⟨?_, ?_⟩
    · rw [execute, h]
      exact settle_of_refused hrefused
    · rw [Output.lines_of_refused hline, (Output.gains_of_writeLines hbefore).captured]
  written htaken after hafter := by
    obtain ⟨_, ⟨events, hends, rfl⟩, htakes⟩ := shows_execution htaken after hafter
    exact ⟨events, hends, Output.gains_of_writeLines htakes⟩
  own failure left h i frame hframe := by
    obtain ⟨final, hreach, hhalted, -, rfl⟩ := Machine.halts_of_error h
    exact ⟨final, rfl, hhalted, Machine.since_of_reaches hempty hreach hframe⟩

theorem Series.callStack (h : ctx.Series turns ctx') (hempty : ctx.callStack = ∅) :
    ctx'.callStack = ∅ := by
  induction h with
  | nil => exact hempty
  | cons hrun _ ih => exact ih (callStack_of_execute hrun)

/-- Whatever programs have run in a context, each on whatever sink, and however they have ended: no
frame is left, and the next program is settled as it should be. -/
theorem executions_handled (hempty : ctx.callStack = ∅) (h : ctx.Series turns ctx') (next : Turn) :
    ctx'.callStack = ∅ ∧ (ctx'.prepare next).Handled next.body := by
  have hstack := h.callStack hempty
  refine ⟨hstack, handled ?_ next.body⟩
  rw [callStack_prepare, hstack]

/-- After a program that has swallowed a failure and one of which the report was refused, the report
of the next one has no frames. -/
theorem executions_handled_refused :
    let ctx := Context.new 5 .text (.new none true)
    let swallowing : Turn := ⟨.attempt (.call "missing" ⟨1, 1⟩ []) (.literal .nil), none⟩
    let refused : Turn :=
      ⟨.call "missing" ⟨2, 1⟩ [], some { Sink.unlimited with flushes := some 0 }⟩
    let next : Turn := ⟨.raise ⟨3, 1⟩ "late", some .unlimited⟩
    ∃ ctx' left, ctx.Series [swallowing, refused] ctx' ∧ ctx'.callStack = ∅ ∧
      (ctx'.prepare next).Handled next.body ∧
      (ctx'.prepare next).evaluate next.body = .error ⟨⟨3, 1⟩, .raised "late"⟩ left ∧
      left.callStack.frames = [] := by
  intro ctx swallowing refused next
  have hseries : ctx.Series [swallowing, refused] _ := .cons rfl (.cons rfl (.nil _))
  obtain ⟨hstack, hhandled⟩ := executions_handled rfl hseries next
  exact ⟨_, _, hseries, hstack, hhandled, rfl, rfl⟩

end Handled
end Context
end TracedEval
