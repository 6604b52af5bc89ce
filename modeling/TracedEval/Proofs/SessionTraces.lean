import TracedEval.Proofs.Machine.Adequacy
import TracedEval.Proofs.Machine.Frames
import TracedEval.Proofs.Sessions

/-!
# Traces of a session

What the call stack is worth over a whole session, in which failures may be swallowed anywhere and
programs may run inside others, though not inside of functions. The active calls always have their
frames on the call stack, where they were pushed; a report that is made of a failure names them.

A failure of a direct evaluation stays pending, and its frames stay for the report. They are there
as long as nothing clears the call stack, which running a program does: see
`Session.report_after_execute`.

* `Session.Keeps` is that steps take no frames away, and `Session.framesAt_of_step` reads it off the
  action of a step;
* `Session.Traces` is what holds of an evaluation that a step makes;
* `Session.frames_kept` is the statement for every evaluation of a session.
-/

namespace TracedEval

open Machine (Invocation Reaches)

/-! ## Reports and active calls -/

/-- A report names these calls, which are the outermost first; in the report it is the other way
around. -/
def Report.Names (r : Report) (calls : List Invocation) : Prop :=
  (calls.map Invocation.frame).reverse.Sublist r.stack

/-- Every active call has its frame where it was pushed, and their order is that of the call
stack. -/
structure Machine.State.FramesInPlace (m : Machine.State) : Prop where
  inPlace : ∀ inv ∈ m.active, m.context.callStack.frames[inv.index]? = some inv.frame
  increasing : m.active.Pairwise fun outer inner => outer.index < inner.index
  sublist : (m.active.map Invocation.frame).Sublist m.context.callStack.frames

theorem Machine.State.FramesInPlace.names {m : Machine.State} (h : m.FramesInPlace)
    (failure : Failure) {frames : List Frame} (hframes : m.context.callStack.frames <+: frames) :
    (Report.ofFailure failure frames).Names m.active :=
  (h.sublist.trans hframes.sublist).reverse

theorem Machine.State.Inv.framesInPlace {here inside : Fragment} {low limit : Nat}
    {m : Machine.State} (h : m.Inv here inside low limit) : m.FramesInPlace where
  inPlace inv hmem := h.placed.inPlace inv (List.mem_reverse.mp hmem)
  increasing := List.pairwise_reverse.mpr h.placed.increasing
  sublist := h.placed.sublist

/-! ## What leaves the frames alone -/

/-- Whether an action leaves the frames on the call stack, as far as the action alone can tell. An
evaluation with a program inside does not count, although it may never get to that program. -/
def Action.KeepsFrames : Action → Prop
  | .evaluate body => body.within .flat .flat = true
  | .takeLines | .setEcho _ | .nothing => True
  | .execute _ | .report => False

theorem Slot.frames_of_act {slot after : Slot} (hslot : slot.context.environment.within .flat)
    {action : Action} (hkeeps : action.KeepsFrames) {reply : Reply}
    (hact : slot.act action = .ok (reply, after)) :
    slot.context.callStack.frames <+: after.context.callStack.frames := by
  cases action with
  | evaluate body =>
    have hends := Context.evaluate_ends rfl (by simp [Fragment.flat]) hkeeps hslot
      (List.prefix_refl _)
    rcases Outcome.Meets.ok_or_error hends with ⟨_, ctx, ho, habove⟩ | ⟨_, ctx, ho, habove⟩
    · simp only [act, ho] at hact
      cases hact
      exact habove.1
    · simp only [act, ho] at hact
      cases hact
      exact habove.1
  | takeLines | setEcho | nothing =>
    cases hact
    exact List.prefix_refl _
  | execute | report => exact absurd hkeeps id

theorem Slot.evaluate_of_failed {slot after : Slot} {body : Expr} {failure : Failure}
    (h : slot.act (.evaluate body) = .ok (.failed failure, after)) :
    ∃ ctx, slot.context.evaluate body = .error failure ctx ∧ after = ⟨ctx, some failure⟩ := by
  cases ho : slot.context.evaluate body with
  | error failure' ctx =>
    simp only [act, ho] at h
    cases h
    exact ⟨ctx, rfl, rfl⟩
  | ok | underflow | exhausted =>
    simp only [act, ho] at h
    cases h

namespace Session

/-- The frames on the call stack of a slot. -/
def framesAt (s : Session) (j : Nat) : List Frame := (s.slotAt j).context.callStack.frames

/-- Steps that go through, of which none clears the call stack of slot `j`: the frames that are there
stay at the bottom. -/
inductive Keeps (j : Nat) : Session → List Step → Session → Prop
  | nil (s : Session) : Keeps j s [] s
  | cons {s s' s'' : Session} {st : Step} {rest : List Step} {answer : Answer}
      (step : s.step st = .ok (answer, s')) (kept : s.framesAt j <+: s'.framesAt j)
      (next : Keeps j s' rest s'') : Keeps j s (st :: rest) s''

theorem Keeps.frames {j : Nat} {s s' : Session} {steps : List Step} (h : Keeps j s steps s') :
    s.framesAt j <+: s'.framesAt j := by
  induction h with
  | nil s => exact List.prefix_refl _
  | cons _ kept _ ih => exact kept.trans ih

/-- Only a step for a slot can take frames away from it, and only with an action that may clear its
call stack. -/
theorem framesAt_of_step {s s' : Session} (hs : s.Sound .flat) {st : Step} {answer : Answer}
    (hstep : s.step st = .ok (answer, s')) {j : Nat}
    (hkeeps : s'.current = j → st.action.KeepsFrames) : s.framesAt j <+: s'.framesAt j := by
  rcases slotAt_of_step hs.current_lt hstep j with ⟨hcurrent, hact⟩ | ⟨-, hslot⟩
  · exact Slot.frames_of_act (hs.within_slotAt j) (hkeeps hcurrent) hact
  · have hsame : s'.framesAt j = s.framesAt j := by rw [framesAt, framesAt, hslot]
    exact hsame ▸ List.prefix_refl _

/-! ## Evaluations of a session -/

/-- What holds of the evaluation of `body` by the step `st`, after which the steps `rest` are still
to come. -/
structure Traces (s : Session) (st : Step) (rest : List Step) (body : Expr) : Prop where
  /-- No call returns on an empty call stack. -/
  unbroken : ∀ m, Reaches (Machine.start body [] .empty (s.addressed st).context) m →
    m.step ≠ .underflow
  /-- Active calls have their frames in place. -/
  active : ∀ m, Reaches (Machine.start body [] .empty (s.addressed st).context) m →
    m.FramesInPlace
  /-- A report of a failure where it is raised names all active calls. -/
  raised : ∀ m failure, Reaches (Machine.start body [] .empty (s.addressed st).context) m →
    m.focus = .failure failure →
      (Report.ofFailure failure m.context.callStack.frames).Names m.active
  /-- The failure of a program is reported where it is raised. -/
  executed : ∀ e ctx', (s.addressed st).context.execute body = .error e ctx' →
    ∃ m failure, Reaches (Machine.start body [] .empty (s.addressed st).context) m ∧
      m.step = .halted ∧ m.focus = .failure failure ∧ (e, ctx') = m.context.report failure
  /-- So is one of a direct evaluation, and if it is reported later, with nothing in between that
  clears the call stack, then that report names all calls that were active. -/
  pending : st.action = .evaluate body → ∀ answer s₁ failure, s.step st = .ok (answer, s₁) →
    answer.reply = .failed failure →
      ∃ m, Reaches (Machine.start body [] .empty (s.addressed st).context) m ∧
        m.step = .halted ∧ m.focus = .failure failure ∧
        ∀ between after s₂, rest = between ++ after → Keeps s₁.current s₁ between s₂ →
          (Report.ofFailure failure (s₂.framesAt s₁.current)).Names m.active
  /-- Without programs inside, the frames that were there before stay at the bottom. -/
  kept : body.within .flat .flat = true →
    ((s.addressed st).context.evaluate body).Meets
      (fun _ ctx' => (s.addressed st).context.callStack.frames <+: ctx'.callStack.frames)
      (fun _ ctx' => (s.addressed st).context.callStack.frames <+: ctx'.callStack.frames) False

theorem traces {s : Session} (hs : s.Sound .flat) {st : Step} {rest : List Step}
    (hst : st.action.Within .full .flat) {body : Expr} (hbody : st.action.body? = some body) :
    s.Traces st rest body := by
  have hwithin := hst body hbody
  have henv := hs.within_addressed st
  -- all of it comes from the invariant of the machine
  have hinv : ∀ m, Reaches (Machine.start body [] .empty (s.addressed st).context) m →
      m.Inv .full .flat 0 (s.addressed st).context.maxDepth :=
    fun m hm => Machine.Reaches.inv rfl (fun _ => rfl)
      (Machine.inv_start hwithin Value.allWithin_nil Scope.within_empty henv (Nat.zero_le _)) hm
  refine ⟨?_, ?_, ?_, ?_, ?_, ?_⟩
  · exact fun m hm => (hinv m hm).not_underflow
  · exact fun m hm => (hinv m hm).framesInPlace
  · exact fun m failure hm _ => (hinv m hm).framesInPlace.names failure (List.prefix_refl _)
  · intro e ctx' hexecute
    cases ho : (s.addressed st).context.evaluate body with
    | ok | underflow | exhausted =>
      rw [Context.execute, ho] at hexecute
      cases hexecute
    | error failure raised =>
      obtain ⟨m, hm, hhalted, hfocus, rfl⟩ := Machine.halts_of_error ho
      rw [Context.execute, ho] at hexecute
      cases hexecute
      exact ⟨m, failure, hm, hhalted, hfocus, rfl⟩
  · intro haction answer s₁ failure hstep hreply
    obtain ⟨after, hact, rfl⟩ := act_of_step hstep
    rw [haction, hreply] at hact
    obtain ⟨raised, ho, rfl⟩ := Slot.evaluate_of_failed hact
    obtain ⟨m, hm, hhalted, hfocus, hctx⟩ := Machine.halts_of_error ho
    refine ⟨m, hm, hhalted, hfocus, ?_⟩
    rintro between after s₂ - hkeeps
    -- the frames are those that the evaluation left, with others above them
    have hleft : ((s.select st.target).put ⟨raised, some failure⟩).framesAt
        (s.select st.target).current = raised.callStack.frames := by
      rw [framesAt, slotAt_put_self (hs.select st.target).current_lt]
    refine (hinv m hm).framesInPlace.names failure ?_
    rw [hctx, ← hleft]
    exact hkeeps.frames
  · intro hflat
    have hends := Context.evaluate_ends rfl (by simp [Fragment.flat]) hflat henv
      (List.prefix_refl (s.addressed st).context.callStack.frames)
    exact hends.mono (fun _ _ h => h.1) (fun _ _ h => h.1) id

/-- No step of a session breaks down, and every evaluation that it makes leaves a faithful trace,
whatever is evaluated before and after, as long as no function runs a program inside. Of the steps,
only those that run a program or report a failure can take frames away, and only from the slot that
they are for. -/
theorem frames_kept {s : Session} (hs : s.Sound .flat) {steps : List Step}
    (hsteps : ∀ st ∈ steps, st.action.Within .full .flat) :
    (s.run steps).2 = none ∧
      ∀ before st rest s', steps = before ++ st :: rest → s.Takes before s' →
        (∀ body, st.action.body? = some body → s'.Traces st rest body) ∧
        ∀ answer s'', s'.step st = .ok (answer, s'') → ∀ j,
          (s''.current = j → st.action.KeepsFrames) → s'.framesAt j <+: s''.framesAt j := by
  refine ⟨run_unbroken rfl hs hsteps, ?_⟩
  rintro before st rest s' rfl htakes
  rw [List.forall_mem_append, List.forall_mem_cons] at hsteps
  have hs' := htakes.sound rfl hs hsteps.1
  refine ⟨fun body hbody => traces hs' hsteps.2.1 hbody, fun answer s'' hstep j hkeeps => ?_⟩
  exact framesAt_of_step hs' hstep hkeeps

/-- A call that fails below a swallowed failure, and its report. The frame of the call that was
swallowed is still on the call stack. -/
theorem frames_kept_swallowed :
    let body := Expr.seq
      [.defineFunction "f" 0 (.attempt (.call "gone" ⟨1, 1⟩ []) (.call "missing" ⟨2, 1⟩ [])),
        .call "f" ⟨3, 1⟩ []]
    let s := Session.start (Engine.ofConfig {})
    let steps : List Step := [⟨.current, .evaluate body⟩, ⟨.current, .report⟩]
    (s.run steps).2 = none ∧ s.Traces ⟨.current, .evaluate body⟩ [⟨.current, .report⟩] body := by
  intro body s steps
  have hsteps : ∀ st ∈ steps, st.action.Within .full .flat := by
    intro st hmem body' hbody'
    rcases List.mem_cons.mp hmem with rfl | hmem
    · cases hbody'
      rfl
    · rw [List.mem_singleton.mp hmem] at hbody'
      cases hbody'
  obtain ⟨hunbroken, htraces⟩ := frames_kept (sound_start (Engine.ofConfig {})) hsteps
  exact ⟨hunbroken, (htraces [] _ _ s rfl (.nil s)).1 body rfl⟩

/-- A failure that is reported only after another program has run: the call was active when the
failure was raised, but the report does not name it. -/
theorem report_after_execute :
    let failing := Expr.call "missing" ⟨1, 1⟩ []
    let s := Session.start (Engine.ofConfig {})
    let steps : List Step :=
      [⟨.current, .evaluate failing⟩, ⟨.current, .execute ⟨"p", .literal .nil⟩⟩,
        ⟨.current, .report⟩]
    (∀ st ∈ steps, st.action.Within .full .flat) ∧
      (∃ m, Reaches (Machine.start failing [] .empty (Engine.ofConfig {}).newContext) m ∧
        m.focus = .failure ⟨⟨1, 1⟩, .undefinedName "missing"⟩ ∧
        m.active.map Invocation.frame = [⟨"missing", ⟨1, 1⟩⟩]) ∧
      (s.run steps).1.map Answer.added =
        [[], [], ["[1:1]Runtime Error: missing is not defined", "Stack trace:"]] := by
  intro failing s steps
  refine ⟨?_, ⟨_, .head rfl (.single rfl), rfl, rfl⟩, ?_⟩
  · intro st hmem body hbody
    simp only [steps, List.mem_cons, List.not_mem_nil, or_false] at hmem
    rcases hmem with rfl | rfl | rfl <;> cases hbody <;> rfl
  · decide +kernel

end Session
end TracedEval
