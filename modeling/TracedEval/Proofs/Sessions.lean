import TracedEval.Proofs.Bound
import TracedEval.Session

/-!
# Steps of a session

A step of a session acts on one slot and leaves the others alone. This file opens the steps once, so
that what is known of single evaluations can be carried over to sessions.

* `Session.addressed` is the slot that a step is for, and `Session.step_eq` says what the step does
  in terms of it;
* `Session.slotAt` is a slot that may still have to be made, and `Session.slotAt_of_step` says what a
  step does to each of them;
* `Session.Sound` is what has to be known of the contexts of a session for its steps to go through;
* `Session.run_unbroken`: as long as no function runs a program inside, no step breaks down.
-/

namespace TracedEval

/-! ## One slot at a time -/

/-- The body that an action evaluates. -/
def Action.body? : Action → Option Expr
  | .evaluate body => some body
  | .execute program => some program.body
  | .report | .takeLines | .setEcho _ | .nothing => none

/-- What an action evaluates keeps to the fragments. -/
def Action.Within (here inside : Fragment) (action : Action) : Prop :=
  ∀ body, action.body? = some body → body.within here inside

namespace Session

/-- The slot that a step is for. -/
def addressed (s : Session) (st : Step) : Slot :=
  (s.select st.target).slots[(s.select st.target).current]?.getD (.ofEngine s.engine)

/-- The session with another slot in the current place. -/
def put (s : Session) (slot : Slot) : Session := { s with slots := s.slots.set s.current slot }

theorem engine_select (s : Session) (target : Target) : (s.select target).engine = s.engine := by
  cases target with
  | current | fresh => rfl
  | slot index =>
    rw [select]
    split <;> rfl

/-- What a step does. -/
theorem step_eq (s : Session) (st : Step) :
    s.step st =
      match (s.addressed st).act st.action with
      | .error breakdown => .error breakdown
      | .ok (reply, after) =>
        .ok ((s.addressed st).answer after st.action reply, (s.select st.target).put after) := by
  have haddressed : (s.select st.target).slots[(s.select st.target).current]?.getD
      (.ofEngine (s.select st.target).engine) = s.addressed st := by
    rw [engine_select]
    rfl
  unfold step
  dsimp only
  rw [haddressed]
  cases (s.addressed st).act st.action <;> rfl

/-- A step that goes through is an action on the addressed slot. -/
theorem act_of_step {s s' : Session} {st : Step} {answer : Answer}
    (h : s.step st = .ok (answer, s')) :
    ∃ after, (s.addressed st).act st.action = .ok (answer.reply, after) ∧
      s' = (s.select st.target).put after := by
  rw [step_eq] at h
  cases hact : (s.addressed st).act st.action with
  | error breakdown =>
    rw [hact] at h
    cases h
  | ok result =>
    rw [hact] at h
    cases h
    exact ⟨_, rfl, rfl⟩

/-! ## The slots of a session

A step may make the slot that it is for. So that this is no case of its own, a slot that is not there
yet counts as what it starts as.
-/

/-- A slot, which is a new one if it is not there yet. -/
def slotAt (s : Session) (i : Nat) : Slot := s.slots[i]?.getD (.ofEngine s.engine)

/-- There is a current slot. -/
def HasCurrent (s : Session) : Prop := s.current < s.slots.length

theorem hasCurrent_start (e : Engine) : (start e).HasCurrent := Nat.one_pos

theorem slotAt_start (e : Engine) (i : Nat) : (start e).slotAt i = .ofEngine e := by
  cases i with
  | zero => rfl
  | succ i => rfl

theorem HasCurrent.select {s : Session} (h : s.HasCurrent) (target : Target) :
    (s.select target).HasCurrent := by
  cases target with
  | current => exact h
  | fresh =>
    show s.slots.length < (s.slots ++ [Slot.ofEngine s.engine]).length
    rw [List.length_append]
    exact Nat.lt_succ_self _
  | slot index =>
    rw [Session.select]
    by_cases hindex : index < s.slots.length
    · rw [if_pos hindex]
      exact hindex
    · rw [if_neg hindex]
      exact h

theorem HasCurrent.put {s : Session} (h : s.HasCurrent) (slot : Slot) :
    (s.put slot).HasCurrent := by
  show s.current < (s.slots.set s.current slot).length
  rw [List.length_set]
  exact h

/-- Choosing a slot changes none, and one that is made for it is a new one. -/
theorem slotAt_select (s : Session) (target : Target) (i : Nat) :
    (s.select target).slotAt i = s.slotAt i := by
  cases target with
  | current => rfl
  | fresh =>
    show (s.slots ++ [Slot.ofEngine s.engine])[i]?.getD (.ofEngine s.engine) =
      s.slots[i]?.getD (.ofEngine s.engine)
    by_cases hi : i < s.slots.length
    · rw [List.getElem?_append_left hi]
    · have hle : s.slots.length ≤ i := Nat.not_lt.mp hi
      rw [List.getElem?_append_right hle, List.getElem?_eq_none hle]
      cases i - s.slots.length <;> rfl
  | slot index =>
    rw [Session.select]
    split <;> rfl

theorem slotAt_put_self {s : Session} (h : s.HasCurrent) (slot : Slot) :
    (s.put slot).slotAt s.current = slot := by
  show (s.slots.set s.current slot)[s.current]?.getD (.ofEngine s.engine) = slot
  rw [List.getElem?_set_self h]
  rfl

theorem slotAt_put_of_ne {s : Session} {i : Nat} (h : s.current ≠ i) (slot : Slot) :
    (s.put slot).slotAt i = s.slotAt i := by
  show (s.slots.set s.current slot)[i]?.getD (.ofEngine s.engine) = _
  rw [List.getElem?_set_ne h]
  rfl

theorem addressed_eq_slotAt (s : Session) (st : Step) :
    s.addressed st = s.slotAt (s.select st.target).current := by
  rw [← slotAt_select s st.target]
  unfold addressed slotAt
  rw [engine_select]

theorem hasCurrent_of_step {s s' : Session} {st : Step} {answer : Answer} (hs : s.HasCurrent)
    (h : s.step st = .ok (answer, s')) : s'.HasCurrent := by
  obtain ⟨after, -, rfl⟩ := act_of_step h
  exact (hs.select st.target).put after

/-- A step takes its action on the slot that is the current one then, and keeps all others. -/
theorem slotAt_of_step {s s' : Session} {st : Step} {answer : Answer} (hs : s.HasCurrent)
    (h : s.step st = .ok (answer, s')) (i : Nat) :
    s'.current = i ∧ (s.slotAt i).act st.action = .ok (answer.reply, s'.slotAt i) ∨
      s'.current ≠ i ∧ s'.slotAt i = s.slotAt i := by
  obtain ⟨after, hact, rfl⟩ := act_of_step h
  by_cases hi : (s.select st.target).current = i
  · subst hi
    refine .inl ⟨rfl, ?_⟩
    rw [slotAt_put_self (hs.select st.target), ← addressed_eq_slotAt]
    exact hact
  · refine .inr ⟨hi, ?_⟩
    rw [slotAt_put_of_ne hi, slotAt_select]

/-! ## Soundness -/

/-- The current slot exists, and what the contexts hold on to keeps to a fragment. -/
structure Sound (inside : Fragment) (s : Session) : Prop where
  current_lt : s.current < s.slots.length
  within : ∀ slot ∈ s.slots, slot.context.environment.within inside

variable {here inside : Fragment} {s s' : Session} {st : Step}

theorem sound_start (e : Engine) : (start e).Sound inside where
  current_lt := hasCurrent_start e
  within slot hmem := by
    rw [List.mem_singleton.mp hmem]
    exact Environment.within_initial

theorem Sound.select (h : s.Sound inside) (target : Target) : (s.select target).Sound inside where
  current_lt := HasCurrent.select h.current_lt target
  within slot hmem := by
    cases target with
    | current => exact h.within slot hmem
    | fresh =>
      -- a new slot starts with the initial bindings, which call nothing
      rcases List.mem_append.mp hmem with hmem | hmem
      · exact h.within slot hmem
      · rw [List.mem_singleton.mp hmem]
        exact Environment.within_initial
    | slot index =>
      rw [Session.select] at hmem
      split at hmem <;> exact h.within slot hmem

theorem Sound.within_slotAt (h : s.Sound inside) (i : Nat) :
    (s.slotAt i).context.environment.within inside := by
  rw [slotAt]
  cases hslot : s.slots[i]? with
  | none => exact Environment.within_initial
  | some slot => exact h.within slot (List.mem_of_getElem? hslot)

theorem Sound.within_addressed (h : s.Sound inside) (st : Step) :
    (s.addressed st).context.environment.within inside := by
  rw [addressed_eq_slotAt]
  exact h.within_slotAt _

theorem Sound.put (h : s.Sound inside) {slot : Slot}
    (hslot : slot.context.environment.within inside) : (s.put slot).Sound inside where
  current_lt := HasCurrent.put h.current_lt slot
  within other hmem := by
    rcases List.mem_or_eq_of_mem_set hmem with hmem | rfl
    · exact h.within other hmem
    · exact hslot

end Session

/-! ## Nothing breaks down -/

/-- The frames that an evaluation begins with stay where they are, as long as no program runs
inside. -/
theorem Context.evaluate_ends {here inside : Fragment} (hinside : inside.execute = false)
    {base : List Frame} (hbase : here.execute → base = []) {body : Expr}
    (hbody : body.within here inside) {ctx : Context} (henv : ctx.environment.within inside)
    (hbelow : base <+: ctx.callStack.frames) : (ctx.evaluate body).Ends base ctx.maxDepth := by
  have hbound : ctx.maxDepth ≤ base.length + ctx.nestingBound := by
    unfold nestingBound
    omega
  exact Expr.eval_ends hinside hbase hbody Value.allWithin_nil Scope.within_empty henv hbelow hbound

section Unbroken

variable {here inside : Fragment} (hinside : inside.execute = false)

include hinside

/-- A direct evaluation ends, and the bindings that it leaves keep to the fragment. -/
theorem Context.evaluate_meets {body : Expr} (hbody : body.within here inside) {ctx : Context}
    (henv : ctx.environment.within inside) :
    (ctx.evaluate body).Meets (fun _ ctx' => ctx'.environment.within inside)
      (fun _ ctx' => ctx'.environment.within inside) False := by
  have hwithin : (ctx.evaluate body).Within inside fun value => value.within inside :=
    Expr.eval_within hbody Value.allWithin_nil Scope.within_empty henv ctx.nestingBound
  have hends := Context.evaluate_ends hinside (fun _ => rfl) hbody henv List.nil_prefix
  exact (hwithin.and hends).mono (fun _ _ h => h.1.2) (fun _ _ h => h.1) (fun h => h.2)

/-- No action breaks down. -/
theorem Slot.act_ok {slot : Slot} (hslot : slot.context.environment.within inside)
    {action : Action} (haction : action.Within here inside) :
    ∃ reply after, slot.act action = .ok (reply, after) ∧
      after.context.environment.within inside := by
  cases action with
  | evaluate body =>
    have hmeets := Context.evaluate_meets hinside (haction body rfl) hslot
    rcases hmeets.ok_or_error with ⟨value, ctx, ho, henv⟩ | ⟨failure, ctx, ho, henv⟩
    · exact ⟨.value value, { slot with context := ctx }, by simp only [act, ho], henv⟩
    · exact ⟨.failed failure, ⟨ctx, some failure⟩, by simp only [act, ho], henv⟩
  | execute program =>
    have hmeets := Context.evaluate_meets hinside (haction program.body rfl) hslot
    rcases hmeets.ok_or_error with ⟨value, ctx, ho, henv⟩ | ⟨failure, ctx, ho, henv⟩
    · refine ⟨.value value, { slot with context := ctx.clearStack }, ?_, henv⟩
      simp only [act, Context.execute, ho, Context.settle]
    · have hreported : (ctx.report failure).2.environment.within inside := by
        rwa [Context.environment_report]
      refine ⟨.ended (ctx.report failure).1, { slot with context := (ctx.report failure).2 }, ?_,
        hreported⟩
      simp only [act, Context.execute, ho, Context.settle]
  | report =>
    cases hpending : slot.pending with
    | none => exact ⟨.nothing, slot, by simp only [act, hpending], hslot⟩
    | some failure =>
      have hreported : (slot.context.report failure).2.environment.within inside := by
        rwa [Context.environment_report]
      exact ⟨.reported (slot.context.report failure).1, ⟨(slot.context.report failure).2, none⟩,
        by simp only [act, hpending], hreported⟩
  | takeLines | setEcho | nothing => exact ⟨_, _, rfl, hslot⟩

namespace Session

variable {s : Session} {steps : List Step}

theorem step_ok (hs : s.Sound inside) {st : Step} (hst : st.action.Within here inside) :
    ∃ answer s', s.step st = .ok (answer, s') ∧ s'.Sound inside := by
  obtain ⟨reply, after, hact, hafter⟩ := Slot.act_ok hinside (hs.within_addressed st) hst
  refine ⟨(s.addressed st).answer after st.action reply, (s.select st.target).put after, ?_,
    (hs.select st.target).put hafter⟩
  rw [step_eq, hact]

theorem sound_of_step (hs : s.Sound inside) {s' : Session} {st : Step} {answer : Answer}
    (hst : st.action.Within here inside) (h : s.step st = .ok (answer, s')) : s'.Sound inside := by
  obtain ⟨answer', s'', hstep, hs'⟩ := step_ok hinside hs hst
  rw [h] at hstep
  cases hstep
  exact hs'

/-- As long as no function runs a program inside, no step of a session breaks down. -/
theorem run_unbroken (hs : s.Sound inside)
    (hsteps : ∀ st ∈ steps, st.action.Within here inside) : (s.run steps).2 = none := by
  induction steps generalizing s with
  | nil => rfl
  | cons st rest ih =>
    rw [List.forall_mem_cons] at hsteps
    obtain ⟨answer, s', hstep, hs'⟩ := step_ok hinside hs hsteps.1
    rw [run, hstep]
    exact ih hs' hsteps.2

end Session

end Unbroken

/-! ## Parts of a run -/

namespace Session

/-- Steps that all go through lead from one session to another. -/
inductive Takes : Session → List Step → Session → Prop
  | nil (s : Session) : Takes s [] s
  | cons {s s' s'' : Session} {st : Step} {rest : List Step} {answer : Answer}
      (step : s.step st = .ok (answer, s')) (next : Takes s' rest s'') : Takes s (st :: rest) s''

theorem Takes.sound {here inside : Fragment} (hinside : inside.execute = false) {s s' : Session}
    {steps : List Step} (h : s.Takes steps s') (hs : s.Sound inside)
    (hsteps : ∀ st ∈ steps, st.action.Within here inside) : s'.Sound inside := by
  induction h with
  | nil s => exact hs
  | cons step _ ih =>
    rw [List.forall_mem_cons] at hsteps
    exact ih (sound_of_step hinside hs hsteps.1 step) hsteps.2

end Session
end TracedEval
