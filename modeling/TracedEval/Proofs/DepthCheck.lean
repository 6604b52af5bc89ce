import TracedEval.Proofs.Blame
import TracedEval.Proofs.Calls
import TracedEval.Proofs.Machine.Adequacy
import TracedEval.Proofs.Machine.Effect
import TracedEval.Proofs.Machine.Events

/-!
# What the depth check counts

The depth check counts the frames on the call stack, and these need not be the calls that are under
way. A failure that is swallowed leaves the frames of the calls that it has ended, and a program
that runs inside another one takes away the frames of the calls that it runs in when it ends. Both
can be told from the run alone, without a look at the call stack:

* `Ledger` has the number of calls that ended in one way or the other, and `Tally` is `Reaches` with
  the ledger kept on the way;
* `Tally.balanced`: the frames are the calls under way, and those left over, without those orphaned;
* `Context.Refuses` is that the depth check of a context refuses a call, and `Context.refuses_of_le`
  that it does so on a call stack that has reached the limit;
* `depth_check_counts` says which calls are too deep, for every call of every program.
-/

namespace TracedEval

/-! ## The depth check -/

namespace Context

/-- A call with this frame is refused by the depth check, in whichever way it is made: it fails with
the depth limit, whatever is called and however bodies are run, and does nothing but push the frame.
-/
structure Refuses (ctx : Context) (frame : Frame) : Prop where
  enter : ctx.enter frame.name frame.position =
    .error ⟨frame.position, .depthExceeded ctx.maxDepth⟩ (ctx.entered frame)
  call : ∀ run values, ctx.call run frame.name frame.position values =
    .error ⟨frame.position, .depthExceeded ctx.maxDepth⟩ (ctx.entered frame)
  callValue : ∀ run callee values, ctx.callValue run callee frame.name frame.position values =
    .error ⟨frame.position, .depthExceeded ctx.maxDepth⟩ (ctx.entered frame)

variable {ctx : Context} {frame : Frame}

theorem refuses_of_le (full : ctx.maxDepth ≤ ctx.callStack.size) : ctx.Refuses frame where
  enter := by
    rw [enter_eq_entered, size_entered, if_pos (Nat.lt_succ_of_le full)]
  call run values := by
    rw [call_eq_track]
    exact ctx.track_full run frame.name frame.position values none full
  callValue run callee values := by
    rw [callValue_eq_track]
    exact ctx.track_full run frame.name frame.position values (some callee) full

/-- Below the limit a call is let in. -/
theorem enter_of_room (room : ctx.callStack.size < ctx.maxDepth) :
    ctx.enter frame.name frame.position = .ok () (ctx.entered frame) := by
  rw [enter_eq_entered, size_entered, if_neg (Nat.not_lt.mpr room)]

end Context

namespace Machine

/-! ## The ledger -/

/-- How calls and frames have come apart. -/
structure Ledger where
  /-- The calls that were under way when a program inside has ended for the last time. -/
  orphaned : Nat
  /-- The calls that have failed since then, because of a failure that was swallowed. -/
  leftover : Nat

/-- No program inside has ended, and no failure was swallowed. -/
def Ledger.new : Ledger := ⟨0, 0⟩

/-- A program inside ends, above these layers. -/
def Ledger.ended (k : List Layer) : Ledger := ⟨(invocations k).length, 0⟩

/-- A failure goes to the nearest layer that handles failures. -/
def Ledger.unwind (ledger : Ledger) : List Layer → Ledger
  | [] => ledger
  | .attempt .. :: _ => ledger
  | .program .. :: k => .ended k
  | .invocation _ :: k => Ledger.unwind { ledger with leftover := ledger.leftover + 1 } k
  | _ :: k => ledger.unwind k

/-- The ledger after the next step. -/
def State.book (ledger : Ledger) : State → Ledger
  | ⟨.value _, .program .. :: k, _⟩ => .ended k
  | ⟨.failure _, k, _⟩ => ledger.unwind k
  | _ => ledger

/-- Any number of steps lead from one state to the other, and this is the ledger of them. -/
inductive Tally (s : State) : Ledger → State → Prop
  | refl : Tally s .new s
  | tail {ledger : Ledger} {a b : State} (tally : Tally s ledger a) (step : Steps a b) :
      Tally s (a.book ledger) b

theorem Tally.reaches {s a : State} {ledger : Ledger} (h : Tally s ledger a) : Reaches s a := by
  induction h with
  | refl => exact .refl
  | tail _ hstep ih => exact .tail ih hstep

theorem Reaches.tally {s a : State} (h : Reaches s a) : ∃ ledger, Tally s ledger a := by
  induction h with
  | refl => exact ⟨.new, .refl⟩
  | tail _ hstep ih =>
    obtain ⟨ledger, htally⟩ := ih
    exact ⟨_, htally.tail hstep⟩

/-! ## The balance -/

/-- The frames are as many as the calls under way and those left over, without those orphaned. -/
def Balanced (ledger : Ledger) (k : List Layer) (stack : CallStack) : Prop :=
  stack.size + ledger.orphaned = (invocations k).length + ledger.leftover

section Balance

variable {ledger : Ledger} {k : List Layer} {ctx : Context} {s s' : State}

theorem balanced_ended (k : List Layer) : Balanced (.ended k) k ∅ :=
  Nat.zero_add _

theorem balanced_begin (h : Balanced ledger k ctx.callStack) (site : Site) (shape : Shape) :
    Balanced ledger (begin site k ctx shape).layers (begin site k ctx shape).context.callStack := by
  cases shape <;> exact h

theorem balanced_perform {t : Task} {done : List Value} {site : Site}
    (h : Balanced ledger k ctx.callStack) :
    Balanced ledger (perform site done k ctx t).layers
      (perform site done k ctx t).context.callStack := by
  have henter : ∀ (callee : Option Value) (name : String) (pos : Position) (values : List Value),
      Balanced ledger (enter callee name pos values k ctx).layers
        (enter callee name pos values k ctx).context.callStack := by
    intro callee name pos values
    unfold Balanced at h
    show ctx.callStack.size + 1 + ledger.orphaned =
      (invocations k).length + 1 + ledger.leftover
    omega
  cases t with
  | compute => exact h
  | call | apply => exact henter _ _ _ _

theorem balanced_resume {v : Value} {layer : Layer}
    (h : Balanced ledger (layer :: k) ctx.callStack) (hstep : layer.resume v k ctx = .next s') :
    Balanced (State.book ledger ⟨.value v, layer :: k, ctx⟩) s'.layers s'.context.callStack := by
  cases layer with
  | operands | letIn | cond | attempt =>
    cases hstep
    exact h
  | program =>
    cases hstep
    exact balanced_ended k
  | invocation inv =>
    obtain ⟨stack, hleave, rfl⟩ := resume_invocation_eq_next hstep
    obtain ⟨frame, hstack⟩ := CallStack.eq_enter_of_leave? hleave
    unfold Balanced at h
    rw [invocations_invocation, List.length_cons, hstack, CallStack.size_enter] at h
    show stack.size + ledger.orphaned = (invocations k).length + ledger.leftover
    omega

theorem balanced_unwind {failure : Failure} {layers : List Layer}
    (h : Balanced ledger layers ctx.callStack) (hstep : unwind failure ctx layers = .next s') :
    Balanced (ledger.unwind layers) s'.layers s'.context.callStack := by
  induction layers generalizing ledger with
  | nil => cases hstep
  | cons layer k ih =>
    cases layer with
    | attempt =>
      cases hstep
      exact h
    | program =>
      cases hstep
      show Balanced (.ended k) k (ctx.report failure).2.callStack
      rw [Context.callStack_report]
      exact balanced_ended k
    | invocation inv =>
      -- the call is over, and its frame stays
      refine ih ?_ hstep
      unfold Balanced at h ⊢
      rw [invocations_invocation, List.length_cons] at h
      dsimp only
      omega
    | operands | letIn | cond => exact ih h hstep

/-- A step keeps the balance. -/
theorem Balanced.step (h : Balanced ledger s.layers s.context.callStack) (hstep : Steps s s') :
    Balanced (s.book ledger) s'.layers s'.context.callStack := by
  obtain ⟨focus, layers, ctx⟩ := s
  cases focus with
  | eval e site =>
    cases hstep
    exact balanced_begin h site e.shape
  | operands t done rest site =>
    cases rest with
    | nil =>
      cases hstep
      exact balanced_perform h
    | cons =>
      cases hstep
      exact h
  | body =>
    cases hstep
    exact h
  | value v =>
    cases layers with
    | nil => cases hstep
    | cons layer k => exact balanced_resume h hstep
  | failure f => exact balanced_unwind h hstep

/-- A run keeps the balance. -/
theorem Tally.balanced (h : Tally s ledger s')
    (hstart : Balanced .new s.layers s.context.callStack) :
    Balanced ledger s'.layers s'.context.callStack := by
  induction h with
  | refl => exact hstart
  | tail _ hstep ih => exact ih.step hstep

theorem Reaches.maxDepth (h : Reaches s s') : s'.context.maxDepth = s.context.maxDepth := by
  induction h with
  | refl => rfl
  | tail _ hstep ih => rw [hstep.stepped.maxDepth, ih]

end Balance

/-! ## Calls that are too deep -/

/-- The frame of the call that is next, if the next step is a call. -/
def State.nextCall? (s : State) : Option Frame :=
  match s.focus with
  | .operands (.call name pos) _ [] _ => some ⟨name, pos⟩
  | .operands (.apply name pos) _ [] _ => some ⟨name, pos⟩
  | _ => none

/-- The next step fails with the depth limit. -/
def State.Exceeds (s : State) : Prop :=
  ∃ s', Steps s s' ∧ ∃ pos limit, s'.focus = .failure ⟨pos, .depthExceeded limit⟩

/-- The call of this frame has failed with the depth limit, and has done nothing but push the frame.
-/
def State.refused (s : State) (frame : Frame) : State :=
  ⟨.failure ⟨frame.position, .depthExceeded s.context.maxDepth⟩,
    .invocation ⟨frame, s.context.callStack.size, false⟩ :: s.layers, s.context.entered frame⟩

section Exceeds

variable {ctx : Context} {callee : Option Value} {name : String} {pos : Position}
  {values : List Value} {k : List Layer} {s : State} {frame : Frame}

/-- A value that is called within the limit does not fail with it. -/
theorem ne_depthExceeded_of_ofValue {w : World} {value : Value} {failure : Failure}
    (h : (follow pos values w (.ofValue value name pos values)).1 = .failure failure)
    (limit : Nat) : failure.fault ≠ .depthExceeded limit := by
  cases value with
  | function f =>
    unfold Resolution.ofValue at h
    dsimp only at h
    split at h <;> cases h
    exact Fault.noConfusion
  | builtin b =>
    intro hfault
    have hcall : (b.runOn pos values w).1 = .error failure := by
      cases hresult : (b.runOn pos values w).1 with
      | ok v => rw [Resolution.ofValue, follow, hresult] at h; cases h
      | error f => rw [Resolution.ofValue, follow, hresult] at h; cases h; rfl
    have hnot := Builtin.ofCall_call (Position.eq_error_of_blame hcall)
    rw [hfault] at hnot
    cases hnot
  | nil | boolean | number | string =>
    cases h
    exact Fault.noConfusion

/-- Nothing but the depth check fails with the depth limit. -/
theorem lt_of_depthExceeded {failure : Failure} {limit : Nat}
    (h : (enter callee name pos values k ctx).focus = .failure failure)
    (hfault : failure.fault = .depthExceeded limit) : ctx.maxDepth < ctx.callStack.size + 1 := by
  have hfollow : (follow pos values ctx.world (Resolution.resolve ctx.maxDepth
      (ctx.callStack.size + 1) ctx.environment callee name pos values)).1 = .failure failure := h
  rcases Resolution.resolve_cases ctx.maxDepth (ctx.callStack.size + 1) ctx.environment callee name
    pos values with ⟨hlt, -⟩ | ⟨-, value, -, hres⟩ | ⟨-, fault, hget, hres⟩
  · exact hlt
  · rw [hres] at hfollow
    exact absurd hfault (ne_depthExceeded_of_ofValue hfollow limit)
  · rw [hres] at hfollow
    cases hfollow
    -- a name that is not bound
    have hnot := Environment.ofCall_get hget
    have hdeep : fault = .depthExceeded limit := hfault
    rw [hdeep] at hnot
    cases hnot

/-- The next step is a call. -/
theorem step_of_nextCall? (hcall : s.nextCall? = some frame) :
    ∃ callee values,
      Steps s (enter callee frame.name frame.position values s.layers s.context) := by
  obtain ⟨focus, k, ctx⟩ := s
  unfold State.nextCall? at hcall
  dsimp only at hcall
  split at hcall <;> cases hcall <;> exact ⟨_, _, rfl⟩

theorem steps_refused (hcall : s.nextCall? = some frame)
    (hle : s.context.maxDepth ≤ s.context.callStack.size) : Steps s (s.refused frame) := by
  obtain ⟨callee, values, hstep⟩ := step_of_nextCall? hcall
  rwa [enter_of_lt (Nat.lt_succ_of_le hle)] at hstep

/-- For a call it is the call stack that decides. -/
theorem exceeds_iff (hcall : s.nextCall? = some frame) :
    s.Exceeds ↔ s.context.maxDepth ≤ s.context.callStack.size := by
  constructor
  · rintro ⟨s', hstep', pos, limit, hfocus⟩
    obtain ⟨callee, values, hstep⟩ := step_of_nextCall? hcall
    obtain rfl := hstep.unique hstep'
    exact Nat.lt_succ_iff.mp (lt_of_depthExceeded hfocus rfl)
  · intro hle
    exact ⟨s.refused frame, steps_refused hcall hle, _, _, rfl⟩

end Exceeds

/-- For every program, however it swallows failures and whatever programs it runs inside: a call is
too deep if and only if the calls under way and those left over, without those orphaned, are as many
as the depth limit allows. Nothing is looked up or run then. The run that is looked at is the one
that evaluation makes, and the calls that are too deep in it are those that the depth check of their
context refuses; all others it lets in. -/
theorem depth_check_counts (body : Expr) {ctx : Context} (hempty : ctx.callStack = ∅) :
    (∀ bound, Follows (start body [] .empty ctx) (arriveAt []) []
      (body.eval (runBody bound) [] .empty ctx)) ∧
    (∀ s, Reaches (start body [] .empty ctx) s →
      ∃ ledger, Tally (start body [] .empty ctx) ledger s) ∧
    ∀ s ledger, Tally (start body [] .empty ctx) ledger s → ∀ frame, s.nextCall? = some frame →
      (s.Exceeds ↔ ctx.maxDepth + ledger.orphaned ≤ s.active.length + ledger.leftover) ∧
      (s.Exceeds → Steps s (s.refused frame) ∧ s.context.Refuses frame) ∧
      (¬ s.Exceeds → s.context.enter frame.name frame.position =
        .ok () (s.context.entered frame)) := by
  refine ⟨fun bound => eval_follows bound body [] .empty ctx, fun s hreach => hreach.tally, ?_⟩
  intro s ledger htally frame hcall
  have hbalanced : Balanced ledger s.layers s.context.callStack := by
    refine htally.balanced ?_
    show ctx.callStack.size + 0 = 0 + 0
    rw [hempty]
    rfl
  have hmax : s.context.maxDepth = ctx.maxDepth := htally.reaches.maxDepth
  have hactive : s.active.length = (invocations s.layers).length := List.length_reverse
  have hexceeds := exceeds_iff hcall
  refine ⟨?_, fun hdeep => ?_, fun hroom => ?_⟩
  · unfold Balanced at hbalanced
    rw [hexceeds, hmax, hactive]
    omega
  · exact ⟨steps_refused hcall (hexceeds.mp hdeep), Context.refuses_of_le (hexceeds.mp hdeep)⟩
  · rw [hexceeds, Nat.not_le] at hroom
    exact Context.enter_of_room hroom

/-- The frame of a call that was swallowed counts. -/
theorem depth_check_counts_swallowed :
    let body := Expr.seq
      [.attempt (.call "missing" ⟨1, 1⟩ []) (.literal .nil), .call "print" ⟨2, 1⟩ []]
    let ctx := Context.new 1 .text (.new none true)
    ∃ s ledger, Tally (start body [] .empty ctx) ledger s ∧
      s.nextCall? = some ⟨"print", ⟨2, 1⟩⟩ ∧ s.active = [] ∧
      Steps s (s.refused ⟨"print", ⟨2, 1⟩⟩) ∧ s.context.Refuses ⟨"print", ⟨2, 1⟩⟩ ∧
      1 + ledger.orphaned ≤ ledger.leftover := by
  intro body ctx
  let s := (start body [] .empty ctx).after 11
  have hempty : ctx.callStack = ∅ := rfl
  obtain ⟨-, htallied, hcounts⟩ := depth_check_counts body hempty
  obtain ⟨ledger, htally⟩ := htallied s (reaches_after _ 11)
  obtain ⟨hiff, hrefused, -⟩ := hcounts s ledger htally ⟨"print", ⟨2, 1⟩⟩ rfl
  have hexceeds : s.Exceeds := ⟨_, rfl, _, _, rfl⟩
  have hcount : 1 + ledger.orphaned ≤ 0 + ledger.leftover := hiff.mp hexceeds
  rw [Nat.zero_add] at hcount
  obtain ⟨hsteps, hrefuses⟩ := hrefused hexceeds
  exact ⟨s, ledger, htally, rfl, rfl, hsteps, hrefuses, hcount⟩

/-- The depth check does not count the calls under way: after a failure was swallowed, a call is too
deep although none is under way; and after a program has ended inside of a call, another call is not
too deep although as many are under way as the limit allows. -/
theorem depth_check_miscounts :
    let ctx := Context.new 1 .text (.new none true)
    let swallowing := Expr.seq
      [.attempt (.call "missing" ⟨1, 1⟩ []) (.literal .nil), .call "print" ⟨2, 1⟩ []]
    let nesting := Expr.seq
      [.defineFunction "f" 0 (.seq
        [.execute (.literal .nil) (.literal .nil), .call "print" ⟨1, 1⟩ []]),
        .call "f" ⟨2, 1⟩ []]
    (∃ s, Reaches (start swallowing [] .empty ctx) s ∧ s.nextCall? = some ⟨"print", ⟨2, 1⟩⟩ ∧
      s.active.length < ctx.maxDepth ∧ s.Exceeds) ∧
    ∃ s, Reaches (start nesting [] .empty ctx) s ∧ s.nextCall? = some ⟨"print", ⟨1, 1⟩⟩ ∧
      ctx.maxDepth ≤ s.active.length ∧ ¬ s.Exceeds := by
  intro ctx swallowing nesting
  let s₁ := (start swallowing [] .empty ctx).after 11
  let s₂ := (start nesting [] .empty ctx).after 22
  refine ⟨⟨s₁, reaches_after _ 11, rfl, Nat.zero_lt_one, _, rfl, _, _, rfl⟩,
    ⟨s₂, reaches_after _ 22, rfl, Nat.le_refl 1, ?_⟩⟩
  rintro ⟨s', hstep, pos, limit, hfocus⟩
  cases hstep
  cases hfocus

end Machine
end TracedEval
