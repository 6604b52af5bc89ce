import TracedEval.Proofs.Machine.Basic

/-!
# What a step does to the calls and the frames

For the frames on the call stack most steps are alike: they do nothing to it. `Effect` lists the
five things that a step can do to the calls under way and to the call stack, `Stepped` adds what the
depth limit has to do with it, and `Steps.stepped` is the only place where the steps themselves are
gone through for this.
-/

namespace TracedEval
namespace Machine

/-- What happens to the calls under way and to the call stack between two states. -/
inductive Effect (s s' : State) : Prop
  | keep (calls : invocations s'.layers = invocations s.layers)
      (stack : s'.context.callStack = s.context.callStack)
  /-- A call starts, and its frame is pushed. -/
  | enter (inv : Invocation) (calls : invocations s'.layers = inv :: invocations s.layers)
      (index : inv.index = s.context.callStack.size)
      (stack : s'.context.callStack = s.context.callStack.enter inv.frame)
      (shallow : inv.inBody = true → s.context.callStack.size < s.context.maxDepth)
  /-- A call returns, and the topmost frame is popped. -/
  | leave (inv : Invocation) (calls : invocations s.layers = inv :: invocations s'.layers)
      (stack : s.context.callStack.leave? = some s'.context.callStack)
  /-- Calls fail, and their frames stay. -/
  | fail (inner : List Invocation) (calls : invocations s.layers = inner ++ invocations s'.layers)
      (stack : s'.context.callStack = s.context.callStack)
  /-- A program ends that runs inside another one; the calls inside of it have failed. -/
  | clear (inner : List Layer) (handler : Expr) (site : Site) (k : List Layer)
      (layers : s.layers = inner ++ .program handler site :: k)
      (calls : invocations s'.layers = invocations k) (stack : s'.context.callStack = ∅)

/-- What is known of every step. -/
structure Stepped (s s' : State) : Prop where
  effect : Effect s s'
  maxDepth : s'.context.maxDepth = s.context.maxDepth
  /-- A function body is about to start only where the depth limit allows it. -/
  entering : ∀ f args, s'.focus = .body f args →
    s'.context.callStack.size ≤ s'.context.maxDepth

section Stepped

variable {k : List Layer} {ctx : Context} {s s' : State}

/-- Most steps do nothing to the calls and to the call stack, and start no body. -/
theorem stepped_keep (calls : invocations s'.layers = invocations s.layers)
    (stack : s'.context.callStack = s.context.callStack)
    (maxDepth : s'.context.maxDepth = s.context.maxDepth)
    (hfocus : ∀ f args, s'.focus ≠ .body f args) : Stepped s s' where
  effect := .keep calls stack
  maxDepth := maxDepth
  entering f args h := absurd h (hfocus f args)

theorem ofResult_ne_body (result : Except Failure Value) (f : Closure) (args : List Value) :
    Focus.ofResult result ≠ .body f args := by
  cases result <;> exact Focus.noConfusion

theorem runsBody_of_follow {pos : Position} {values : List Value} {w : World} {res : Resolution}
    {f : Closure} {args : List Value} (h : (follow pos values w res).1 = .body f args) :
    runsBody res = true := by
  cases res with
  | refused failure => cases h
  | builtin b => exact absurd h (ofResult_ne_body _ f args)
  | body g => rfl

theorem runsBody_resolve {limit size : Nat} {env : Environment} {callee : Option Value}
    {name : String} {pos : Position} {values : List Value}
    (h : runsBody (Resolution.resolve limit size env callee name pos values) = true) :
    size ≤ limit := by
  cases hres : Resolution.resolve limit size env callee name pos values with
  | body f => exact Resolution.size_le_of_resolve hres
  | refused | builtin =>
    rw [hres] at h
    cases h

theorem stepped_enter (focus : Focus) (callee : Option Value) (name : String) (pos : Position)
    (values : List Value) : Stepped ⟨focus, k, ctx⟩ (enter callee name pos values k ctx) where
  effect := .enter _ rfl rfl rfl runsBody_resolve
  maxDepth := rfl
  entering _ _ h := runsBody_resolve (runsBody_of_follow h)

theorem stepped_resume {v : Value} {layer : Layer} (h : layer.resume v k ctx = .next s') :
    Stepped ⟨.value v, layer :: k, ctx⟩ s' := by
  cases layer with
  | operands | letIn | cond | attempt =>
    cases h
    exact stepped_keep rfl rfl rfl fun _ _ => Focus.noConfusion
  | program handler site =>
    cases h
    exact ⟨.clear [] handler site k rfl rfl rfl, rfl, fun _ _ => Focus.noConfusion⟩
  | invocation inv =>
    obtain ⟨stack, hleave, rfl⟩ := resume_invocation_eq_next h
    exact ⟨.leave inv rfl hleave, rfl, fun _ _ => Focus.noConfusion⟩

/-- Where a failure goes: to a layer with a handler, of which only that is left. -/
theorem unwind_eq_next {failure : Failure} {layers : List Layer}
    (h : unwind failure ctx layers = .next s') :
    ∃ inner layer k handler site, layers = inner ++ layer :: k ∧
      s'.focus = .eval handler site ∧ s'.layers = k ∧
      (layer = .attempt handler site ∧ s'.context = ctx ∨
        layer = .program handler site ∧ s'.context = (ctx.report failure).2) := by
  induction layers with
  | nil => cases h
  | cons layer k ih =>
    cases layer with
    | attempt handler site =>
      cases h
      exact ⟨[], _, k, handler, site, rfl, rfl, rfl, .inl ⟨rfl, rfl⟩⟩
    | program handler site =>
      cases h
      exact ⟨[], _, k, handler, site, rfl, rfl, rfl, .inr ⟨rfl, rfl⟩⟩
    | operands | letIn | cond | invocation =>
      obtain ⟨inner, layer, k, handler, site, hlayers, hcase⟩ := ih h
      exact ⟨_ :: inner, layer, k, handler, site, congrArg _ hlayers, hcase⟩

theorem stepped_unwind {failure : Failure} {layers : List Layer}
    (h : unwind failure ctx layers = .next s') : Stepped ⟨.failure failure, layers, ctx⟩ s' := by
  obtain ⟨inner, layer, k, handler, site, rfl, heval, hk, hcase⟩ := unwind_eq_next h
  have hentering : ∀ f args, s'.focus = .body f args →
      s'.context.callStack.size ≤ s'.context.maxDepth := by
    intro f args hbody
    rw [heval] at hbody
    cases hbody
  rcases hcase with ⟨rfl, hctx⟩ | ⟨rfl, hctx⟩
  · have hcalls : invocations (inner ++ .attempt handler site :: k) =
        invocations inner ++ invocations s'.layers := by
      rw [hk, invocations_append, invocations_cons rfl]
    exact ⟨.fail _ hcalls (congrArg Context.callStack hctx), congrArg Context.maxDepth hctx,
      hentering⟩
  · have hstack : s'.context.callStack = ∅ := by
      rw [hctx, Context.callStack_report]
    have hmax : s'.context.maxDepth = ctx.maxDepth := by
      rw [hctx, Context.maxDepth_report]
    exact ⟨.clear inner handler site k rfl (congrArg _ hk) hstack, hmax, hentering⟩

/-- There is nothing else that a step can do. -/
theorem Steps.stepped (h : Steps s s') : Stepped s s' := by
  obtain ⟨focus, layers, ctx⟩ := s
  cases focus with
  | eval e site =>
    cases h
    unfold begin
    split <;> exact stepped_keep rfl rfl rfl fun _ _ => Focus.noConfusion
  | operands t done rest site =>
    cases rest with
    | nil =>
      cases h
      cases t with
      | compute op => exact stepped_keep rfl rfl rfl (ofResult_ne_body _)
      | call | apply => exact stepped_enter _ _ _ _ _
    | cons first rest =>
      cases h
      exact stepped_keep rfl rfl rfl fun _ _ => Focus.noConfusion
  | body f values =>
    cases h
    exact stepped_keep rfl rfl rfl fun _ _ => Focus.noConfusion
  | value v =>
    cases layers with
    | nil => cases h
    | cons layer k => exact stepped_resume h
  | failure f => exact stepped_unwind h

/-! ## Underflow -/

theorem unwind_ne_underflow (failure : Failure) (layers : List Layer) :
    unwind failure ctx layers ≠ .underflow := by
  induction layers with
  | nil => exact Progress.noConfusion
  | cons layer k ih =>
    cases layer with
    | attempt | program => exact Progress.noConfusion
    | operands | letIn | cond | invocation => exact ih

/-- Only the return of a call can go wrong. -/
theorem leave?_eq_none_of_underflow (h : s.step = .underflow) :
    invocations s.layers ≠ [] ∧ s.context.callStack.leave? = none := by
  obtain ⟨focus, layers, ctx⟩ := s
  cases focus with
  | eval | body => cases h
  | operands t done rest site => cases rest <;> cases h
  | value v =>
    cases layers with
    | nil => cases h
    | cons layer k =>
      cases layer with
      | operands | letIn | cond | attempt | program => cases h
      | invocation inv =>
        have hresume : (Layer.invocation inv).resume v k ctx = .underflow := h
        exact ⟨List.cons_ne_nil _ _, resume_invocation_eq_underflow hresume⟩
  | failure f => exact absurd h (unwind_ne_underflow f layers)

end Stepped
end Machine
end TracedEval
