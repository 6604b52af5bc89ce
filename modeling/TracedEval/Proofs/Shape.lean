import TracedEval.Proofs.Outcome

/-!
# The shape of a body

Nearly every form of a body does the same: it evaluates its operands from left to right and then
does one thing with their values. This file says so once, so that a proof about evaluation has five
cases instead of one for each form:

* `Operation` is what a form does by itself, and `Operation.run` does it on a `World`: the part of a
  context that is left when the call stack and the settings are taken away;
* `Resolution` is what a tracked call comes to, and `Context.track` is both kinds of tracked call in
  one, the only thing that touches the call stack or runs a function;
* `Task` is either of the two;
* `Expr.shape` splits a body into a task with its operands, or into one of the four forms that
  choose what is evaluated, and `Expr.eval_shape` is evaluation in these terms;
* `Expr.shapeInduction` is induction along these five cases.
-/

namespace TracedEval

/-! ## What is left without the call stack -/

/-- What evaluation changes other than the call stack. -/
structure World where
  environment : Environment
  output : Output
  nextIdentity : Nat

/-- The context without its call stack and its settings. -/
def Context.world (ctx : Context) : World where
  environment := ctx.environment
  output := ctx.output
  nextIdentity := ctx.nextIdentity

/-- The context with this world in place of its own. -/
def World.on (w : World) (ctx : Context) : Context :=
  { ctx with environment := w.environment, output := w.output, nextIdentity := w.nextIdentity }

@[simp] theorem Context.world_on (ctx : Context) : ctx.world.on ctx = ctx := rfl

@[simp] theorem World.world_on (w : World) (ctx : Context) : (w.on ctx).world = w := rfl

@[simp] theorem World.callStack_on (w : World) (ctx : Context) :
    (w.on ctx).callStack = ctx.callStack := rfl

/-- The outcome of something that only changed the world. -/
def Outcome.ofWorld {ε α : Type} (ctx : Context) : Except ε α × World → Outcome ε α
  | (.ok value, w) => .ok value (w.on ctx)
  | (.error e, w) => .error e (w.on ctx)

/-- A fault becomes a failure at this place. -/
def Position.blame {α : Type} (pos : Position) (result : Except Fault α) : Except Failure α :=
  result.mapError fun fault => ⟨pos, fault⟩

@[simp] theorem Position.blame_ok {α : Type} (pos : Position) (value : α) :
    pos.blame (.ok value) = .ok value := rfl

/-! ## Operations -/

/-- Calls a builtin. -/
def Builtin.runOn (b : Builtin) (pos : Position) (values : List Value) (w : World) :
    Except Failure Value × World :=
  (pos.blame (b.call values w.output).1, { w with output := (b.call values w.output).2 })

/-- What a form does by itself once its operands have values: everything but a tracked call. -/
inductive Operation
  | literal (value : Literal)
  | argument (index : Nat)
  | localVar (name : String)
  | global (name : String) (position : Position)
  | builtin (function : Builtin) (position : Position)
  | binary (operator : Operator) (position : Position)
  | negate (position : Position)
  | seq
  | raise (position : Position) (message : String)
  | function (name : String) (arity : Nat) (body : Expr)
  | define (name : String)
  | depth
  | display

/-- Does an operation. Of the call stack it can see no more than how deep it is. -/
def Operation.run (depth : Nat) (args : List Value) (scope : Scope) (values : List Value)
    (w : World) : Operation → Except Failure Value × World
  | .literal value => (.ok value.value, w)
  | .argument index => (.ok (args[index]?.getD .nil), w)
  | .localVar name => (.ok ((scope.get? name).getD .nil), w)
  | .global name pos => (pos.blame (w.environment.get name), w)
  | .builtin b pos => b.runOn pos values w
  | .binary op pos => (pos.blame (op.apply (values.getD 0 .nil) (values.getD 1 .nil)), w)
  | .negate pos => (pos.blame (values.getD 0 .nil).negate, w)
  | .seq => (.ok (values.getLast?.getD .nil), w)
  | .raise pos message => (.error ⟨pos, .raised message⟩, w)
  | .function name arity body =>
    (.ok (.function ⟨name, arity, body, scope, w.nextIdentity⟩),
      { w with nextIdentity := w.nextIdentity + 1 })
  | .define name =>
    (.ok .nil, { w with environment := w.environment.define name (values.getD 0 .nil) })
  | .depth => (.ok (.number (Float.ofNat depth)), w)
  | .display => (.ok (.string (values.getD 0 .nil).display), w)

/-! ## Tracked calls -/

/-- What a tracked call comes to. -/
inductive Resolution
  /-- Nothing is run. -/
  | refused (failure : Failure)
  | builtin (b : Builtin)
  | body (f : Closure)

/-- What the call of a value comes to. -/
def Resolution.ofValue (callee : Value) (name : String) (pos : Position) (values : List Value) :
    Resolution :=
  match callee with
  | .function f =>
    if values.length = f.arity then body f
    else refused ⟨pos, .argumentCount name f.arity values.length⟩
  | .builtin b => builtin b
  | _ => refused ⟨pos, .notCallable name⟩

/-- What a tracked call comes to when the call stack, its own frame included, has this size. Without
a callee it is the global of that name that is called. -/
def Resolution.resolve (limit size : Nat) (env : Environment) (callee : Option Value)
    (name : String) (pos : Position) (values : List Value) : Resolution :=
  if limit < size then refused ⟨pos, .depthExceeded limit⟩
  else
    match callee with
    | some callee => ofValue callee name pos values
    | none =>
      match env.get name with
      | .ok callee => ofValue callee name pos values
      | .error fault => refused ⟨pos, fault⟩

namespace Resolution

variable {limit size : Nat} {env : Environment} {callee : Option Value} {name : String}
  {pos : Position} {values : List Value}

/-- What a tracked call can come to: it is too deep, there is a value to call, or its name is not
bound to one. -/
theorem resolve_cases (limit size : Nat) (env : Environment) (callee : Option Value)
    (name : String) (pos : Position) (values : List Value) :
    (limit < size ∧
      resolve limit size env callee name pos values = refused ⟨pos, .depthExceeded limit⟩) ∨
    (size ≤ limit ∧ ∃ value, (callee = some value ∨ env.get name = .ok value) ∧
      resolve limit size env callee name pos values = ofValue value name pos values) ∨
    (size ≤ limit ∧ ∃ fault, env.get name = .error fault ∧
      resolve limit size env callee name pos values = refused ⟨pos, fault⟩) := by
  unfold resolve
  by_cases hsize : limit < size
  · exact .inl ⟨hsize, if_pos hsize⟩
  · have hle : size ≤ limit := Nat.not_lt.mp hsize
    rw [if_neg hsize]
    cases callee with
    | some value => exact .inr (.inl ⟨hle, value, .inl rfl, rfl⟩)
    | none =>
      cases hget : env.get name with
      | ok value => exact .inr (.inl ⟨hle, value, .inr rfl, rfl⟩)
      | error fault => exact .inr (.inr ⟨hle, fault, rfl, rfl⟩)

/-- The body of a function is run only within the depth limit. -/
theorem size_le_of_resolve {f : Closure}
    (h : resolve limit size env callee name pos values = body f) : size ≤ limit := by
  rcases resolve_cases limit size env callee name pos values with
    ⟨-, hrefused⟩ | ⟨hle, -⟩ | ⟨hle, -⟩
  · rw [hrefused] at h
    cases h
  · exact hle
  · exact hle

/-- The function of which the body is run is the one that is called. -/
theorem eq_function_of_ofValue {called : Value} {f : Closure}
    (h : ofValue called name pos values = body f) : called = .function f := by
  cases called with
  | function g =>
    simp only [ofValue] at h
    split at h <;> cases h
    rfl
  | nil | boolean | number | string | builtin => cases h

/-- The function of which the body is run is the callee, or it is bound to the name. -/
theorem callee_of_resolve {f : Closure}
    (h : resolve limit size env callee name pos values = body f) :
    callee = some (.function f) ∨ env.get name = .ok (.function f) := by
  rcases resolve_cases limit size env callee name pos values with
    ⟨-, hrefused⟩ | ⟨-, value, hvalue, hcalled⟩ | ⟨-, fault, -, hrefused⟩
  · rw [hrefused] at h
    cases h
  · rw [hcalled] at h
    rwa [eq_function_of_ofValue h] at hvalue
  · rw [hrefused] at h
    cases h

end Resolution

/-- The context with one more frame on its call stack. -/
def Context.entered (ctx : Context) (frame : Frame) : Context :=
  { ctx with callStack := ctx.callStack.enter frame }

@[simp] theorem CallStack.length_frames (s : CallStack) : s.frames.length = s.size := by
  simp [CallStack.frames, CallStack.size]

/-- What a call that returns leaves is what there was before its frame was pushed. -/
theorem CallStack.eq_enter_of_leave? {s s' : CallStack} (h : s.leave? = some s') :
    ∃ frame, s = s'.enter frame := by
  obtain ⟨active⟩ := s
  cases active with
  | nil => cases h
  | cons top outer =>
    cases h
    exact ⟨top, rfl⟩

theorem CallStack.leave?_of_frames {s : CallStack} {base : List Frame} {frame : Frame}
    (h : s.frames = base ++ [frame]) : ∃ s', s.leave? = some s' ∧ s'.frames = base := by
  obtain ⟨active⟩ := s
  cases active with
  | nil => exact absurd h.symm (List.append_ne_nil_of_right_ne_nil _ (List.cons_ne_nil _ _))
  | cons top outer =>
    rw [CallStack.frames, List.reverse_cons] at h
    exact ⟨⟨outer⟩, rfl, (List.append_inj' h rfl).1⟩

@[simp] theorem Context.frames_entered (ctx : Context) (frame : Frame) :
    (ctx.entered frame).callStack.frames = ctx.callStack.frames ++ [frame] :=
  CallStack.frames_enter frame ctx.callStack

@[simp] theorem Context.size_entered (ctx : Context) (frame : Frame) :
    (ctx.entered frame).callStack.size = ctx.callStack.size + 1 := rfl

/-- Does what a call of which the frame is on the call stack has come to. -/
def Resolution.run (run : BodyRunner) (ctx : Context) (pos : Position) (values : List Value) :
    Resolution → Outcome Failure Value
  | refused failure => .error failure ctx
  | builtin b => .ofWorld ctx (b.runOn pos values ctx.world)
  | body f => run f values ctx

/-- A tracked call: its frame is pushed, the call is resolved and run, and the frame is popped. -/
def Context.track (run : BodyRunner) (ctx : Context) (callee : Option Value) (name : String)
    (pos : Position) (values : List Value) : Outcome Failure Value :=
  let entered := ctx.entered ⟨name, pos⟩
  ((Resolution.resolve ctx.maxDepth entered.callStack.size ctx.environment callee name pos
    values).run run entered pos values).bind fun value ctx => ctx.leave value

/-! ## Tasks -/

/-- What is done with the values of a form's operands. The first operand of `apply` is what is
called. -/
inductive Task
  | compute (operation : Operation)
  | call (name : String) (position : Position)
  | apply (name : String) (position : Position)

/-- Does a task. -/
def Task.perform (run : BodyRunner) (args : List Value) (scope : Scope) (task : Task)
    (values : List Value) (ctx : Context) : Outcome Failure Value :=
  match task with
  | compute op => .ofWorld ctx (op.run ctx.callStack.size args scope values ctx.world)
  | call name pos => ctx.track run none name pos values
  | apply name pos => ctx.track run (some (values.headD .nil)) name pos values.tail

/-! ## Shapes -/

/-- What a body consists of. -/
inductive Shape
  | task (task : Task) (operands : List Expr)
  | letIn (name : String) (bound body : Expr)
  | cond (guard branch otherwise : Expr)
  | attempt (body handler : Expr)
  | execute (body handler : Expr)

def Expr.shape : Expr → Shape
  | .literal value => .task (.compute (.literal value)) []
  | .argument index => .task (.compute (.argument index)) []
  | .letIn name bound body => .letIn name bound body
  | .localVar name => .task (.compute (.localVar name)) []
  | .global name pos => .task (.compute (.global name pos)) []
  | .call name pos operands => .task (.call name pos) operands
  | .apply callee name pos operands => .task (.apply name pos) (callee :: operands)
  | .builtin b pos operands => .task (.compute (.builtin b pos)) operands
  | .binary op pos left right => .task (.compute (.binary op pos)) [left, right]
  | .negate pos operand => .task (.compute (.negate pos)) [operand]
  | .cond guard branch otherwise => .cond guard branch otherwise
  | .seq parts => .task (.compute .seq) parts
  | .raise pos message => .task (.compute (.raise pos message)) []
  | .function name arity body => .task (.compute (.function name arity body)) []
  | .define name value => .task (.compute (.define name)) [value]
  | .depth => .task (.compute .depth) []
  | .display operand => .task (.compute .display) [operand]
  | .attempt body handler => .attempt body handler
  | .execute body handler => .execute body handler

/-- The bodies that a body is made of, those of new functions apart. -/
def Shape.parts : Shape → List Expr
  | .task _ operands => operands
  | .letIn _ bound body => [bound, body]
  | .cond guard branch otherwise => [guard, branch, otherwise]
  | .attempt body handler => [body, handler]
  | .execute body handler => [body, handler]

/-- The meaning of a shape, given the meaning of its parts. -/
def Shape.eval (run : BodyRunner) (args : List Value) (scope : Scope) (ctx : Context) :
    Shape → Outcome Failure Value
  | .task t operands =>
    (Expr.evalAll run args scope ctx operands).bind (t.perform run args scope)
  | .letIn name bound body =>
    (bound.eval run args scope ctx).bind fun value ctx =>
      body.eval run args (.bind name value scope) ctx
  | .cond guard branch otherwise =>
    (guard.eval run args scope ctx).bind fun value ctx =>
      (if value.isTruthy then branch else otherwise).eval run args scope ctx
  | .attempt body handler =>
    (body.eval run args scope ctx).handle fun _ ctx => handler.eval run args scope ctx
  | .execute body handler =>
    (Context.settle (body.eval run [] scope ctx)).handle fun _ ctx =>
      handler.eval run args scope ctx

section Eval

variable (run : BodyRunner) (args : List Value) (scope : Scope) (ctx : Context)

/-- A report writes to the channel and clears the call stack. -/
theorem Context.report_eq (failure : Failure) :
    (ctx.report failure).2 =
      { ctx with
        callStack := ∅
        output := (ctx.output.writeLines
          ((Report.ofFailure failure ctx.callStack.frames).lines ctx.traceFormat)).1 } := by
  unfold Context.report
  dsimp only
  split <;> rename_i hwritten <;> rw [hwritten] <;> rfl

theorem Context.callStack_report (failure : Failure) : (ctx.report failure).2.callStack = ∅ := by
  rw [Context.report_eq]

theorem Context.environment_report (failure : Failure) :
    (ctx.report failure).2.environment = ctx.environment := by
  rw [Context.report_eq]

theorem Context.maxDepth_report (failure : Failure) :
    (ctx.report failure).2.maxDepth = ctx.maxDepth := by
  rw [Context.report_eq]

/-- What a handler of a program's failures gets to see. -/
theorem Context.settle_handle (o : Outcome Failure Value)
    (handler : Context → Outcome Failure Value) :
    (Context.settle o).handle (fun _ ctx => handler ctx) =
      (o.bind fun value ctx => .ok value ctx.clearStack).handle
        fun failure ctx => handler (ctx.report failure).2 := by
  cases o <;> rfl

theorem Context.lookup_eq_ofWorld (name : String) (pos : Position) :
    ctx.lookup name pos = .ofWorld ctx (pos.blame (ctx.environment.get name), ctx.world) := by
  unfold Context.lookup
  cases ctx.environment.get name <;> rfl

theorem Context.builtin_eq_ofWorld (b : Builtin) (pos : Position) (values : List Value) :
    ctx.builtin b pos values = .ofWorld ctx (b.runOn pos values ctx.world) := by
  simp only [Context.builtin, Builtin.runOn, Context.world]
  generalize b.call values ctx.output = called
  obtain ⟨result, output⟩ := called
  cases result <;> rfl

theorem Context.invoke_eq_run (callee : Value) (name : String) (pos : Position)
    (values : List Value) :
    ctx.invoke run callee name pos values =
      (Resolution.ofValue callee name pos values).run run ctx pos values := by
  cases callee with
  | function f =>
    simp only [Context.invoke, Resolution.ofValue]
    split <;> rfl
  | builtin b => exact ctx.builtin_eq_ofWorld b pos values
  | nil | boolean | number | string => rfl

theorem Context.enter_eq_entered (name : String) (pos : Position) :
    ctx.enter name pos =
      if ctx.maxDepth < (ctx.entered ⟨name, pos⟩).callStack.size then
        .error ⟨pos, .depthExceeded ctx.maxDepth⟩ (ctx.entered ⟨name, pos⟩)
      else .ok () (ctx.entered ⟨name, pos⟩) := rfl

theorem Context.callValue_eq_track (callee : Value) (name : String) (pos : Position)
    (values : List Value) :
    ctx.callValue run callee name pos values = ctx.track run (some callee) name pos values := by
  simp only [Context.callValue, Context.enter_eq_entered, Context.track, Resolution.resolve]
  by_cases h : ctx.maxDepth < (ctx.entered ⟨name, pos⟩).callStack.size
  · rw [if_pos h, if_pos h]
    rfl
  · rw [if_neg h, if_neg h]
    simp only [Outcome.bind_ok, Context.invoke_eq_run]

theorem Context.call_eq_track (name : String) (pos : Position) (values : List Value) :
    ctx.call run name pos values = ctx.track run none name pos values := by
  simp only [Context.call, Context.enter_eq_entered, Context.track, Resolution.resolve]
  by_cases h : ctx.maxDepth < (ctx.entered ⟨name, pos⟩).callStack.size
  · rw [if_pos h, if_pos h]
    rfl
  · rw [if_neg h, if_neg h]
    -- the frame is there before the name is looked up
    have henv : (ctx.entered ⟨name, pos⟩).environment = ctx.environment := rfl
    simp only [Outcome.bind_ok, Context.lookup_eq_ofWorld, henv]
    cases ctx.environment.get name with
    | error fault => rfl
    | ok callee =>
      simp only [Position.blame_ok, Outcome.ofWorld, Outcome.bind_ok, Context.world_on,
        Context.invoke_eq_run]

/-- Evaluation sees nothing of a body but its shape. -/
theorem Expr.eval_shape (e : Expr) :
    e.eval run args scope ctx = e.shape.eval run args scope ctx := by
  cases e with
  | literal | argument | localVar | raise | function | depth => rfl
  | letIn | attempt | execute => rfl
  | seq => rfl
  | call name pos =>
    -- what is left is that the tracked calls are `Context.track`
    simp only [Expr.eval, Expr.shape, Shape.eval]
    congr 1
    funext values ctx
    exact ctx.call_eq_track run name pos values
  | global name pos => exact ctx.lookup_eq_ofWorld name pos
  | cond guard branch otherwise =>
    simp only [Expr.eval, Expr.shape, Shape.eval]
    congr 1
    funext value ctx
    split <;> rfl
  | apply callee name pos operands =>
    simp only [Expr.eval, Expr.shape, Shape.eval, Expr.evalAll, Outcome.bind_assoc,
      Outcome.bind_ok, Context.callValue_eq_track]
    rfl
  | define | display =>
    simp only [Expr.eval, Expr.shape, Shape.eval, Expr.evalAll, Outcome.bind_assoc,
      Outcome.bind_ok]
    rfl
  | builtin b pos =>
    -- a fault gets its place inside of the operation, and not where it is raised
    simp only [Expr.eval, Expr.shape, Shape.eval]
    congr 1
    funext values ctx
    exact ctx.builtin_eq_ofWorld b pos values
  | binary op pos =>
    simp only [Expr.eval, Expr.shape, Shape.eval, Expr.evalAll, Outcome.bind_assoc,
      Outcome.bind_ok]
    congr 1
    funext x ctx
    congr 1
    funext y ctx
    show _ = Outcome.ofWorld ctx (pos.blame (op.apply x y), ctx.world)
    cases op.apply x y <;> rfl
  | negate pos =>
    simp only [Expr.eval, Expr.shape, Shape.eval, Expr.evalAll, Outcome.bind_assoc,
      Outcome.bind_ok]
    congr 1
    funext x ctx
    show _ = Outcome.ofWorld ctx (pos.blame x.negate, ctx.world)
    cases x.negate <;> rfl

end Eval

/-! ## Induction -/

theorem Expr.sizeOf_lt_of_mem_parts (e : Expr) {part : Expr} (hmem : part ∈ e.shape.parts) :
    sizeOf part < sizeOf e := by
  cases e with
  | literal | argument | localVar | global | raise | function | depth =>
    exact absurd hmem List.not_mem_nil
  | call | builtin | seq =>
    have hlt := List.sizeOf_lt_of_mem hmem
    simp only [Expr.shape, Shape.parts] at hlt
    simp
    omega
  | apply callee name pos args =>
    rcases List.mem_cons.mp hmem with rfl | hargs
    · simp
      omega
    · have hlt := List.sizeOf_lt_of_mem hargs
      simp
      omega
  | letIn | cond | binary | negate | define | display | attempt | execute =>
    simp only [Expr.shape, Shape.parts, List.mem_cons, List.not_mem_nil, or_false] at hmem
    rcases hmem with rfl | rfl | rfl <;> simp <;> omega

/-- Induction on a body along its shape. -/
theorem Expr.shapeInduction {motive : Expr → Prop}
    (task : ∀ (e : Expr) (task : Task) (operands : List Expr),
      e.shape = .task task operands → (∀ operand ∈ operands, motive operand) → motive e)
    (letIn : ∀ (e : Expr) (name : String) (bound body : Expr),
      e.shape = .letIn name bound body → motive bound → motive body → motive e)
    (cond : ∀ (e guard branch otherwise : Expr), e.shape = .cond guard branch otherwise →
      motive guard → motive branch → motive otherwise → motive e)
    (attempt : ∀ (e body handler : Expr), e.shape = .attempt body handler →
      motive body → motive handler → motive e)
    (execute : ∀ (e body handler : Expr), e.shape = .execute body handler →
      motive body → motive handler → motive e)
    (e : Expr) : motive e := by
  -- operands sit in a list, so the induction is on the size of the body
  induction hn : sizeOf e using Nat.strongRecOn generalizing e with
  | ind n ih =>
    have hparts : ∀ part ∈ e.shape.parts, motive part := by
      intro part hmem
      exact ih _ (hn ▸ e.sizeOf_lt_of_mem_parts hmem) part rfl
    cases hs : e.shape with
    | task t operands =>
      rw [hs] at hparts
      exact task e t operands hs hparts
    | letIn name bound body =>
      rw [hs] at hparts
      exact letIn e name bound body hs (hparts _ (by simp [Shape.parts]))
        (hparts _ (by simp [Shape.parts]))
    | cond guard branch otherwise =>
      rw [hs] at hparts
      exact cond e guard branch otherwise hs (hparts _ (by simp [Shape.parts]))
        (hparts _ (by simp [Shape.parts])) (hparts _ (by simp [Shape.parts]))
    | attempt body handler =>
      rw [hs] at hparts
      exact attempt e body handler hs (hparts _ (by simp [Shape.parts]))
        (hparts _ (by simp [Shape.parts]))
    | execute body handler =>
      rw [hs] at hparts
      exact execute e body handler hs (hparts _ (by simp [Shape.parts]))
        (hparts _ (by simp [Shape.parts]))

end TracedEval
