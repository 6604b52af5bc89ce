import TracedEval.Proofs.Blame
import TracedEval.Proofs.Bound

/-!
# Evaluation without a call stack

A second evaluator, which has no call stack to push on or pop from. It hands the list of the calls
that are under way down as an argument, so that a call that has returned is simply not in the list
of anything that comes after it. Bodies that swallow failures or run programs are not covered: for
these the stack is more than this list.

* `StackFree.run` is the evaluator; a failure comes with the calls that were under way when it was
  raised;
* `StackFree.eval_on`: evaluation is this evaluator, with its list in place of the call stack after
  a failure and with the call stack untouched after success;
* `StackFree.run_faithful` puts this together with what is known of the frames: nothing else can
  happen, and a failure of a call comes with the frame of this very call on top.
-/

namespace TracedEval

namespace StackFree

/-! ## The evaluator -/

/-- How evaluation without a call stack can end. -/
inductive Result (α : Type)
  | ok (value : α) (world : World)
  /-- A failure, with the calls that were under way when it was raised, the outermost first. -/
  | error (failure : Failure) (active : List Frame) (world : World)
  /-- A form that needs a call stack, or more nested bodies than there are levels. -/
  | uncovered

/-- Goes on with the value. -/
def Result.bind {α β : Type} (r : Result α) (next : α → World → Result β) : Result β :=
  match r with
  | ok value w => next value w
  | error failure active w => error failure active w
  | uncovered => uncovered

/-- How the body of a function is run with arguments, below the calls under way. -/
abbrev Runner := Closure → List Value → List Frame → World → Result Value

/-- The result of something that calls nothing. -/
def Result.ofWorld (active : List Frame) : Except Failure Value × World → Result Value
  | (.ok value, w) => ok value w
  | (.error failure, w) => error failure active w

/-- Does an operation. -/
def compute (active : List Frame) (args : List Value) (scope : Scope) (op : Operation)
    (values : List Value) (w : World) : Result Value :=
  .ofWorld active (op.run active.length args scope values w)

/-- Does what a call has come to, the call itself being the last of those under way. -/
def follow (run : Runner) (active : List Frame) (pos : Position) (values : List Value) (w : World) :
    Resolution → Result Value
  | .refused failure => .error failure active w
  | .builtin b => .ofWorld active (b.runOn pos values w)
  | .body f => run f values active w

/-- A tracked call, which is under way for as long as what it calls is run. -/
def track (limit : Nat) (run : Runner) (active : List Frame) (callee : Option Value)
    (name : String) (pos : Position) (values : List Value) (w : World) : Result Value :=
  follow run (active ++ [⟨name, pos⟩]) pos values w
    (Resolution.resolve limit (active.length + 1) w.environment callee name pos values)

section Eval

variable (limit : Nat) (run : Runner) (active : List Frame) (args : List Value)

mutual

/-- Evaluates a body. -/
def eval (scope : Scope) (w : World) : Expr → Result Value
  | .literal value => compute active args scope (.literal value) [] w
  | .argument index => compute active args scope (.argument index) [] w
  | .letIn name bound body =>
    (eval scope w bound).bind fun value w => eval (.bind name value scope) w body
  | .localVar name => compute active args scope (.localVar name) [] w
  | .global name pos => compute active args scope (.global name pos) [] w
  | .call name pos operands =>
    (evalAll scope w operands).bind fun values w => track limit run active none name pos values w
  | .apply callee name pos operands =>
    (eval scope w callee).bind fun called w =>
    (evalAll scope w operands).bind fun values w =>
      track limit run active (some called) name pos values w
  | .builtin b pos operands =>
    (evalAll scope w operands).bind (compute active args scope (.builtin b pos))
  | .binary op pos left right =>
    (eval scope w left).bind fun x w =>
    (eval scope w right).bind fun y w => compute active args scope (.binary op pos) [x, y] w
  | .negate pos operand =>
    (eval scope w operand).bind fun x w => compute active args scope (.negate pos) [x] w
  | .cond guard branch otherwise =>
    (eval scope w guard).bind fun value w =>
      if value.isTruthy then eval scope w branch else eval scope w otherwise
  | .seq parts => (evalAll scope w parts).bind (compute active args scope .seq)
  | .raise pos message => compute active args scope (.raise pos message) [] w
  | .function name arity body => compute active args scope (.function name arity body) [] w
  | .define name value =>
    (eval scope w value).bind fun x w => compute active args scope (.define name) [x] w
  | .depth => compute active args scope .depth [] w
  | .display operand =>
    (eval scope w operand).bind fun x w => compute active args scope .display [x] w
  | .attempt _ _ => .uncovered
  | .execute _ _ => .uncovered

/-- Evaluates bodies one after the other. -/
def evalAll (scope : Scope) (w : World) : List Expr → Result (List Value)
  | [] => .ok [] w
  | first :: rest =>
    (eval scope w first).bind fun value w =>
    (evalAll scope w rest).bind fun values w => .ok (value :: values) w

end

end Eval

/-- Runs the bodies of functions, with at most so many levels of them inside one another. -/
def bodies (limit : Nat) : Nat → Runner
  | 0 => fun _ _ _ _ => .uncovered
  | levels + 1 => fun f args active w =>
    eval limit (bodies limit levels) active args f.scope w f.body

/-- Evaluates a body below the calls under way, with the levels that the depth limit leaves. -/
def run (limit : Nat) (active : List Frame) (args : List Value) (scope : Scope) (w : World)
    (e : Expr) : Result Value :=
  eval limit (bodies limit (limit - active.length)) active args scope w e

/-! ## Its five cases -/

/-- Does a task. -/
def perform (limit : Nat) (run : Runner) (active : List Frame) (args : List Value) (scope : Scope)
    (task : Task) (values : List Value) (w : World) : Result Value :=
  match task with
  | .compute op => compute active args scope op values w
  | .call name pos => track limit run active none name pos values w
  | .apply name pos => track limit run active (some (values.headD .nil)) name pos values.tail w

theorem Result.bind_assoc {α β γ : Type} (r : Result α) (f : α → World → Result β)
    (g : β → World → Result γ) :
    (r.bind f).bind g = r.bind fun a w => (f a w).bind g := by
  cases r <;> rfl

section Shape

variable (limit : Nat) (run : Runner) (active : List Frame) (args : List Value) (scope : Scope)
  (w : World) {e : Expr}

theorem eval_task {t : Task} {operands : List Expr} (hs : e.shape = .task t operands) :
    eval limit run active args scope w e =
      (evalAll limit run active args scope w operands).bind
        (perform limit run active args scope t) := by
  cases e with
  | letIn | cond | attempt | execute => cases hs
  | literal | argument | localVar | global | raise | function | depth | call | builtin | seq =>
    cases hs
    rfl
  | apply | binary | negate | define | display =>
    cases hs
    simp only [eval, evalAll, Result.bind_assoc]
    rfl

theorem eval_letIn {name : String} {bound body : Expr} (hs : e.shape = .letIn name bound body) :
    eval limit run active args scope w e =
      (eval limit run active args scope w bound).bind fun value w =>
        eval limit run active args (.bind name value scope) w body := by
  cases e with
  | letIn => cases hs; rfl
  | _ => cases hs

theorem eval_cond {guard branch otherwise : Expr} (hs : e.shape = .cond guard branch otherwise) :
    eval limit run active args scope w e =
      (eval limit run active args scope w guard).bind fun value w =>
        eval limit run active args scope w (if value.isTruthy then branch else otherwise) := by
  cases e with
  | cond =>
    cases hs
    rw [eval]
    congr 1
    funext value w
    split <;> rfl
  | _ => cases hs

end Shape

/-! ## It is evaluation -/

/-- The outcome in a context: a failure puts the calls under way on the call stack, a value leaves
the call stack alone. -/
def Result.on {α : Type} (ctx : Context) : Result α → Outcome Failure α
  | ok value w => .ok value (w.on ctx)
  | error failure active w => .error failure (w.on { ctx with callStack := ⟨active.reverse⟩ })
  | uncovered => .exhausted

@[simp] theorem Result.on_worldOn {α : Type} (r : Result α) (w : World) (ctx : Context) :
    r.on (w.on ctx) = r.on ctx := by
  cases r <;> rfl

theorem Result.on_ofWorld (ctx : Context) (result : Except Failure Value × World) :
    (Result.ofWorld ctx.callStack.frames result).on ctx = Outcome.ofWorld ctx result := by
  obtain ⟨result, w⟩ := result
  cases result with
  | ok value => rfl
  | error failure =>
    simp only [Result.ofWorld, Result.on, Outcome.ofWorld, CallStack.frames, List.reverse_reverse]

/-- What comes after has to agree only for the values that the first result really has. -/
theorem Result.on_bind {α β : Type} {r : Result α} {ctx : Context}
    {next : α → World → Result β} {next' : α → Context → Outcome Failure β}
    {P : α → Context → Prop} {Q : Failure → Context → Prop} {S : Prop}
    (hside : (r.on ctx).Meets P Q S)
    (hnext : ∀ value w, P value (w.on ctx) →
      (next value w).on (w.on ctx) = next' value (w.on ctx)) :
    (r.bind next).on ctx = (r.on ctx).bind next' := by
  cases r with
  | ok value w =>
    have h := hnext value w hside
    rw [Result.on_worldOn] at h
    exact h
  | error | uncovered => rfl

/-- One way to run functions is the other one, in every context of this depth limit. -/
def Implements (limit : Nat) (srun : Runner) (run : BodyRunner) : Prop :=
  ∀ f args ctx, f.within .direct → Value.allWithin .direct args →
    ctx.environment.within .direct → ctx.maxDepth = limit →
      run f args ctx = (srun f args ctx.callStack.frames ctx.world).on ctx

section Implements

variable {limit : Nat} {srun : Runner} {run : BodyRunner}

theorem follow_on (hrun : Implements limit srun run) (ctx : Context)
    (henv : ctx.environment.within .direct) (hlimit : ctx.maxDepth = limit) {values : List Value}
    (hvalues : Value.allWithin .direct values) (pos : Position) {res : Resolution}
    (hres : ∀ f, res = .body f → f.within .direct) :
    res.run run ctx pos values =
      (follow srun ctx.callStack.frames pos values ctx.world res).on ctx := by
  cases res with
  | refused failure =>
    simp only [Resolution.run, follow, Result.on, CallStack.frames, List.reverse_reverse]
    rfl
  | builtin b => exact (Result.on_ofWorld ctx _).symm
  | body f => exact hrun f values ctx (hres f rfl) hvalues henv hlimit

/-- A call that returns leaves no trace; one that fails leaves its frame. -/
theorem Result.on_entered_bind_leave (r : Result Value) (ctx : Context) (frame : Frame) :
    (r.on (ctx.entered frame)).bind (fun value ctx => ctx.leave value) = r.on ctx := by
  cases r <;> rfl

theorem track_on (hrun : Implements limit srun run) {ctx : Context}
    (henv : ctx.environment.within .direct) (hlimit : ctx.maxDepth = limit)
    {callee : Option Value} (hcallee : ∀ value ∈ callee, value.within .direct)
    {values : List Value} (hvalues : Value.allWithin .direct values) (name : String)
    (pos : Position) :
    ctx.track run callee name pos values =
      (track limit srun ctx.callStack.frames callee name pos values ctx.world).on ctx := by
  unfold Context.track track
  have hres : ∀ f, Resolution.resolve limit (ctx.callStack.size + 1) ctx.environment callee name
      pos values = .body f → f.within .direct :=
    fun f hf => Resolution.within_of_resolve henv hcallee hf
  -- the call is resolved and run with its frame on the call stack
  have hfollow := follow_on hrun (ctx.entered ⟨name, pos⟩) henv hlimit hvalues pos hres
  simp only [hlimit, Context.size_entered, hfollow, Context.frames_entered,
    CallStack.length_frames]
  exact Result.on_entered_bind_leave _ ctx ⟨name, pos⟩

theorem perform_on (hrun : Implements limit srun run) {args : List Value} {scope : Scope}
    {values : List Value} (hvalues : Value.allWithin .direct values) {ctx : Context}
    (henv : ctx.environment.within .direct) (hlimit : ctx.maxDepth = limit) (t : Task) :
    t.perform run args scope values ctx =
      (perform limit srun ctx.callStack.frames args scope t values ctx.world).on ctx := by
  cases t with
  | compute op =>
    simp only [perform, compute, Result.on_ofWorld, CallStack.length_frames]
    rfl
  | call name pos => exact track_on hrun henv hlimit (by simp) hvalues name pos
  | apply name pos =>
    exact track_on hrun henv hlimit (Value.within_headD hvalues) (Value.allWithin_tail hvalues)
      name pos

theorem evalAll_on {args : List Value} {scope : Scope} {operands : List Expr}
    (hwithin : ∀ operand ∈ operands, ∀ ctx : Context, ctx.environment.within .direct →
      (operand.eval run args scope ctx).Within .direct fun value => value.within .direct)
    (h : ∀ operand ∈ operands, ∀ ctx : Context, ctx.environment.within .direct →
      ctx.maxDepth = limit → operand.eval run args scope ctx =
        (eval limit srun ctx.callStack.frames args scope ctx.world operand).on ctx)
    (ctx : Context) (henv : ctx.environment.within .direct) (hlimit : ctx.maxDepth = limit) :
    Expr.evalAll run args scope ctx operands =
      (evalAll limit srun ctx.callStack.frames args scope ctx.world operands).on ctx := by
  induction operands generalizing ctx with
  | nil => rfl
  | cons first rest ih =>
    rw [List.forall_mem_cons] at hwithin h
    have hfirst := hwithin.1 ctx henv
    rw [h.1 ctx henv hlimit] at hfirst
    rw [Expr.evalAll, evalAll, h.1 ctx henv hlimit]
    refine (Result.on_bind hfirst ?_).symm
    rintro value w ⟨-, henv⟩
    -- the other operands see the bindings that the first one has left
    have hrest := Expr.evalAll_within hwithin.2 henv
    rw [ih hwithin.2 h.2 _ henv hlimit] at hrest ⊢
    exact Result.on_bind hrest fun values w _ => rfl

/-- Evaluation is evaluation without a call stack, if this is so for the functions it runs. -/
theorem eval_on_of_run (hkeeps : run.KeepsWithin .direct) (hrun : Implements limit srun run)
    (e : Expr) : e.within .direct .direct → ∀ (args : List Value) (scope : Scope) (ctx : Context),
      Value.allWithin .direct args → scope.within .direct → ctx.environment.within .direct →
        ctx.maxDepth = limit → e.eval run args scope ctx =
          (eval limit srun ctx.callStack.frames args scope ctx.world e).on ctx := by
  induction e using Expr.shapeInduction with
  | task e t operands hs ih =>
    intro he args scope ctx hargs hscope henv hlimit
    obtain ⟨-, hoperands⟩ := Expr.within_task hs he
    have hwithin : ∀ operand ∈ operands, ∀ ctx : Context, ctx.environment.within .direct →
        (operand.eval run args scope ctx).Within .direct fun value => value.within .direct :=
      fun operand hmem ctx henv => Expr.eval_within_of_run hkeeps operand
        (hoperands operand hmem) args scope ctx hargs hscope henv
    have hon := evalAll_on hwithin (fun operand hmem ctx henv hlimit => ih operand hmem
      (hoperands operand hmem) args scope ctx hargs hscope henv hlimit) ctx henv hlimit
    have hvalues := Expr.evalAll_within hwithin henv
    rw [Expr.eval_shape, hs, Shape.eval, eval_task _ _ _ _ _ _ hs]
    rw [hon] at hvalues ⊢
    refine (Result.on_bind hvalues ?_).symm
    rintro values w ⟨hvalues, henv⟩
    exact (perform_on hrun hvalues henv hlimit t).symm
  | letIn e name bound body hs ihbound ihbody =>
    intro he args scope ctx hargs hscope henv hlimit
    obtain ⟨hbound, hbody⟩ := Expr.within_letIn hs he
    have hfirst := Expr.eval_within_of_run hkeeps bound hbound args scope ctx hargs hscope henv
    rw [Expr.eval_shape, hs, Shape.eval, eval_letIn _ _ _ _ _ _ hs]
    rw [ihbound hbound args scope ctx hargs hscope henv hlimit] at hfirst ⊢
    refine (Result.on_bind hfirst ?_).symm
    rintro value w ⟨hvalue, henv⟩
    exact (ihbody hbody args _ _ hargs (Scope.within_bind name hvalue hscope) henv hlimit).symm
  | cond e guard branch otherwise hs ihguard ihbranch ihotherwise =>
    intro he args scope ctx hargs hscope henv hlimit
    obtain ⟨hguard, hbranch, hotherwise⟩ := Expr.within_cond hs he
    have hfirst := Expr.eval_within_of_run hkeeps guard hguard args scope ctx hargs hscope henv
    rw [Expr.eval_shape, hs, Shape.eval, eval_cond _ _ _ _ _ _ hs]
    rw [ihguard hguard args scope ctx hargs hscope henv hlimit] at hfirst ⊢
    refine (Result.on_bind hfirst ?_).symm
    rintro value w ⟨-, henv⟩
    split
    · exact (ihbranch hbranch args scope _ hargs hscope henv hlimit).symm
    · exact (ihotherwise hotherwise args scope _ hargs hscope henv hlimit).symm
  | attempt e body handler hs =>
    intro he
    exact absurd (Expr.within_attempt hs he).1 Bool.false_ne_true
  | execute e body handler hs =>
    intro he
    exact absurd (Expr.within_execute hs he).1 Bool.false_ne_true

theorem bodies_implement (limit levels : Nat) :
    Implements limit (bodies limit levels) (runBody levels) := by
  induction levels with
  | zero => exact fun f args ctx _ _ _ _ => rfl
  | succ levels ih =>
    intro f args ctx hf hargs henv hlimit
    rw [Closure.within_iff] at hf
    exact eval_on_of_run (runBody_keepsWithin levels) ih f.body hf.1 args f.scope ctx hargs hf.2
      henv hlimit

end Implements

/-- With as many levels as the depth limit leaves, evaluation is evaluation without a call stack. -/
theorem eval_on {e : Expr} (he : e.within .direct .direct) {args : List Value}
    (hargs : Value.allWithin .direct args) {scope : Scope} (hscope : scope.within .direct)
    {ctx : Context} (henv : ctx.environment.within .direct) {bound : Nat}
    (hbound : ctx.maxDepth ≤ ctx.callStack.size + bound) :
    e.eval (runBody bound) args scope ctx =
      (run ctx.maxDepth ctx.callStack.frames args scope ctx.world e).on ctx := by
  have hsize := CallStack.length_frames ctx.callStack
  let levels := ctx.maxDepth - ctx.callStack.frames.length
  have hends : (e.eval (runBody levels) args scope ctx).Ends ctx.callStack.frames ctx.maxDepth :=
    Expr.eval_ends rfl (by simp [Fragment.direct]) he hargs hscope henv (List.prefix_refl _)
      (by omega)
  have hfinished := Outcome.Meets.ne_exhausted hends
  -- more levels than these change nothing
  rw [Expr.eval_of_le (by omega) hfinished]
  exact eval_on_of_run (runBody_keepsWithin levels) (bodies_implement ctx.maxDepth levels) e he args
    scope ctx hargs hscope henv rfl

/-- The depth limit leaves as many levels as there are nested bodies. -/
theorem run_ne_uncovered {e : Expr} (he : e.within .direct .direct) {args : List Value}
    (hargs : Value.allWithin .direct args) {scope : Scope} (hscope : scope.within .direct)
    {ctx : Context} (henv : ctx.environment.within .direct) :
    run ctx.maxDepth ctx.callStack.frames args scope ctx.world e ≠ .uncovered := by
  have hbound : ctx.maxDepth ≤ ctx.callStack.size + ctx.maxDepth := Nat.le_add_left _ _
  have hends := Expr.eval_ends rfl (by simp [Fragment.direct]) he hargs hscope henv
    (List.prefix_refl ctx.callStack.frames) (by rwa [CallStack.length_frames])
  intro h
  rw [eval_on he hargs hscope henv hbound, h] at hends
  exact hends

/-! ## What a failure leaves behind -/

/-- After a failure the calls that were under way before are still there, and if it is a call that
was refused, then its own frame is the last one and was not there before. -/
def Result.Blames {α : Type} (base : List Frame) : Result α → Prop
  | error failure active _ =>
    base <+: active ∧ (failure.fault.ofCall → ∃ outer own,
      active = outer ++ [own] ∧ base <+: outer ∧ own.Caused failure)
  | _ => True

/-- Whatever is run, failures are blamed on calls above those under way. -/
def Runner.Blames (run : Runner) : Prop :=
  ∀ f args active w, (run f args active w).Blames active

section Blames

variable {limit : Nat} {srun : Runner} {base : List Frame}

theorem Result.Blames.bind {α β : Type} {r : Result α} {next : α → World → Result β}
    (h : r.Blames base) (hnext : ∀ value w, (next value w).Blames base) :
    (r.bind next).Blames base := by
  cases r with
  | ok value w => exact hnext value w
  | error | uncovered => exact h

theorem Result.Blames.of_append {α : Type} {r : Result α} {frames : List Frame}
    (h : r.Blames (base ++ frames)) : r.Blames base := by
  cases r with
  | error failure active w =>
    have hbase : base <+: base ++ frames := List.prefix_append _ _
    refine ⟨hbase.trans h.1, fun hcall => ?_⟩
    obtain ⟨outer, own, hactive, houter, hown⟩ := h.2 hcall
    exact ⟨outer, own, hactive, hbase.trans houter, hown⟩
  | ok | uncovered => trivial

theorem Result.blames_ofWorld {result : Except Failure Value × World}
    (h : ∀ failure, result.1 = .error failure → failure.fault.ofCall = false) :
    (Result.ofWorld base result).Blames base := by
  obtain ⟨result, w⟩ := result
  cases result with
  | ok => trivial
  | error failure =>
    refine ⟨List.prefix_refl _, fun hcall => ?_⟩
    rw [h failure rfl] at hcall
    cases hcall

theorem track_blames (hrun : srun.Blames) (callee : Option Value) (name : String) (pos : Position)
    (values : List Value) (w : World) :
    (track limit srun base callee name pos values w).Blames base := by
  unfold track
  cases hres : Resolution.resolve limit (base.length + 1) w.environment callee name pos values with
  | refused failure =>
    exact ⟨List.prefix_append _ _, fun _ =>
      ⟨base, ⟨name, pos⟩, rfl, List.prefix_refl _, Resolution.caused_of_resolve hres⟩⟩
  | builtin b =>
    exact (Result.blames_ofWorld fun failure h =>
      Builtin.ofCall_call (Position.eq_error_of_blame h)).of_append
  | body f =>
    -- a body blames calls above the frame of its own call
    exact (hrun f values (base ++ [⟨name, pos⟩]) w).of_append

theorem perform_blames (hrun : srun.Blames) (args : List Value) (scope : Scope) (t : Task)
    (values : List Value) (w : World) :
    (perform limit srun base args scope t values w).Blames base := by
  cases t with
  | compute op => exact Result.blames_ofWorld fun failure h => Operation.ofCall_run h
  | call name pos => exact track_blames hrun none name pos values w
  | apply name pos => exact track_blames hrun (some (values.headD .nil)) name pos values.tail w

theorem evalAll_blames {args : List Value} {scope : Scope} {operands : List Expr}
    (h : ∀ operand ∈ operands, ∀ w, (eval limit srun base args scope w operand).Blames base)
    (w : World) : (evalAll limit srun base args scope w operands).Blames base := by
  induction operands generalizing w with
  | nil => trivial
  | cons first rest ih =>
    rw [List.forall_mem_cons] at h
    rw [evalAll]
    exact (h.1 w).bind fun value w => (ih h.2 w).bind fun values w => trivial

theorem eval_blames (hrun : srun.Blames) (e : Expr) :
    ∀ (args : List Value) (scope : Scope) (w : World),
      (eval limit srun base args scope w e).Blames base := by
  induction e using Expr.shapeInduction with
  | task e t operands hs ih =>
    intro args scope w
    rw [eval_task _ _ _ _ _ _ hs]
    exact (evalAll_blames (fun operand hmem => ih operand hmem args scope) w).bind
      fun values w => perform_blames hrun args scope t values w
  | letIn e name bound body hs ihbound ihbody =>
    intro args scope w
    rw [eval_letIn _ _ _ _ _ _ hs]
    exact (ihbound args scope w).bind fun value w => ihbody args _ w
  | cond e guard branch otherwise hs ihguard ihbranch ihotherwise =>
    intro args scope w
    rw [eval_cond _ _ _ _ _ _ hs]
    refine (ihguard args scope w).bind fun value w => ?_
    split
    · exact ihbranch args scope w
    · exact ihotherwise args scope w
  | attempt e body handler hs | execute e body handler hs =>
    intro args scope w
    cases e <;> cases hs
    trivial

theorem bodies_blame (limit levels : Nat) : (bodies limit levels).Blames := by
  induction levels with
  | zero => exact fun f args active w => trivial
  | succ levels ih => exact fun f args active w => eval_blames ih f.body args f.scope w

end Blames

/-! ## The main statement -/

/-- Evaluation gives the value or the failure that evaluation without a call stack gives, with the
same output and the same bindings. After a value the call stack is as it was before; after a failure
it holds the calls that were under way when the failure was raised, and on top of them, if a call
was refused, this very call. -/
theorem run_faithful {body : Expr} (hbody : body.within .direct .direct) {args : List Value}
    (hargs : Value.allWithin .direct args) {scope : Scope} (hscope : scope.within .direct)
    {ctx : Context} (henv : ctx.environment.within .direct) {bound : Nat}
    (hbound : ctx.maxDepth ≤ ctx.callStack.size + bound) :
    (∃ value ctx', body.eval (runBody bound) args scope ctx = .ok value ctx' ∧
      ctx'.callStack = ctx.callStack ∧
      run ctx.maxDepth ctx.callStack.frames args scope ctx.world body = .ok value ctx'.world) ∨
    (∃ failure ctx', body.eval (runBody bound) args scope ctx = .error failure ctx' ∧
      run ctx.maxDepth ctx.callStack.frames args scope ctx.world body =
        .error failure ctx'.callStack.frames ctx'.world ∧
      ctx.callStack.frames <+: ctx'.callStack.frames ∧
      (failure.fault.ofCall → ∃ outer own, ctx'.callStack.frames = outer ++ [own] ∧
        ctx.callStack.frames <+: outer ∧ own.Caused failure)) := by
  have hon := eval_on hbody hargs hscope henv hbound
  have hblames : (run ctx.maxDepth ctx.callStack.frames args scope ctx.world body).Blames
      ctx.callStack.frames :=
    eval_blames (bodies_blame _ _) body args scope ctx.world
  cases hresult : run ctx.maxDepth ctx.callStack.frames args scope ctx.world body with
  | ok value w =>
    rw [hresult] at hon
    exact .inl ⟨value, w.on ctx, hon, rfl, rfl⟩
  | error failure active w =>
    rw [hresult] at hon hblames
    -- the calls under way are the frames on the call stack
    have hframes : (⟨active.reverse⟩ : CallStack).frames = active := List.reverse_reverse active
    refine .inr ⟨failure, _, hon, ?_, ?_, ?_⟩
    · rw [World.callStack_on, hframes, World.world_on]
    · rw [World.callStack_on, hframes]
      exact hblames.1
    · rw [World.callStack_on, hframes]
      exact hblames.2
  | uncovered => exact absurd hresult (run_ne_uncovered hbody hargs hscope henv)

/-- `f` calls a name that is not bound to a function, below a frame that was there before. -/
theorem run_faithful_notCallable :
    let body := Expr.seq [.defineFunction "f" 0 (.call "else" ⟨3, 4⟩ []), .call "f" ⟨1, 2⟩ []]
    let ctx := (Context.new 5 .text (.new none true)).entered ⟨"old", ⟨9, 9⟩⟩
    ∃ failure ctx', body.eval (runBody 4) [] .empty ctx = .error failure ctx' ∧
      failure = ⟨⟨3, 4⟩, .notCallable "else"⟩ ∧
      ctx'.callStack.frames = [⟨"old", ⟨9, 9⟩⟩, ⟨"f", ⟨1, 2⟩⟩, ⟨"else", ⟨3, 4⟩⟩] ∧
      ∃ outer own, ctx'.callStack.frames = outer ++ [own] ∧ own.Caused failure := by
  intro body ctx
  have hbody : body.within .direct .direct := by decide
  have henv : ctx.environment.within .direct := by decide
  have hbound : ctx.maxDepth ≤ ctx.callStack.size + 4 := by decide
  rcases run_faithful hbody Value.allWithin_nil Scope.within_empty henv hbound with
    ⟨value, ctx', heval, -⟩ | ⟨failure, ctx', heval, -, -, hcall⟩
  · cases heval
  · cases heval
    obtain ⟨outer, own, hframes, -, hown⟩ := hcall rfl
    exact ⟨_, _, rfl, rfl, rfl, outer, own, hframes, hown⟩

end StackFree
end TracedEval
