import TracedEval.Proofs.Machine.Basic

/-!
# The machine does what evaluation says

For every body, every way to run functions that is itself carried out by the machine, and whatever
layers there are below, the machine gets to where `Expr.eval` says that evaluation ends:

* `Follows` says for each kind of outcome where the machine gets to: a value arrives at the layers
  below, a failure is on top of layers that do not handle it, and an underflow is a state without a
  next one;
* `Expr.eval_follows` is the statement for evaluation, with the bodies of functions run by
  `runBody`.

Nothing is said of an outcome that is due to the bound of `runBody`.
-/

namespace TracedEval
namespace Machine

/-! ## Where outcomes show up -/

/-- Whether failures stop at a layer. -/
def Layer.handles : Layer → Bool
  | attempt .. | program .. => true
  | _ => false

/-- The layers let failures through. -/
def Open (inner : List Layer) : Prop := ∀ layer ∈ inner, layer.handles = false

/-- From `s`, the machine gets to where the outcome says, above the layers `k`. -/
def Follows {α : Type} (s : State) (arrive : α → Context → State) (k : List Layer)
    (o : Outcome Failure α) : Prop :=
  match o with
  | .ok value ctx => Reaches s (arrive value ctx)
  | .error failure ctx => ∃ inner, Open inner ∧ Reaches s ⟨.failure failure, inner ++ k, ctx⟩
  | .underflow => ∃ s', Reaches s s' ∧ s'.step = .underflow
  | .exhausted => True

/-- The value has arrived at the layers `k`. -/
def arriveAt (k : List Layer) (value : Value) (ctx : Context) : State := ⟨.value value, k, ctx⟩

theorem unwind_append {inner : List Layer} (h : Open inner) (failure : Failure) (ctx : Context)
    (k : List Layer) : unwind failure ctx (inner ++ k) = unwind failure ctx k := by
  induction inner with
  | nil => rfl
  | cons layer rest ih =>
    unfold Open at h
    rw [List.forall_mem_cons] at h
    cases layer with
    | attempt | program => cases h.1
    | operands | letIn | cond | invocation => exact ih h.2

section Follows

variable {α β : Type} {s s' : State} {arrive : α → Context → State} {k : List Layer}
  {o : Outcome Failure α}

theorem Follows.of_steps (hstep : Steps s s') (h : Follows s' arrive k o) :
    Follows s arrive k o := by
  cases o with
  | ok value ctx => exact .head hstep h
  | error failure ctx =>
    obtain ⟨inner, hopen, hreach⟩ := h
    exact ⟨inner, hopen, .head hstep hreach⟩
  | underflow =>
    obtain ⟨final, hreach, hfinal⟩ := h
    exact ⟨final, .head hstep hreach, hfinal⟩
  | exhausted => trivial

theorem Follows.of_reaches (hreach : Reaches s s') (h : Follows s' arrive k o) :
    Follows s arrive k o := by
  induction hreach using Relation.ReflTransGen.head_induction_on with
  | refl => exact h
  | head hstep _ ih => exact ih.of_steps hstep

/-- What comes after a value goes on from where that arrived. -/
theorem Follows.bind {arrive' : β → Context → State} {next : α → Context → Outcome Failure β}
    (h : Follows s arrive k o)
    (hnext : ∀ value ctx, Follows (arrive value ctx) arrive' k (next value ctx)) :
    Follows s arrive' k (o.bind next) := by
  cases o with
  | ok value ctx => exact (hnext value ctx).of_reaches h
  | error | underflow | exhausted => exact h

theorem Follows.arrive_of_steps {arrive' : α → Context → State} (h : Follows s arrive k o)
    (hsteps : ∀ value ctx, Steps (arrive value ctx) (arrive' value ctx)) :
    Follows s arrive' k o := by
  cases o with
  | ok value ctx => exact .tail h (hsteps value ctx)
  | error | underflow | exhausted => exact h

/-- A layer that lets failures through can count as one of those above. -/
theorem Follows.below {layer : Layer} (hopen : layer.handles = false)
    (h : Follows s arrive (layer :: k) o) : Follows s arrive k o := by
  cases o with
  | ok | underflow | exhausted => exact h
  | error failure ctx =>
    obtain ⟨inner, hinner, hreach⟩ := h
    refine ⟨inner ++ [layer], ?_, ?_⟩
    · intro other hmem
      rcases List.mem_append.mp hmem with hmem | hmem
      · exact hinner other hmem
      · rw [List.mem_singleton.mp hmem]
        exact hopen
    · rwa [List.append_assoc, List.singleton_append]

/-- A failure that gets to a handler goes on from there. -/
theorem Follows.handle (layer : Layer) {handler : Failure → Context → Outcome Failure α}
    (resumed : Failure → Context → State) (h : Follows s arrive (layer :: k) o)
    (hunwind : ∀ failure ctx, unwind failure ctx (layer :: k) = .next (resumed failure ctx))
    (hhandler : ∀ failure ctx, Follows (resumed failure ctx) arrive k (handler failure ctx)) :
    Follows s arrive k (o.handle handler) := by
  cases o with
  | ok | underflow | exhausted => exact h
  | error failure ctx =>
    obtain ⟨inner, hinner, hreach⟩ := h
    -- the layers above the handler are dropped in the same step
    have hstep : Steps ⟨.failure failure, inner ++ layer :: k, ctx⟩ (resumed failure ctx) := by
      show unwind failure ctx (inner ++ layer :: k) = _
      rw [unwind_append hinner, hunwind]
    exact ((hhandler failure ctx).of_steps hstep).of_reaches hreach

end Follows

/-! ## Evaluation -/

/-- The machine carries out how functions are run. -/
def RunFollows (run : BodyRunner) : Prop :=
  ∀ f values k ctx, Follows ⟨.body f values, k, ctx⟩ (arriveAt k) k (run f values ctx)

section Eval

variable {run : BodyRunner} {k : List Layer} {ctx : Context}

theorem follows_ofWorld (ctx : Context) (k : List Layer)
    (result : Except Failure Value × World) :
    Follows ⟨.ofResult result.1, k, result.2.on ctx⟩ (arriveAt k) k (.ofWorld ctx result) := by
  obtain ⟨result, w⟩ := result
  cases result with
  | ok value => exact .refl
  | error failure => exact ⟨[], fun layer hmem => absurd hmem List.not_mem_nil, .refl⟩

theorem follow_follows (hrun : RunFollows run) (pos : Position) (values : List Value)
    (res : Resolution) :
    Follows ⟨(follow pos values ctx.world res).1, k, (follow pos values ctx.world res).2.on ctx⟩
      (arriveAt k) k (res.run run ctx pos values) := by
  cases res with
  | refused failure => exact follows_ofWorld ctx k (.error failure, ctx.world)
  | builtin b => exact follows_ofWorld ctx k (b.runOn pos values ctx.world)
  | body f => exact hrun f values k ctx

/-- The frame is popped when the value gets to the layer of the call. -/
theorem leave_follows (inv : Invocation) (value : Value) (ctx : Context) :
    Follows (arriveAt (.invocation inv :: k) value ctx) (arriveAt k) k (ctx.leave value) := by
  have hstep : (arriveAt (.invocation inv :: k) value ctx).step =
      (Layer.invocation inv).resume value k ctx := rfl
  rw [Layer.resume] at hstep
  unfold Context.leave
  cases hleave : ctx.callStack.leave? with
  | some s =>
    rw [hleave] at hstep
    exact .single hstep
  | none =>
    rw [hleave] at hstep
    exact ⟨_, .refl, hstep⟩

theorem enter_follows (hrun : RunFollows run) (callee : Option Value) (name : String)
    (pos : Position) (values : List Value) :
    Follows (enter callee name pos values k ctx) (arriveAt k) k
      (ctx.track run callee name pos values) := by
  unfold Context.track enter
  simp only [Context.size_entered]
  exact Follows.bind (Follows.below rfl (follow_follows hrun pos values _))
    fun value ctx => leave_follows _ value ctx

theorem perform_follows (hrun : RunFollows run) (site : Site) (values : List Value) (t : Task) :
    Follows (perform site values k ctx t) (arriveAt k) k
      (t.perform run site.args site.scope values ctx) := by
  cases t with
  | compute op => exact follows_ofWorld ctx k _
  | call name pos => exact enter_follows hrun none name pos values
  | apply name pos => exact enter_follows hrun (some (values.headD .nil)) name pos values.tail

/-- The operands have values, and the task is next. -/
def arriveOperands (t : Task) (done : List Value) (site : Site) (k : List Layer)
    (values : List Value) (ctx : Context) : State :=
  ⟨.operands t (done ++ values) [] site, k, ctx⟩

/-- The operands get their values one after the other. -/
theorem operands_follows {site : Site} {operands : List Expr}
    (h : ∀ operand ∈ operands, ∀ (k : List Layer) (ctx : Context),
      Follows ⟨.eval operand site, k, ctx⟩ (arriveAt k) k
        (operand.eval run site.args site.scope ctx))
    (t : Task) (done : List Value) (ctx : Context) :
    Follows ⟨.operands t done operands site, k, ctx⟩
      (arriveOperands t done site k) k
      (Expr.evalAll run site.args site.scope ctx operands) := by
  induction operands generalizing done ctx with
  | nil =>
    rw [Expr.evalAll]
    show Reaches _ ⟨.operands t (done ++ []) [] site, k, ctx⟩
    rw [List.append_nil]
  | cons first rest ih =>
    rw [List.forall_mem_cons] at h
    rw [Expr.evalAll]
    have hstep : Steps ⟨.operands t done (first :: rest) site, k, ctx⟩
        ⟨.eval first site, .operands t done rest site :: k, ctx⟩ := rfl
    refine Follows.bind (.of_steps hstep (Follows.below rfl (h.1 _ ctx))) ?_
    intro value ctx
    -- the value goes to those of the operands before
    have hback : Steps (arriveAt (.operands t done rest site :: k) value ctx)
        ⟨.operands t (done ++ [value]) rest site, k, ctx⟩ := rfl
    refine Follows.bind (.of_steps hback (ih h.2 (done ++ [value]) ctx)) ?_
    intro values ctx
    show Reaches ⟨.operands t (done ++ [value] ++ values) [] site, k, ctx⟩
      ⟨.operands t (done ++ value :: values) [] site, k, ctx⟩
    rw [List.append_assoc, List.singleton_append]

/-- The machine carries out evaluation, if it does so for the functions that are run. -/
theorem eval_follows_of_run (hrun : RunFollows run) (e : Expr) :
    ∀ (site : Site) (k : List Layer) (ctx : Context),
      Follows ⟨.eval e site, k, ctx⟩ (arriveAt k) k (e.eval run site.args site.scope ctx) := by
  induction e using Expr.shapeInduction with
  | task e t operands hs ih =>
    intro site k ctx
    have hstep : Steps ⟨.eval e site, k, ctx⟩ ⟨.operands t [] operands site, k, ctx⟩ :=
      steps_eval hs site k ctx
    rw [Expr.eval_shape, hs]
    refine .of_steps hstep (Follows.bind
      (operands_follows (fun operand hmem => ih operand hmem site) t [] ctx) ?_)
    intro values ctx
    have hperform : Steps (arriveOperands t [] site k values ctx)
        (perform site values k ctx t) := rfl
    exact .of_steps hperform (perform_follows hrun site values t)
  | letIn e name bound body hs ihbound ihbody =>
    intro site k ctx
    have hstep : Steps ⟨.eval e site, k, ctx⟩
        ⟨.eval bound site, .letIn name body site :: k, ctx⟩ :=
      steps_eval hs site k ctx
    rw [Expr.eval_shape, hs]
    refine .of_steps hstep (Follows.bind (Follows.below rfl (ihbound site _ ctx)) ?_)
    intro value ctx
    have hresume : Steps (arriveAt (.letIn name body site :: k) value ctx)
        ⟨.eval body ⟨site.args, .bind name value site.scope⟩, k, ctx⟩ := rfl
    exact .of_steps hresume (ihbody ⟨site.args, .bind name value site.scope⟩ k ctx)
  | cond e guard branch otherwise hs ihguard ihbranch ihotherwise =>
    intro site k ctx
    have hstep : Steps ⟨.eval e site, k, ctx⟩
        ⟨.eval guard site, .cond branch otherwise site :: k, ctx⟩ :=
      steps_eval hs site k ctx
    rw [Expr.eval_shape, hs]
    refine .of_steps hstep (Follows.bind (Follows.below rfl (ihguard site _ ctx)) ?_)
    intro value ctx
    have hresume : Steps (arriveAt (.cond branch otherwise site :: k) value ctx)
        ⟨.eval (if value.isTruthy then branch else otherwise) site, k, ctx⟩ := rfl
    refine .of_steps hresume ?_
    split
    · exact ihbranch site k ctx
    · exact ihotherwise site k ctx
  | attempt e body handler hs ihbody ihhandler =>
    intro site k ctx
    have hstep : Steps ⟨.eval e site, k, ctx⟩
        ⟨.eval body site, .attempt handler site :: k, ctx⟩ :=
      steps_eval hs site k ctx
    rw [Expr.eval_shape, hs]
    refine .of_steps hstep (Follows.handle (.attempt handler site)
      (fun _ ctx => ⟨.eval handler site, k, ctx⟩) ?_
      (fun _ _ => rfl) fun _ ctx => ihhandler site k ctx)
    exact (ihbody site (.attempt handler site :: k) ctx).arrive_of_steps fun _ _ => rfl
  | execute e body handler hs ihbody ihhandler =>
    intro site k ctx
    have hstep : Steps ⟨.eval e site, k, ctx⟩
        ⟨.eval body ⟨[], site.scope⟩, .program handler site :: k, ctx⟩ :=
      steps_eval hs site k ctx
    -- the machine clears the call stack of a program before it looks for a handler
    rw [Expr.eval_shape, hs, Shape.eval, Context.settle_handle]
    refine .of_steps hstep (Follows.handle (.program handler site)
      (fun failure ctx => ⟨.eval handler site, k, (ctx.report failure).2⟩) ?_
      (fun _ _ => rfl) fun _ ctx => ihhandler site k _)
    exact (ihbody ⟨[], site.scope⟩ (.program handler site :: k) ctx).bind
      fun _ _ => .single rfl

theorem runBody_follows (bound : Nat) : RunFollows (runBody bound) := by
  induction bound with
  | zero => exact fun f values k ctx => trivial
  | succ bound ih =>
    intro f values k ctx
    have hstep : Steps ⟨.body f values, k, ctx⟩ ⟨.eval f.body ⟨values, f.scope⟩, k, ctx⟩ := rfl
    exact .of_steps hstep (eval_follows_of_run ih f.body ⟨values, f.scope⟩ k ctx)

/-- The machine gets to where evaluation ends. -/
theorem eval_follows (bound : Nat) (e : Expr) (args : List Value) (scope : Scope) (ctx : Context) :
    Follows (start e args scope ctx) (arriveAt []) [] (e.eval (runBody bound) args scope ctx) :=
  eval_follows_of_run (runBody_follows bound) e ⟨args, scope⟩ [] ctx

end Eval

/-! ## Halting -/

/-- A failure is that of a state that halts, with everything as evaluation leaves it. -/
theorem halts_of_error {e : Expr} {args : List Value} {scope : Scope} {ctx ctx' : Context}
    {bound : Nat} {failure : Failure}
    (h : e.eval (runBody bound) args scope ctx = .error failure ctx') :
    ∃ final, Reaches (start e args scope ctx) final ∧ final.step = .halted ∧
      final.focus = .failure failure ∧ final.context = ctx' := by
  have hfollows := eval_follows bound e args scope ctx
  rw [h] at hfollows
  obtain ⟨inner, hopen, hreach⟩ := hfollows
  exact ⟨_, hreach, unwind_append hopen failure ctx' [], rfl, rfl⟩

/-- An evaluation that ends in a value or a failure is a run that halts with it. -/
theorem halts_of_meets {e : Expr} {args : List Value} {scope : Scope} {ctx : Context} {bound : Nat}
    {P : Value → Context → Prop} {Q : Failure → Context → Prop}
    (h : (e.eval (runBody bound) args scope ctx).Meets P Q False) :
    ∃ final, Reaches (start e args scope ctx) final ∧ final.step = .halted ∧
      final.outcome? = some (e.eval (runBody bound) args scope ctx) := by
  have hfollows := eval_follows bound e args scope ctx
  rcases h.ok_or_error with ⟨value, ctx', ho, -⟩ | ⟨failure, ctx', ho, -⟩
  · rw [ho] at hfollows ⊢
    exact ⟨arriveAt [] value ctx', hfollows, rfl, rfl⟩
  · obtain ⟨final, hreach, hhalted, hfocus, hctx⟩ := halts_of_error ho
    refine ⟨final, hreach, hhalted, ?_⟩
    unfold State.outcome?
    rw [hfocus, hhalted, hctx, ho]

end Machine
end TracedEval
