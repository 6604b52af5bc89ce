import TracedEval.Proofs.Shape

/-!
# Fragments of the language

Three forms look beyond their own value: `attempt` swallows failures, `execute` runs a program
inside the running one, and `depth` reads the call stack. A property that has to rule some of them
out does so for a `Fragment`, both in the body that is run and in every function that the run can
get hold of: in the environment, among the arguments, or captured by another function.

The main statement is `Expr.eval_within`: nothing outside of a fragment turns up while a body inside
of it is evaluated.
-/

namespace TracedEval

/-- Which of the forms that look beyond their own value are allowed. -/
structure Fragment where
  attempt : Bool
  execute : Bool
  depth : Bool
  deriving DecidableEq

namespace Fragment

/-- Everything is allowed. -/
def full : Fragment := ⟨true, true, true⟩

/-- No program runs inside another one. -/
def flat : Fragment := ⟨true, false, true⟩

/-- No program runs inside another one, and every failure ends the evaluation. -/
def direct : Fragment := ⟨false, false, true⟩

/-- None of the three forms is allowed. -/
def plain : Fragment := ⟨false, false, false⟩

end Fragment

/-! ## Bodies -/

mutual

/-- Whether a body keeps to `here`, and the bodies of the functions in it keep to `inside`. -/
def Expr.within (here inside : Fragment) : Expr → Bool
  | .literal _ | .argument _ | .localVar _ | .global _ _ | .raise _ _ => true
  | .letIn _ bound body => bound.within here inside && body.within here inside
  | .call _ _ operands => Expr.allWithin here inside operands
  | .apply callee _ _ operands =>
    callee.within here inside && Expr.allWithin here inside operands
  | .builtin _ _ operands => Expr.allWithin here inside operands
  | .binary _ _ left right => left.within here inside && right.within here inside
  | .negate _ operand => operand.within here inside
  | .cond guard branch otherwise =>
    guard.within here inside && branch.within here inside && otherwise.within here inside
  | .seq parts => Expr.allWithin here inside parts
  | .function _ _ body => body.within inside inside
  | .define _ value => value.within here inside
  | .depth => here.depth
  | .display operand => operand.within here inside
  | .attempt body handler =>
    here.attempt && body.within here inside && handler.within here inside
  | .execute body handler =>
    here.execute && body.within here inside && handler.within here inside

/-- Whether all of these bodies do. -/
def Expr.allWithin (here inside : Fragment) : List Expr → Bool
  | [] => true
  | first :: rest => first.within here inside && Expr.allWithin here inside rest

end

/-- Whether an operation keeps to the fragments. -/
def Operation.within (here inside : Fragment) : Operation → Bool
  | .function _ _ body => body.within inside inside
  | .depth => here.depth
  | _ => true

def Task.within (here inside : Fragment) : Task → Bool
  | .compute op => op.within here inside
  | .call _ _ | .apply _ _ => true

/-- Whether the form itself is allowed, apart from its parts. -/
def Shape.allowed (here inside : Fragment) : Shape → Bool
  | .task t _ => t.within here inside
  | .letIn .. | .cond .. => true
  | .attempt .. => here.attempt
  | .execute .. => here.execute

theorem Expr.allWithin_iff {here inside : Fragment} {bodies : List Expr} :
    Expr.allWithin here inside bodies ↔ ∀ e ∈ bodies, e.within here inside := by
  induction bodies with
  | nil => simp [Expr.allWithin]
  | cons first rest ih => simp [Expr.allWithin, ih]

/-- A body keeps to the fragments if its form does and its parts do. -/
theorem Expr.within_iff {here inside : Fragment} (e : Expr) :
    e.within here inside ↔
      e.shape.allowed here inside ∧ ∀ part ∈ e.shape.parts, part.within here inside := by
  cases e <;>
    simp [Expr.within, Expr.shape, Shape.allowed, Shape.parts, Task.within, Operation.within,
      Expr.allWithin_iff, and_assoc]

section Forms

variable {here inside : Fragment} {e : Expr}

theorem Expr.within_task {t : Task} {operands : List Expr} (hs : e.shape = .task t operands)
    (he : e.within here inside) :
    t.within here inside ∧ ∀ operand ∈ operands, operand.within here inside := by
  rw [Expr.within_iff, hs] at he
  exact he

theorem Expr.within_letIn {name : String} {bound body : Expr}
    (hs : e.shape = .letIn name bound body) (he : e.within here inside) :
    bound.within here inside ∧ body.within here inside := by
  rw [Expr.within_iff, hs] at he
  exact ⟨he.2 bound (by simp [Shape.parts]), he.2 body (by simp [Shape.parts])⟩

theorem Expr.within_cond {guard branch otherwise : Expr}
    (hs : e.shape = .cond guard branch otherwise) (he : e.within here inside) :
    guard.within here inside ∧ branch.within here inside ∧ otherwise.within here inside := by
  rw [Expr.within_iff, hs] at he
  exact ⟨he.2 guard (by simp [Shape.parts]), he.2 branch (by simp [Shape.parts]),
    he.2 otherwise (by simp [Shape.parts])⟩

theorem Expr.within_attempt {body handler : Expr} (hs : e.shape = .attempt body handler)
    (he : e.within here inside) :
    here.attempt = true ∧ body.within here inside ∧ handler.within here inside := by
  rw [Expr.within_iff, hs] at he
  exact ⟨he.1, he.2 body (by simp [Shape.parts]), he.2 handler (by simp [Shape.parts])⟩

theorem Expr.within_execute {body handler : Expr} (hs : e.shape = .execute body handler)
    (he : e.within here inside) :
    here.execute = true ∧ body.within here inside ∧ handler.within here inside := by
  rw [Expr.within_iff, hs] at he
  exact ⟨he.1, he.2 body (by simp [Shape.parts]), he.2 handler (by simp [Shape.parts])⟩

end Forms

/-! ## Values -/

mutual

/-- Whether the functions that a value gives access to keep to a fragment. -/
def Value.within (inside : Fragment) : Value → Bool
  | .function f => f.within inside
  | _ => true

/-- Whether a function and what it captured keep to a fragment. -/
def Closure.within (inside : Fragment) : Closure → Bool
  | ⟨_, _, body, scope, _⟩ => body.within inside inside && scope.within inside

/-- Whether the values in scope keep to a fragment. -/
def Scope.within (inside : Fragment) : Scope → Bool
  | .empty => true
  | .bind _ value outer => value.within inside && outer.within inside

end

/-- Whether the global bindings keep to a fragment. -/
def Environment.within (inside : Fragment) (env : Environment) : Bool :=
  env.bindings.all fun binding => binding.2.within inside

/-- Whether all of these values keep to a fragment. -/
def Value.allWithin (inside : Fragment) (values : List Value) : Prop :=
  ∀ value ∈ values, value.within inside

section Lookup

variable {inside : Fragment}

theorem Closure.within_iff {f : Closure} :
    f.within inside ↔ f.body.within inside inside ∧ f.scope.within inside := by
  cases f
  simp [Closure.within]

theorem Scope.within_empty : Scope.empty.within inside := rfl

theorem Scope.within_bind {scope : Scope} {value : Value} (name : String)
    (hvalue : value.within inside) (hscope : scope.within inside) :
    (scope.bind name value).within inside := by
  simp [Scope.within, hvalue, hscope]

theorem Scope.within_get? (name : String) :
    ∀ {scope : Scope}, scope.within inside → ((scope.get? name).getD .nil).within inside
  | .empty, _ => rfl
  | .bind bound value outer, h => by
    rw [Scope.within, Bool.and_eq_true] at h
    rw [Scope.get?]
    by_cases hname : bound = name
    · rw [if_pos hname]
      exact h.1
    · rw [if_neg hname]
      exact Scope.within_get? name h.2

theorem Environment.within_define {env : Environment} (henv : env.within inside) {value : Value}
    (hvalue : value.within inside) (name : String) :
    (env.define name value).within inside := by
  simp only [Environment.within, Environment.define, List.all_cons, Bool.and_eq_true,
    List.all_eq_true] at henv ⊢
  exact ⟨hvalue, fun binding hmem => henv binding (List.mem_filter.mp hmem).1⟩

theorem Environment.within_get {env : Environment} (henv : env.within inside) {name : String}
    {value : Value} (h : env.get name = .ok value) : value.within inside := by
  unfold Environment.get at h
  split at h
  · rename_i found hget
    rw [Except.ok.injEq] at h
    subst h
    -- what is found was bound, and all that is bound keeps to the fragment
    obtain ⟨before, after, hbindings, -⟩ := List.lookup_eq_some_iff.mp hget
    simp only [Environment.within, List.all_eq_true] at henv
    exact henv (name, found) (by simp [hbindings])
  · simp at h

/-- Every context starts out inside of every fragment. -/
theorem Environment.within_initial : Environment.initial.within inside := by
  simp [Environment.initial, Environment.within, Environment.define, Environment.empty,
    Builtin.all, Value.within]

theorem Value.within_getD {values : List Value} (h : Value.allWithin inside values) (i : Nat) :
    (values.getD i .nil).within inside := by
  rw [List.getD_eq_getElem?_getD]
  cases hi : values[i]? with
  | none => rfl
  | some value => exact h value (List.mem_of_getElem? hi)

theorem Value.allWithin_nil : Value.allWithin inside [] :=
  fun _ hmem => absurd hmem List.not_mem_nil

theorem Value.within_headD {values : List Value} (h : Value.allWithin inside values) :
    ∀ value ∈ some (values.headD .nil), value.within inside := by
  intro value hmem
  rw [Option.mem_some_iff] at hmem
  subst hmem
  cases values with
  | nil => rfl
  | cons first rest => exact h first List.mem_cons_self

theorem Value.allWithin_tail {values : List Value} (h : Value.allWithin inside values) :
    Value.allWithin inside values.tail :=
  fun value hmem => h value (List.mem_of_mem_tail hmem)

end Lookup

/-! ## What operations give -/

section Results

variable {inside : Fragment}

/-- Only functions that a program has made can be outside of a fragment. -/
theorem Value.within_of_ne_function {v : Value} (h : ∀ f, v ≠ .function f) : v.within inside := by
  cases v with
  | function f => exact absurd rfl (h f)
  | nil | boolean | number | string | builtin => rfl

theorem Literal.value_ne_function (l : Literal) (f : Closure) : l.value ≠ .function f := by
  cases l <;> exact Value.noConfusion

theorem Operator.onNumbers_ne_function (op : Operator) (x y : Float) (f : Closure) :
    op.onNumbers x y ≠ .function f := by
  cases op <;> exact Value.noConfusion

theorem Operator.ne_function_of_onStrings? {op : Operator} {s t : String} {value : Value}
    (h : op.onStrings? s t = some value) (f : Closure) : value ≠ .function f := by
  cases op <;> simp [Operator.onStrings?] at h <;> subst h <;> exact Value.noConfusion

theorem Operator.ne_function_of_apply {op : Operator} {left right value : Value}
    (h : op.apply left right = .ok value) (f : Closure) : value ≠ .function f := by
  unfold Operator.apply at h
  split at h
  · cases h; exact Value.noConfusion
  · cases h; exact Value.noConfusion
  · split at h
    · cases h; exact Operator.onNumbers_ne_function _ _ _ _
    · split at h
      · cases h; exact Operator.ne_function_of_onStrings? ‹_› _
      · cases h
    · split at h <;> cases h; exact Value.noConfusion
    · split at h <;> cases h; exact Value.noConfusion
    · cases h

theorem Value.ne_function_of_negate {x value : Value} (h : x.negate = .ok value) (f : Closure) :
    value ≠ .function f := by
  cases x <;> simp [Value.negate] at h
  subst h
  exact Value.noConfusion

theorem Builtin.ne_function_of_call {b : Builtin} {args : List Value} {output : Output}
    {value : Value} (h : (b.call args output).1 = .ok value) (f : Closure) :
    value ≠ .function f := by
  cases b with
  | sum =>
    simp only [Builtin.call] at h
    split at h
    · cases h
    · cases hn : Builtin.sum.numbers args <;> rw [hn] at h <;> cases h
      exact Value.noConfusion
  | sub =>
    simp only [Builtin.call] at h
    split at h
    · cases h
    · cases hn : Builtin.sub.numbers args <;> rw [hn] at h <;> cases h
      exact Value.noConfusion
  | print =>
    simp only [Builtin.call] at h
    split at h <;> cases h
    exact Value.noConfusion

theorem Builtin.within_call {b : Builtin} {args : List Value} {output : Output} {value : Value}
    (h : (b.call args output).1 = .ok value) : value.within inside :=
  Value.within_of_ne_function (Builtin.ne_function_of_call h)

theorem Position.eq_ok_of_blame {α : Type} {pos : Position} {result : Except Fault α} {value : α}
    (h : pos.blame result = .ok value) : result = .ok value := by
  cases result with
  | ok => cases h; rfl
  | error => cases h

/-- An operation inside of a fragment gives a value inside of it and leaves the environment there.
-/
theorem Operation.within_run {here : Fragment} {op : Operation} (hop : op.within here inside)
    {args : List Value} (hargs : Value.allWithin inside args) {scope : Scope}
    (hscope : scope.within inside) {values : List Value} (hvalues : Value.allWithin inside values)
    {w : World} (hw : w.environment.within inside) (depth : Nat) :
    (∀ value, (op.run depth args scope values w).1 = .ok value → value.within inside) ∧
      (op.run depth args scope values w).2.environment.within inside := by
  cases op with
  | literal value =>
    refine ⟨fun v hv => ?_, hw⟩
    cases hv
    exact Value.within_of_ne_function value.value_ne_function
  | argument i =>
    refine ⟨fun v hv => ?_, hw⟩
    cases hv
    simpa using Value.within_getD hargs i
  | localVar name =>
    refine ⟨fun v hv => ?_, hw⟩
    cases hv
    exact Scope.within_get? name hscope
  | global name pos =>
    exact ⟨fun v hv => Environment.within_get hw (Position.eq_ok_of_blame hv), hw⟩
  | builtin b pos =>
    exact ⟨fun v hv => Builtin.within_call (Position.eq_ok_of_blame hv), hw⟩
  | binary op pos =>
    exact ⟨fun v hv => Value.within_of_ne_function
      (Operator.ne_function_of_apply (Position.eq_ok_of_blame hv)), hw⟩
  | negate pos =>
    exact ⟨fun v hv => Value.within_of_ne_function
      (Value.ne_function_of_negate (Position.eq_ok_of_blame hv)), hw⟩
  | seq =>
    refine ⟨fun v hv => ?_, hw⟩
    cases hv
    cases hlast : values.getLast? with
    | none => rfl
    | some last => exact hvalues last (List.mem_of_getLast? hlast)
  | raise pos message => exact ⟨fun v hv => (by cases hv), hw⟩
  | function name arity body =>
    refine ⟨fun v hv => ?_, hw⟩
    cases hv
    exact Closure.within_iff.mpr ⟨hop, hscope⟩
  | define name =>
    refine ⟨fun v hv => ?_, Environment.within_define hw (Value.within_getD hvalues 0) name⟩
    cases hv
    rfl
  | depth | display =>
    refine ⟨fun v hv => ?_, hw⟩
    cases hv
    rfl

end Results

/-! ## Evaluation -/

section Eval

variable {here inside : Fragment}

/-- What an outcome holds on to keeps to a fragment: the values that it gives, and the environment
that it leaves. -/
def Outcome.Within {ε α : Type} (inside : Fragment) (keeps : α → Prop) (o : Outcome ε α) : Prop :=
  o.Meets (fun value ctx => keeps value ∧ ctx.environment.within inside)
    (fun _ ctx => ctx.environment.within inside) True

/-- Running functions inside of a fragment stays inside of it. -/
def BodyRunner.KeepsWithin (inside : Fragment) (run : BodyRunner) : Prop :=
  ∀ f args ctx, f.within inside → Value.allWithin inside args → ctx.environment.within inside →
    (run f args ctx).Within inside fun value => value.within inside

theorem Outcome.within_ofWorld {ctx : Context} {result : Except Failure Value × World}
    (hvalue : ∀ value, result.1 = .ok value → value.within inside)
    (hworld : result.2.environment.within inside) :
    (Outcome.ofWorld ctx result).Within inside fun value => value.within inside := by
  obtain ⟨result, w⟩ := result
  cases result with
  | ok value => exact ⟨hvalue value rfl, hworld⟩
  | error => exact hworld

theorem Resolution.within_of_resolve {limit size : Nat} {env : Environment}
    (henv : env.within inside) {callee : Option Value}
    (hcallee : ∀ value ∈ callee, value.within inside) {name : String} {pos : Position}
    {values : List Value} {f : Closure}
    (h : resolve limit size env callee name pos values = body f) : f.within inside := by
  -- the value that is called was an operand, or it was bound in the environment
  rcases callee_of_resolve h with hoperand | hget
  · exact hcallee (.function f) hoperand
  · exact Environment.within_get henv hget

theorem Context.within_track {run : BodyRunner} (hrun : run.KeepsWithin inside) {ctx : Context}
    (henv : ctx.environment.within inside) {callee : Option Value}
    (hcallee : ∀ value ∈ callee, value.within inside) {values : List Value}
    (hvalues : Value.allWithin inside values) (name : String) (pos : Position) :
    (ctx.track run callee name pos values).Within inside fun value => value.within inside := by
  unfold Context.track
  refine Outcome.Meets.bind (P := fun value ctx =>
    value.within inside ∧ ctx.environment.within inside) ?_ ?_
  · cases hres : Resolution.resolve ctx.maxDepth (ctx.entered ⟨name, pos⟩).callStack.size
      ctx.environment callee name pos values with
    | refused failure => exact henv
    | builtin b =>
      exact Outcome.within_ofWorld
        (fun value hv => Builtin.within_call (Position.eq_ok_of_blame hv)) henv
    | body f =>
      exact hrun f values (ctx.entered ⟨name, pos⟩)
        (Resolution.within_of_resolve henv hcallee hres) hvalues henv
  · rintro value ctx ⟨hvalue, henv⟩
    unfold Context.leave
    split
    · exact ⟨hvalue, henv⟩
    · trivial

theorem Task.within_perform {run : BodyRunner} (hrun : run.KeepsWithin inside) {t : Task}
    (ht : t.within here inside) {args : List Value} (hargs : Value.allWithin inside args)
    {scope : Scope} (hscope : scope.within inside) {values : List Value}
    (hvalues : Value.allWithin inside values) {ctx : Context}
    (henv : ctx.environment.within inside) :
    (t.perform run args scope values ctx).Within inside fun value => value.within inside := by
  cases t with
  | compute op =>
    obtain ⟨hvalue, hworld⟩ :=
      Operation.within_run ht hargs hscope hvalues (w := ctx.world) henv ctx.callStack.size
    exact Outcome.within_ofWorld hvalue hworld
  | call name pos =>
    exact Context.within_track hrun henv (by simp) hvalues name pos
  | apply name pos =>
    exact Context.within_track hrun henv (Value.within_headD hvalues)
      (Value.allWithin_tail hvalues) name pos

theorem Expr.evalAll_within {run : BodyRunner} {args : List Value} {scope : Scope}
    {operands : List Expr}
    (h : ∀ operand ∈ operands, ∀ ctx : Context, ctx.environment.within inside →
      (operand.eval run args scope ctx).Within inside fun value => value.within inside)
    {ctx : Context} (henv : ctx.environment.within inside) :
    (Expr.evalAll run args scope ctx operands).Within inside (Value.allWithin inside) := by
  induction operands generalizing ctx with
  | nil => exact ⟨Value.allWithin_nil, henv⟩
  | cons first rest ih =>
    rw [Expr.evalAll]
    refine Outcome.Meets.bind (h first List.mem_cons_self ctx henv) ?_
    rintro value ctx ⟨hvalue, henv⟩
    refine Outcome.Meets.bind (ih (fun o ho => h o (List.mem_cons_of_mem _ ho)) henv) ?_
    rintro values ctx ⟨hvalues, henv⟩
    exact ⟨List.forall_mem_cons.mpr ⟨hvalue, hvalues⟩, henv⟩

theorem Context.within_settle {o : Outcome Failure Value}
    (h : o.Within inside fun value => value.within inside) :
    (Context.settle o).Within inside fun value => value.within inside := by
  cases o with
  | ok value ctx => exact h
  | error failure ctx =>
    show (ctx.report failure).2.environment.within inside
    rw [Context.environment_report]
    exact h
  | underflow | exhausted => trivial

theorem Expr.eval_within_of_run {run : BodyRunner} (hrun : run.KeepsWithin inside) (e : Expr) :
    e.within here inside → ∀ (args : List Value) (scope : Scope) (ctx : Context),
      Value.allWithin inside args → scope.within inside → ctx.environment.within inside →
        (e.eval run args scope ctx).Within inside fun value => value.within inside := by
  induction e using Expr.shapeInduction with
  | task e t operands hs ih =>
    intro he args scope ctx hargs hscope henv
    obtain ⟨ht, hoperands⟩ := Expr.within_task hs he
    rw [Expr.eval_shape, hs]
    refine Outcome.Meets.bind (Expr.evalAll_within (fun operand hmem ctx henv =>
      ih operand hmem (hoperands operand hmem) args scope ctx hargs hscope henv) henv) ?_
    rintro values ctx ⟨hvalues, henv⟩
    -- the task gets its values in the environment that the operands have left
    exact Task.within_perform hrun ht hargs hscope hvalues henv
  | letIn e name bound body hs ihbound ihbody =>
    intro he args scope ctx hargs hscope henv
    obtain ⟨hbound, hbody⟩ := Expr.within_letIn hs he
    rw [Expr.eval_shape, hs]
    refine Outcome.Meets.bind (ihbound hbound args scope ctx hargs hscope henv) ?_
    rintro value ctx ⟨hvalue, henv⟩
    exact ihbody hbody args _ ctx hargs (Scope.within_bind name hvalue hscope) henv
  | cond e guard branch otherwise hs ihguard ihbranch ihotherwise =>
    intro he args scope ctx hargs hscope henv
    obtain ⟨hguard, hbranch, hotherwise⟩ := Expr.within_cond hs he
    rw [Expr.eval_shape, hs]
    refine Outcome.Meets.bind (ihguard hguard args scope ctx hargs hscope henv) ?_
    rintro value ctx ⟨-, henv⟩
    dsimp only
    split
    · exact ihbranch hbranch args scope ctx hargs hscope henv
    · exact ihotherwise hotherwise args scope ctx hargs hscope henv
  | attempt e body handler hs ihbody ihhandler =>
    intro he args scope ctx hargs hscope henv
    obtain ⟨-, hbody, hhandler⟩ := Expr.within_attempt hs he
    rw [Expr.eval_shape, hs]
    refine Outcome.Meets.handle (ihbody hbody args scope ctx hargs hscope henv) ?_
    intro _ ctx henv
    exact ihhandler hhandler args scope ctx hargs hscope henv
  | execute e body handler hs ihbody ihhandler =>
    intro he args scope ctx hargs hscope henv
    obtain ⟨-, hbody, hhandler⟩ := Expr.within_execute hs he
    rw [Expr.eval_shape, hs]
    have hended := ihbody hbody [] scope ctx Value.allWithin_nil hscope henv
    refine Outcome.Meets.handle (Context.within_settle hended) ?_
    intro _ ctx henv
    exact ihhandler hhandler args scope ctx hargs hscope henv

theorem runBody_keepsWithin (bound : Nat) : (runBody bound).KeepsWithin inside := by
  induction bound with
  | zero => exact fun f args ctx _ _ _ => trivial
  | succ bound ih =>
    intro f args ctx hf hargs henv
    rw [Closure.within_iff] at hf
    exact Expr.eval_within_of_run ih f.body hf.1 args f.scope ctx hargs hf.2 henv

/-- Nothing outside of a fragment turns up while a body inside of it is evaluated. -/
theorem Expr.eval_within {e : Expr} (he : e.within here inside) {args : List Value}
    (hargs : Value.allWithin inside args) {scope : Scope} (hscope : scope.within inside)
    {ctx : Context} (henv : ctx.environment.within inside) (bound : Nat) :
    (e.eval (runBody bound) args scope ctx).Within inside fun value => value.within inside :=
  Expr.eval_within_of_run (runBody_keepsWithin bound) e he args scope ctx hargs hscope henv

end Eval

end TracedEval
