import TracedEval.Proofs.Fragment
import TracedEval.Proofs.Machine.Functions

/-!
# Renaming identities

What numbers functions are told apart by makes no difference. If the identities in a context are
renamed one to one, then an evaluation in it comes to the same, with the identities in its outcome
renamed in the same way. The identities that are still to be given out have to stay in a row; where
they start is free.

* `Value.rename`, `Context.rename` and so on rename the identities in something;
* `Renumbering` is what has to be known of a renaming, and `Outcome.Renamed` that of two outcomes the
  second is the first one renamed;
* `Context.evaluate_renamed` is the statement for evaluation, and `Context.execute_renamed` for
  programs.
-/

namespace TracedEval

/-! ## Renaming -/

mutual

/-- The value with other identities. -/
def Value.rename (ρ : Nat → Nat) : Value → Value
  | .function f => .function (f.rename ρ)
  | .nil => .nil
  | .boolean b => .boolean b
  | .number x => .number x
  | .string s => .string s
  | .builtin b => .builtin b

/-- The function with other identities, its own and those of what it captured. -/
def Closure.rename (ρ : Nat → Nat) : Closure → Closure
  | ⟨name, arity, body, scope, identity⟩ => ⟨name, arity, body, scope.rename ρ, ρ identity⟩

/-- The locals with other identities. -/
def Scope.rename (ρ : Nat → Nat) : Scope → Scope
  | .empty => .empty
  | .bind name value outer => .bind name (value.rename ρ) (outer.rename ρ)

end

/-- The bindings with other identities. -/
def Environment.rename (ρ : Nat → Nat) (env : Environment) : Environment :=
  ⟨env.bindings.map fun (name, value) => (name, value.rename ρ)⟩

/-- The context with other identities, also for the functions to come. -/
def Context.rename (ρ : Nat → Nat) (ctx : Context) : Context :=
  { ctx with environment := ctx.environment.rename ρ, nextIdentity := ρ ctx.nextIdentity }

def World.rename (ρ : Nat → Nat) (w : World) : World :=
  { w with environment := w.environment.rename ρ, nextIdentity := ρ w.nextIdentity }

/-- A renaming that is one to one, and leaves the identities from `least` on in a row. -/
structure Renumbering (ρ : Nat → Nat) (least : Nat) : Prop where
  injective : Function.Injective ρ
  succ : ∀ n, least ≤ n → ρ (n + 1) = ρ n + 1

/-! ## Values -/

section Values

variable {ρ : Nat → Nat} {least : Nat}

@[simp] theorem Closure.name_rename (f : Closure) : (f.rename ρ).name = f.name := by cases f; rfl

@[simp] theorem Closure.arity_rename (f : Closure) : (f.rename ρ).arity = f.arity := by cases f; rfl

@[simp] theorem Closure.body_rename (f : Closure) : (f.rename ρ).body = f.body := by cases f; rfl

@[simp] theorem Closure.scope_rename (f : Closure) : (f.rename ρ).scope = f.scope.rename ρ := by
  cases f; rfl

@[simp] theorem Closure.identity_rename (f : Closure) : (f.rename ρ).identity = ρ f.identity := by
  cases f; rfl

theorem Value.rename_of_ne_function {v : Value} (h : ∀ f, v ≠ .function f) : v.rename ρ = v := by
  cases v with
  | function f => exact absurd rfl (h f)
  | nil | boolean | number | string | builtin => rfl

@[simp] theorem Value.type_rename (v : Value) : (v.rename ρ).type = v.type := by
  cases v <;> rfl

@[simp] theorem Value.display_rename (v : Value) : (v.rename ρ).display = v.display := by
  cases v with
  | function f => simp [rename, display]
  | nil | boolean | number | string | builtin => rfl

@[simp] theorem Value.isTruthy_rename (v : Value) : (v.rename ρ).isTruthy = v.isTruthy := by
  cases v <;> rfl

/-- This is where the renaming has to be one to one. -/
theorem Value.strictEquals_rename (hρ : Function.Injective ρ) (v w : Value) :
    (v.rename ρ).strictEquals (w.rename ρ) = v.strictEquals w := by
  cases v with
  | function f =>
    cases w with
    | function g =>
      show ((f.rename ρ).identity == (g.rename ρ).identity) = (f.identity == g.identity)
      rw [Closure.identity_rename, Closure.identity_rename, Bool.eq_iff_iff, beq_iff_eq, beq_iff_eq,
        hρ.eq_iff]
    | nil | boolean | number | string | builtin => rfl
  | nil | boolean | number | string | builtin => cases w <;> rfl

theorem Value.getD_rename (found : Option Value) :
    (found.map (Value.rename ρ)).getD .nil = (found.getD .nil).rename ρ := by
  cases found <;> rfl

theorem Scope.get?_rename (name : String) :
    ∀ scope : Scope, (scope.rename ρ).get? name = (scope.get? name).map (Value.rename ρ)
  | .empty => rfl
  | .bind bound value outer => by
    rw [Scope.rename, Scope.get?, Scope.get?, Scope.get?_rename name outer]
    split <;> rfl

theorem Environment.get_rename (env : Environment) (name : String) :
    (env.rename ρ).get name = (env.get name).map (Value.rename ρ) := by
  have hget : (env.rename ρ).get? name = (env.get? name).map (Value.rename ρ) := by
    obtain ⟨bindings⟩ := env
    show (bindings.map _).lookup name = (bindings.lookup name).map _
    induction bindings with
    | nil => rfl
    | cons binding rest ih =>
      rw [List.map_cons, List.lookup_cons, List.lookup_cons, ih]
      split <;> rfl
  unfold Environment.get
  rw [hget]
  cases env.get? name <;> rfl

theorem Environment.define_rename (env : Environment) (name : String) (value : Value) :
    (env.define name value).rename ρ = (env.rename ρ).define name (value.rename ρ) := by
  unfold Environment.define Environment.rename
  rw [List.map_cons, List.filter_map]
  rfl

end Values

/-! ## Operations -/

section Operations

variable {ρ : Nat → Nat} {least : Nat}

/-- A result that is no function is what it was. -/
theorem Except.map_rename_of_ne_function {result : Except Fault Value}
    (h : ∀ v, result = .ok v → ∀ f, v ≠ .function f) :
    result.map (Value.rename ρ) = result := by
  cases result with
  | error => rfl
  | ok v => exact congrArg Except.ok (Value.rename_of_ne_function (h v rfl))

theorem Operator.apply_rename (hρ : Function.Injective ρ) (op : Operator) (v w : Value) :
    op.apply (v.rename ρ) (w.rename ρ) = op.apply v w := by
  have hmismatch : op.mismatch (v.rename ρ) (w.rename ρ) = op.mismatch v w := by
    simp [Operator.mismatch]
  have hdisplay : ∀ f : Closure, (Value.function (f.rename ρ)).display =
      (Value.function f).display := fun f => Value.display_rename (.function f)
  by_cases hequal : op = .equal ∨ op = .notEqual
  · rcases hequal with rfl | rfl <;> simp [Operator.apply, Value.strictEquals_rename hρ]
  · obtain ⟨hne, hne'⟩ := not_or.mp hequal
    -- of a function no more than its text can count
    cases v with
    | function f =>
      cases w <;> simp only [Operator.apply, Value.rename, hdisplay] at hmismatch ⊢ <;>
        rw [hmismatch]
    | _ =>
      cases w with
      | function g =>
        simp only [Operator.apply, Value.rename, hdisplay] at hmismatch ⊢
        rw [hmismatch]
      | _ => rfl

theorem Value.negate_rename (v : Value) : (v.rename ρ).negate = v.negate := by
  cases v <;> rfl

theorem Builtin.numbers_rename (b : Builtin) (values : List Value) :
    b.numbers (values.map (Value.rename ρ)) = b.numbers values := by
  induction values with
  | nil => rfl
  | cons v rest ih =>
    cases v with
    | number x => exact congrArg (Except.map (x :: ·)) ih
    | nil | boolean | string | function | builtin => rfl

theorem Builtin.call_rename (b : Builtin) (values : List Value) (out : Output) :
    b.call (values.map (Value.rename ρ)) out = b.call values out := by
  have hline : printedLine (values.map (Value.rename ρ)) = printedLine values := by
    simp [printedLine, Function.comp_def]
  cases b with
  | sum => simp only [Builtin.call, List.length_map, Builtin.numbers_rename]
  | sub => simp only [Builtin.call, List.length_map, Builtin.numbers_rename]
  | print => simp only [Builtin.call, hline]

theorem Position.blame_map (pos : Position) (result : Except Fault Value) (f : Value → Value) :
    pos.blame (result.map f) = (pos.blame result).map f := by
  cases result <;> rfl

theorem Builtin.runOn_rename (b : Builtin) (pos : Position) (values : List Value) (w : World) :
    b.runOn pos (values.map (Value.rename ρ)) (w.rename ρ) =
      ((b.runOn pos values w).1.map (Value.rename ρ), (b.runOn pos values w).2.rename ρ) := by
  have hcall : b.call (values.map (Value.rename ρ)) (w.rename ρ).output =
      b.call values w.output := b.call_rename values w.output
  have hresult : (pos.blame (b.call values w.output).1).map (Value.rename ρ) =
      pos.blame (b.call values w.output).1 := by
    rw [← Position.blame_map,
      Except.map_rename_of_ne_function fun v hv => Builtin.ne_function_of_call hv]
  unfold Builtin.runOn
  rw [hcall, hresult]
  rfl

/-- What an operation does to renamed values is what it does to the values, renamed. -/
theorem Operation.run_rename (hρ : Renumbering ρ least) (op : Operation) (depth : Nat)
    (args : List Value) (scope : Scope) (values : List Value) {w : World}
    (hw : least ≤ w.nextIdentity) :
    op.run depth (args.map (Value.rename ρ)) (scope.rename ρ) (values.map (Value.rename ρ))
        (w.rename ρ) =
      ((op.run depth args scope values w).1.map (Value.rename ρ),
        (op.run depth args scope values w).2.rename ρ) := by
  have hoperand : ∀ i, (values.map (Value.rename ρ)).getD i .nil =
      (values.getD i .nil).rename ρ := by
    intro i
    rw [List.getD_eq_getElem?_getD, List.getD_eq_getElem?_getD, List.getElem?_map,
      Value.getD_rename]
  cases op with
  | literal value =>
    have hvalue : value.value.rename ρ = value.value :=
      Value.rename_of_ne_function value.value_ne_function
    simp only [run, Except.map, hvalue]
  | argument i => simp only [run, Except.map, List.getElem?_map, Value.getD_rename]
  | localVar name => simp only [run, Except.map, Scope.get?_rename, Value.getD_rename]
  | global name pos =>
    show (pos.blame ((w.environment.rename ρ).get name), w.rename ρ) = _
    rw [Environment.get_rename, Position.blame_map]
    rfl
  | builtin b pos => exact b.runOn_rename pos values w
  | binary op pos =>
    simp only [run, hoperand, Operator.apply_rename hρ.injective, ← Position.blame_map]
    rw [Except.map_rename_of_ne_function fun v hv => Operator.ne_function_of_apply hv]
  | negate pos =>
    simp only [run, hoperand, Value.negate_rename, ← Position.blame_map]
    rw [Except.map_rename_of_ne_function fun v hv => Value.ne_function_of_negate hv]
  | seq => simp only [run, Except.map, List.getLast?_map, Value.getD_rename]
  | raise pos message => rfl
  | function name arity body =>
    -- the function after this one has to get the identity after it as well
    have hnext : ρ (w.nextIdentity + 1) = ρ w.nextIdentity + 1 := hρ.succ _ hw
    simp only [run, Except.map, World.rename, Value.rename, Closure.rename, hnext]
  | define name =>
    simp only [run, Except.map, World.rename, hoperand, Environment.define_rename, Value.rename]
  | depth => rfl
  | display => simp only [run, Except.map, hoperand, Value.display_rename, Value.rename]

theorem Operation.nextIdentity_run (op : Operation) (depth : Nat) (args : List Value)
    (scope : Scope) (values : List Value) (w : World) :
    w.nextIdentity ≤ (op.run depth args scope values w).2.nextIdentity := by
  cases op with
  | function name arity body => exact Nat.le_succ _
  | _ => exact Nat.le_refl _

end Operations

/-! ## Outcomes -/

/-- The second outcome is the first one renamed, and the identities that are still to be given out
are among those from `least` on. -/
def Outcome.Renamed {ε α : Type} (ρ : Nat → Nat) (least : Nat) (f : α → α)
    (o o' : Outcome ε α) : Prop :=
  match o with
  | .ok value ctx => least ≤ ctx.nextIdentity ∧ o' = .ok (f value) (ctx.rename ρ)
  | .error e ctx => least ≤ ctx.nextIdentity ∧ o' = .error e (ctx.rename ρ)
  | .underflow => o' = .underflow
  | .exhausted => o' = .exhausted

section Outcomes

variable {ε ε' α β : Type} {ρ : Nat → Nat} {least : Nat} {f : α → α} {g : β → β}
  {o o' : Outcome ε α}

theorem Outcome.Renamed.bind {next next' : α → Context → Outcome ε β}
    (h : o.Renamed ρ least f o')
    (hnext : ∀ value ctx, least ≤ ctx.nextIdentity →
      (next value ctx).Renamed ρ least g (next' (f value) (ctx.rename ρ))) :
    (o.bind next).Renamed ρ least g (o'.bind next') := by
  cases o with
  | ok value ctx =>
    obtain ⟨hle, rfl⟩ := h
    exact hnext value ctx hle
  | error e ctx =>
    obtain ⟨hle, rfl⟩ := h
    exact ⟨hle, rfl⟩
  | underflow | exhausted =>
    cases h
    rfl

theorem Outcome.Renamed.handle {handler handler' : ε → Context → Outcome ε' α}
    (h : o.Renamed ρ least f o')
    (hhandler : ∀ e ctx, least ≤ ctx.nextIdentity →
      (handler e ctx).Renamed ρ least f (handler' e (ctx.rename ρ))) :
    (o.handle handler).Renamed ρ least f (o'.handle handler') := by
  cases o with
  | error e ctx =>
    obtain ⟨hle, rfl⟩ := h
    exact hhandler e ctx hle
  | ok value ctx =>
    obtain ⟨hle, rfl⟩ := h
    exact ⟨hle, rfl⟩
  | underflow | exhausted =>
    cases h
    rfl

theorem Outcome.renamed_ofWorld {result : Except ε α × World} {ctx : Context}
    (hle : least ≤ result.2.nextIdentity) :
    (Outcome.ofWorld ctx result).Renamed ρ least f
      (.ofWorld (ctx.rename ρ) (result.1.map f, result.2.rename ρ)) := by
  obtain ⟨result, w⟩ := result
  cases result <;> exact ⟨hle, rfl⟩

end Outcomes

/-! ## Calls -/

section Calls

variable {ρ : Nat → Nat} {least : Nat}

/-- What a call comes to with other identities. -/
def Resolution.rename (ρ : Nat → Nat) : Resolution → Resolution
  | refused failure => refused failure
  | builtin b => builtin b
  | body f => body (f.rename ρ)

theorem Resolution.ofValue_rename (callee : Value) (name : String) (pos : Position)
    (values : List Value) :
    ofValue (callee.rename ρ) name pos (values.map (Value.rename ρ)) =
      (ofValue callee name pos values).rename ρ := by
  cases callee with
  | function f =>
    simp only [Value.rename, ofValue, List.length_map, Closure.arity_rename]
    split <;> rfl
  | nil | boolean | number | string | builtin => rfl

theorem Resolution.resolve_rename (limit size : Nat) (env : Environment) (callee : Option Value)
    (name : String) (pos : Position) (values : List Value) :
    resolve limit size (env.rename ρ) (callee.map (Value.rename ρ)) name pos
        (values.map (Value.rename ρ)) =
      (resolve limit size env callee name pos values).rename ρ := by
  unfold resolve
  by_cases hsize : limit < size
  · rw [if_pos hsize, if_pos hsize]
    rfl
  · rw [if_neg hsize, if_neg hsize]
    cases callee with
    | some callee => exact ofValue_rename callee name pos values
    | none =>
      rw [Option.map_none, Environment.get_rename]
      cases env.get name with
      | ok callee => exact ofValue_rename callee name pos values
      | error fault => rfl

theorem Context.renamed_leave (value : Value) {ctx : Context} (hle : least ≤ ctx.nextIdentity) :
    (ctx.leave value).Renamed ρ least (Value.rename ρ)
      ((ctx.rename ρ).leave (value.rename ρ)) := by
  have hstack : (ctx.rename ρ).callStack = ctx.callStack := rfl
  unfold leave
  rw [hstack]
  cases ctx.callStack.leave? with
  | some stack => exact ⟨hle, rfl⟩
  | none => rfl

/-- The handler of failures does not see identities. -/
theorem Context.report_rename (ctx : Context) (failure : Failure) :
    (ctx.rename ρ).report failure =
      ((ctx.report failure).1, (ctx.report failure).2.rename ρ) := by
  have hlines : (ctx.rename ρ).output.writeLines ((Report.ofFailure failure
      (ctx.rename ρ).callStack.frames).lines (ctx.rename ρ).traceFormat) =
        ctx.output.writeLines ((Report.ofFailure failure ctx.callStack.frames).lines
          ctx.traceFormat) := rfl
  unfold report
  dsimp only
  rw [hlines]
  generalize ctx.output.writeLines _ = written
  obtain ⟨output, error⟩ := written
  cases error <;> rfl

theorem Context.nextIdentity_report (ctx : Context) (failure : Failure) :
    (ctx.report failure).2.nextIdentity = ctx.nextIdentity := by
  rw [report_eq]

theorem Context.renamed_settle {o o' : Outcome Failure Value}
    (h : o.Renamed ρ least (Value.rename ρ) o') :
    (settle o).Renamed ρ least (Value.rename ρ) (settle o') := by
  cases o with
  | ok value ctx =>
    obtain ⟨hle, rfl⟩ := h
    exact ⟨hle, rfl⟩
  | error failure ctx =>
    obtain ⟨hle, rfl⟩ := h
    refine ⟨?_, ?_⟩
    · show least ≤ (ctx.report failure).2.nextIdentity
      rwa [nextIdentity_report]
    · show Outcome.error ((ctx.rename ρ).report failure).1 ((ctx.rename ρ).report failure).2 = _
      rw [report_rename]
      rfl
  | underflow | exhausted =>
    cases h
    rfl

/-- Running functions with other identities comes to the same. -/
def BodyRunner.Renames (run : BodyRunner) (ρ : Nat → Nat) (least : Nat) : Prop :=
  ∀ f values ctx, least ≤ ctx.nextIdentity →
    (run f values ctx).Renamed ρ least (Value.rename ρ)
      (run (f.rename ρ) (values.map (Value.rename ρ)) (ctx.rename ρ))

theorem Context.renamed_track {run : BodyRunner} (hrun : run.Renames ρ least) {ctx : Context}
    (hle : least ≤ ctx.nextIdentity) (callee : Option Value) (name : String) (pos : Position)
    (values : List Value) :
    (ctx.track run callee name pos values).Renamed ρ least (Value.rename ρ)
      ((ctx.rename ρ).track run (callee.map (Value.rename ρ)) name pos
        (values.map (Value.rename ρ))) := by
  have hresolve := Resolution.resolve_rename (ρ := ρ) ctx.maxDepth (ctx.callStack.size + 1)
    ctx.environment callee name pos values
  refine Outcome.Renamed.bind (f := Value.rename ρ) ?_ fun value ctx hle => renamed_leave value hle
  show Outcome.Renamed ρ least _ _ ((Resolution.resolve ctx.maxDepth (ctx.callStack.size + 1)
    (ctx.environment.rename ρ) (callee.map (Value.rename ρ)) name pos
    (values.map (Value.rename ρ))).run run ((ctx.entered ⟨name, pos⟩).rename ρ) pos
    (values.map (Value.rename ρ)))
  rw [hresolve]
  show Outcome.Renamed ρ least _ ((Resolution.resolve ctx.maxDepth (ctx.callStack.size + 1)
    ctx.environment callee name pos values).run run (ctx.entered ⟨name, pos⟩) pos values) _
  cases Resolution.resolve ctx.maxDepth (ctx.callStack.size + 1) ctx.environment callee name pos
    values with
  | refused failure => exact ⟨hle, rfl⟩
  | builtin b =>
    have hrunOn := b.runOn_rename (ρ := ρ) pos values ctx.world
    show Outcome.Renamed ρ least _ _ (.ofWorld _ (b.runOn pos (values.map (Value.rename ρ))
      (ctx.world.rename ρ)))
    rw [hrunOn]
    exact Outcome.renamed_ofWorld hle
  | body f => exact hrun f values (ctx.entered ⟨name, pos⟩) hle

end Calls

/-! ## Evaluation -/

section Eval

variable {ρ : Nat → Nat} {least : Nat} (hρ : Renumbering ρ least)

include hρ

theorem Task.renamed_perform {run : BodyRunner} (hrun : run.Renames ρ least) (t : Task)
    (args : List Value) (scope : Scope) (values : List Value) {ctx : Context}
    (hle : least ≤ ctx.nextIdentity) :
    (t.perform run args scope values ctx).Renamed ρ least (Value.rename ρ)
      (t.perform run (args.map (Value.rename ρ)) (scope.rename ρ) (values.map (Value.rename ρ))
        (ctx.rename ρ)) := by
  cases t with
  | compute op =>
    have hop := op.run_rename hρ ctx.callStack.size args scope values (w := ctx.world) hle
    show Outcome.Renamed ρ least _ _ (.ofWorld _ (op.run ctx.callStack.size
      (args.map (Value.rename ρ)) (scope.rename ρ) (values.map (Value.rename ρ))
      (ctx.world.rename ρ)))
    rw [hop]
    exact Outcome.renamed_ofWorld (Nat.le_trans hle (op.nextIdentity_run _ _ _ _ ctx.world))
  | call name pos => exact Context.renamed_track hrun hle none name pos values
  | apply name pos =>
    have hcallee : (values.map (Value.rename ρ)).headD .nil = (values.headD .nil).rename ρ := by
      cases values <;> rfl
    show Outcome.Renamed ρ least _ _ (Context.track run _ (some ((values.map _).headD .nil)) name
      pos (values.map (Value.rename ρ)).tail)
    rw [hcallee, ← List.map_tail]
    exact Context.renamed_track hrun hle (some (values.headD .nil)) name pos values.tail

omit hρ in
theorem Expr.renamed_evalAll {run : BodyRunner} {args : List Value} {scope : Scope}
    {operands : List Expr}
    (h : ∀ operand ∈ operands, ∀ ctx : Context, least ≤ ctx.nextIdentity →
      (operand.eval run args scope ctx).Renamed ρ least (Value.rename ρ)
        (operand.eval run (args.map (Value.rename ρ)) (scope.rename ρ) (ctx.rename ρ)))
    {ctx : Context} (hle : least ≤ ctx.nextIdentity) :
    (Expr.evalAll run args scope ctx operands).Renamed ρ least (List.map (Value.rename ρ))
      (Expr.evalAll run (args.map (Value.rename ρ)) (scope.rename ρ) (ctx.rename ρ)
        operands) := by
  induction operands generalizing ctx with
  | nil => exact ⟨hle, rfl⟩
  | cons first rest ih =>
    rw [List.forall_mem_cons] at h
    rw [Expr.evalAll, Expr.evalAll]
    refine (h.1 ctx hle).bind fun value ctx hle => ?_
    exact (ih h.2 hle).bind fun values ctx hle => ⟨hle, rfl⟩

theorem Expr.renamed_eval_of_run {run : BodyRunner} (hrun : run.Renames ρ least) (e : Expr) :
    ∀ (args : List Value) (scope : Scope) (ctx : Context), least ≤ ctx.nextIdentity →
      (e.eval run args scope ctx).Renamed ρ least (Value.rename ρ)
        (e.eval run (args.map (Value.rename ρ)) (scope.rename ρ) (ctx.rename ρ)) := by
  induction e using Expr.shapeInduction with
  | task e t operands hs ih =>
    intro args scope ctx hle
    rw [Expr.eval_shape, Expr.eval_shape, hs]
    refine Outcome.Renamed.bind (Expr.renamed_evalAll
      (fun operand hmem => ih operand hmem args scope) hle) ?_
    exact fun values ctx hle => Task.renamed_perform hρ hrun t args scope values hle
  | letIn e name bound body hs ihbound ihbody =>
    intro args scope ctx hle
    rw [Expr.eval_shape, Expr.eval_shape, hs]
    refine Outcome.Renamed.bind (ihbound args scope ctx hle) ?_
    exact fun value ctx hle => ihbody args (.bind name value scope) ctx hle
  | cond e guard branch otherwise hs ihguard ihbranch ihotherwise =>
    intro args scope ctx hle
    rw [Expr.eval_shape, Expr.eval_shape, hs]
    refine Outcome.Renamed.bind (ihguard args scope ctx hle) ?_
    intro value ctx hle
    rw [Value.isTruthy_rename]
    split
    · exact ihbranch args scope ctx hle
    · exact ihotherwise args scope ctx hle
  | attempt e body handler hs ihbody ihhandler =>
    intro args scope ctx hle
    rw [Expr.eval_shape, Expr.eval_shape, hs]
    refine Outcome.Renamed.handle (ihbody args scope ctx hle) ?_
    exact fun _ ctx hle => ihhandler args scope ctx hle
  | execute e body handler hs ihbody ihhandler =>
    intro args scope ctx hle
    rw [Expr.eval_shape, Expr.eval_shape, hs]
    refine Outcome.Renamed.handle (Context.renamed_settle (ihbody [] scope ctx hle)) ?_
    exact fun _ ctx hle => ihhandler args scope ctx hle

theorem runBody_renames (bound : Nat) : (runBody bound).Renames ρ least := by
  induction bound with
  | zero => exact fun f values ctx hle => rfl
  | succ bound ih =>
    intro f values ctx hle
    show Outcome.Renamed ρ least _ _ ((f.rename ρ).body.eval (runBody bound) _ (f.rename ρ).scope _)
    rw [Closure.body_rename, Closure.scope_rename]
    exact Expr.renamed_eval_of_run hρ ih f.body values f.scope ctx hle

end Eval

namespace Context

variable {ρ : Nat → Nat} {ctx : Context}

/-- Evaluating with other identities comes to the same. -/
theorem evaluate_renamed (hρ : Renumbering ρ ctx.nextIdentity) (body : Expr) :
    (ctx.evaluate body).Renamed ρ ctx.nextIdentity (Value.rename ρ)
      ((ctx.rename ρ).evaluate body) :=
  Expr.renamed_eval_of_run hρ (runBody_renames hρ ctx.nestingBound) body [] .empty ctx
    (Nat.le_refl _)

theorem execute_renamed (hρ : Renumbering ρ ctx.nextIdentity) (body : Expr) :
    (ctx.execute body).Renamed ρ ctx.nextIdentity (Value.rename ρ)
      ((ctx.rename ρ).execute body) :=
  renamed_settle (evaluate_renamed hρ body)

end Context

/-! ## Renamings that agree -/

section Congr

variable {ρ σ : Nat → Nat}

mutual

/-- Renamings that agree on the functions that can be got out of a value rename it alike. -/
theorem Value.rename_congr :
    ∀ v : Value, (∀ f, v.Holds (.function f) → ρ f.identity = σ f.identity) →
      v.rename ρ = v.rename σ
  | .function f, h => congrArg Value.function (Closure.rename_congr f h)
  | .nil, _ | .boolean _, _ | .number _, _ | .string _, _ | .builtin _, _ => rfl

theorem Closure.rename_congr :
    ∀ f : Closure,
      (∀ g, (Value.function f).Holds (.function g) → ρ g.identity = σ g.identity) →
        f.rename ρ = f.rename σ
  | ⟨name, arity, body, scope, identity⟩, h => by
    have hidentity : ρ identity = σ identity := h _ (.refl _)
    rw [Closure.rename, Closure.rename, hidentity,
      Scope.rename_congr scope fun v hv g hg => h g (.captured hv hg)]

theorem Scope.rename_congr :
    ∀ scope : Scope,
      (∀ v ∈ scope.values, ∀ g, v.Holds (.function g) → ρ g.identity = σ g.identity) →
        scope.rename ρ = scope.rename σ
  | .empty, _ => rfl
  | .bind name value outer, h => by
    rw [Scope.rename, Scope.rename, Value.rename_congr value (h value List.mem_cons_self),
      Scope.rename_congr outer fun v hv => h v (List.mem_cons_of_mem _ hv)]

end

theorem Environment.rename_congr {env : Environment}
    (h : ∀ v ∈ env.values, ∀ g, v.Holds (.function g) → ρ g.identity = σ g.identity) :
    env.rename ρ = env.rename σ := by
  unfold Environment.rename
  rw [Environment.mk.injEq]
  refine List.map_congr_left fun binding hmem => ?_
  exact congrArg (binding.1, ·) (Value.rename_congr binding.2 (h _ (List.mem_map_of_mem hmem)))

end Congr

end TracedEval
