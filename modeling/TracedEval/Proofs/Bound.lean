import TracedEval.Proofs.Fragment

/-!
# Evaluation ends

`runBody` takes a bound on how deeply function bodies nest. As long as functions do not run programs
inside, this bound is never felt: the depth limit comes first. What carries the argument is that
evaluation never takes away a frame that was there when it began, not even when failures are
swallowed, so that every function body stands on a deeper call stack than the body that called it.

* `Expr.eval_ends`: with room for `maxDepth` bodies evaluation ends in a value or in a failure, and
  the frames that it began with are still at the bottom of the call stack;
* `Expr.eval_of_le`: it then ends the same way under every such bound.
-/

namespace TracedEval

/-! ## Frames stay below -/

/-- The frames `base` are at the bottom of the call stack, and the depth limit is `limit`. -/
def Context.Above (base : List Frame) (limit : Nat) (ctx : Context) : Prop :=
  base <+: ctx.callStack.frames ∧ ctx.maxDepth = limit

/-- An outcome that is a value or an error, with the frames `base` still in place. -/
def Outcome.Ends {ε α : Type} (base : List Frame) (limit : Nat) (o : Outcome ε α) : Prop :=
  o.Meets (fun _ ctx => ctx.Above base limit) (fun _ ctx => ctx.Above base limit) False

theorem Context.Above.size_le {base : List Frame} {limit : Nat} {ctx : Context}
    (h : ctx.Above base limit) : base.length ≤ ctx.callStack.size := by
  have hlen := h.1.length_le
  rwa [CallStack.length_frames] at hlen

theorem Context.Above.trans {base : List Frame} {limit : Nat} {ctx ctx' : Context}
    (h : ctx.Above base limit) (h' : ctx'.Above ctx.callStack.frames limit) :
    ctx'.Above base limit :=
  ⟨h.1.trans h'.1, h'.2⟩

theorem Context.Above.of_append {base frames : List Frame} {limit : Nat} {ctx : Context}
    (h : ctx.Above (base ++ frames) limit) : ctx.Above base limit :=
  ⟨(List.prefix_append _ _).trans h.1, h.2⟩

theorem Context.above_entered {ctx : Context} {limit : Nat} (h : ctx.maxDepth = limit)
    (frame : Frame) : (ctx.entered frame).Above (ctx.callStack.frames ++ [frame]) limit := by
  have hframes := Context.frames_entered ctx frame
  exact ⟨hframes ▸ List.prefix_refl _, h⟩

theorem CallStack.leave?_of_prefix {base : List Frame} {frame : Frame} {s : CallStack}
    (h : base ++ [frame] <+: s.frames) : ∃ s', s.leave? = some s' ∧ base <+: s'.frames := by
  obtain ⟨active⟩ := s
  cases active with
  | nil => simp [CallStack.frames] at h
  | cons top outer =>
    refine ⟨⟨outer⟩, rfl, ?_⟩
    simp only [CallStack.frames, List.reverse_cons] at h ⊢
    -- what is left has `base` at its bottom because it is long enough
    have hlen : base.length ≤ outer.reverse.length := by
      have := h.length_le
      simp only [List.length_append, List.length_singleton, List.length_reverse] at this ⊢
      omega
    exact List.prefix_of_prefix_length_le ((List.prefix_append base [frame]).trans h)
      (List.prefix_append _ _) hlen

/-- A call returns to the frames that it was made on. -/
theorem Context.ends_leave {frames : List Frame} {frame : Frame} {limit : Nat} {ctx : Context}
    (h : ctx.Above (frames ++ [frame]) limit) (value : Value) :
    (ctx.leave value).Ends frames limit := by
  obtain ⟨s, hleave, hbelow⟩ := CallStack.leave?_of_prefix h.1
  unfold Context.leave
  rw [hleave]
  exact ⟨hbelow, h.2⟩

/-! ## No bound is felt -/

/-- Functions that are called above `lower` frames come to an end, with the frames they were called
on still in place. -/
def BodyRunner.Ends (inside : Fragment) (limit lower : Nat) (run : BodyRunner) : Prop :=
  ∀ f args ctx, f.within inside → Value.allWithin inside args → ctx.environment.within inside →
    ctx.maxDepth = limit → lower < ctx.callStack.size → ctx.callStack.size ≤ limit →
      (run f args ctx).Ends ctx.callStack.frames limit

section Ends

variable {here inside : Fragment} {limit lower : Nat} {run : BodyRunner} {base : List Frame}

theorem Outcome.ends_ofWorld {ctx : Context} (h : ctx.Above base limit)
    (result : Except Failure Value × World) : (Outcome.ofWorld ctx result).Ends base limit := by
  obtain ⟨result, w⟩ := result
  cases result <;> exact h

theorem Resolution.ends_run (hrun : run.Ends inside limit lower) {ctx : Context} (frame : Frame)
    (henv : ctx.environment.within inside) (hlimit : ctx.maxDepth = limit)
    (hlower : lower ≤ ctx.callStack.size) {callee : Option Value}
    (hcallee : ∀ value ∈ callee, value.within inside) {values : List Value}
    (hvalues : Value.allWithin inside values) (name : String) (pos : Position) :
    ((resolve limit (ctx.entered frame).callStack.size ctx.environment callee name pos values).run
      run (ctx.entered frame) pos values).Ends (ctx.callStack.frames ++ [frame]) limit := by
  have hentered := Context.above_entered hlimit frame
  cases hres : resolve limit (ctx.entered frame).callStack.size ctx.environment callee name pos
    values with
  | refused failure => exact hentered
  | builtin b => exact Outcome.ends_ofWorld hentered _
  | body f =>
    have hbody := hrun f values (ctx.entered frame) (within_of_resolve henv hcallee hres) hvalues
      henv hlimit (by rw [Context.size_entered]; omega) (size_le_of_resolve hres)
    rwa [Context.frames_entered] at hbody

theorem Context.ends_track (hrun : run.Ends inside limit lower) {ctx : Context}
    (henv : ctx.environment.within inside) (habove : ctx.Above base limit)
    (hlower : lower ≤ base.length) {callee : Option Value}
    (hcallee : ∀ value ∈ callee, value.within inside) {values : List Value}
    (hvalues : Value.allWithin inside values) (name : String) (pos : Position) :
    (ctx.track run callee name pos values).Ends base limit := by
  have hsize := habove.size_le
  have hcalled := Resolution.ends_run hrun ⟨name, pos⟩ henv habove.2 (by omega) hcallee
    hvalues name pos
  unfold Context.track
  rw [habove.2]
  -- the call ends with its own frame in place, and that is what the return pops
  have hreturned := Outcome.Meets.bind
    (hcalled.mono (fun _ _ h => h) (fun _ _ h => h.of_append) id)
    (fun value ctx' h => Context.ends_leave h value)
  exact hreturned.mono (fun _ _ h => habove.trans h) (fun _ _ h => habove.trans h) id

theorem Task.ends_perform (hrun : run.Ends inside limit lower) {t : Task} {args : List Value}
    {scope : Scope} {values : List Value} (hvalues : Value.allWithin inside values)
    {ctx : Context} (henv : ctx.environment.within inside) (habove : ctx.Above base limit)
    (hlower : lower ≤ base.length) :
    (t.perform run args scope values ctx).Ends base limit := by
  cases t with
  | compute op => exact Outcome.ends_ofWorld habove _
  | call name pos =>
    exact Context.ends_track hrun henv habove hlower (by simp) hvalues name pos
  | apply name pos =>
    exact Context.ends_track hrun henv habove hlower (Value.within_headD hvalues)
      (Value.allWithin_tail hvalues) name pos

theorem Expr.evalAll_ends {args : List Value} {scope : Scope} {operands : List Expr}
    (hwithin : ∀ operand ∈ operands, ∀ ctx : Context, ctx.environment.within inside →
      (operand.eval run args scope ctx).Within inside fun value => value.within inside)
    (h : ∀ operand ∈ operands, ∀ ctx : Context, ctx.environment.within inside →
      ctx.Above base limit → (operand.eval run args scope ctx).Ends base limit)
    {ctx : Context} (henv : ctx.environment.within inside) (habove : ctx.Above base limit) :
    (Expr.evalAll run args scope ctx operands).Ends base limit := by
  induction operands generalizing ctx with
  | nil => exact habove
  | cons first rest ih =>
    rw [List.forall_mem_cons] at hwithin h
    rw [Expr.evalAll]
    refine Outcome.Meets.bindWith (h.1 ctx henv habove) (hwithin.1 ctx henv) ?_
    rintro value ctx habove ⟨-, henv⟩
    exact Outcome.Meets.bind (ih hwithin.2 h.2 henv habove) fun values ctx habove => habove

theorem Context.ends_settle {o : Outcome Failure Value} (h : o.Ends [] limit) :
    (Context.settle o).Ends [] limit := by
  cases o with
  | ok value ctx => exact ⟨List.nil_prefix, h.2⟩
  | error failure ctx =>
    have hmax : (ctx.report failure).2.maxDepth = limit := by
      rw [Context.maxDepth_report]
      exact h.2
    exact ⟨List.nil_prefix, hmax⟩
  | underflow | exhausted => exact h

/-- Where programs may run inside, only an empty `base` can stay in place. -/
theorem Expr.eval_ends_of_run (hkeeps : run.KeepsWithin inside)
    (hrun : run.Ends inside limit lower) (hlower : lower ≤ base.length)
    (hbase : here.execute → base = []) (e : Expr) :
    e.within here inside → ∀ (args : List Value) (scope : Scope) (ctx : Context),
      Value.allWithin inside args → scope.within inside → ctx.environment.within inside →
        ctx.Above base limit → (e.eval run args scope ctx).Ends base limit := by
  induction e using Expr.shapeInduction with
  | task e t operands hs ih =>
    intro he args scope ctx hargs hscope henv habove
    obtain ⟨-, hoperands⟩ := Expr.within_task hs he
    have hwithin : ∀ operand ∈ operands, ∀ ctx : Context, ctx.environment.within inside →
        (operand.eval run args scope ctx).Within inside fun value => value.within inside :=
      fun operand hmem ctx henv => Expr.eval_within_of_run hkeeps operand
        (hoperands operand hmem) args scope ctx hargs hscope henv
    have hends := Expr.evalAll_ends hwithin (fun operand hmem ctx henv habove =>
      ih operand hmem (hoperands operand hmem) args scope ctx hargs hscope henv habove) henv habove
    rw [Expr.eval_shape, hs]
    refine Outcome.Meets.bindWith hends (Expr.evalAll_within hwithin henv) ?_
    rintro values ctx habove ⟨hvalues, henv⟩
    exact Task.ends_perform hrun hvalues henv habove hlower
  | letIn e name bound body hs ihbound ihbody =>
    intro he args scope ctx hargs hscope henv habove
    obtain ⟨hbound, hbody⟩ := Expr.within_letIn hs he
    rw [Expr.eval_shape, hs]
    refine Outcome.Meets.bindWith (ihbound hbound args scope ctx hargs hscope henv habove)
      (Expr.eval_within_of_run hkeeps bound hbound args scope ctx hargs hscope henv) ?_
    rintro value ctx habove ⟨hvalue, henv⟩
    exact ihbody hbody args _ ctx hargs (Scope.within_bind name hvalue hscope) henv habove
  | cond e guard branch otherwise hs ihguard ihbranch ihotherwise =>
    intro he args scope ctx hargs hscope henv habove
    obtain ⟨hguard, hbranch, hotherwise⟩ := Expr.within_cond hs he
    rw [Expr.eval_shape, hs]
    refine Outcome.Meets.bindWith (ihguard hguard args scope ctx hargs hscope henv habove)
      (Expr.eval_within_of_run hkeeps guard hguard args scope ctx hargs hscope henv) ?_
    rintro value ctx habove ⟨-, henv⟩
    split
    · exact ihbranch hbranch args scope ctx hargs hscope henv habove
    · exact ihotherwise hotherwise args scope ctx hargs hscope henv habove
  | attempt e body handler hs ihbody ihhandler =>
    intro he args scope ctx hargs hscope henv habove
    obtain ⟨-, hbody, hhandler⟩ := Expr.within_attempt hs he
    rw [Expr.eval_shape, hs]
    refine Outcome.Meets.handleWith (ihbody hbody args scope ctx hargs hscope henv habove)
      (Expr.eval_within_of_run hkeeps body hbody args scope ctx hargs hscope henv) ?_
    intro _ ctx habove henv
    exact ihhandler hhandler args scope ctx hargs hscope henv habove
  | execute e body handler hs ihbody ihhandler =>
    intro he args scope ctx hargs hscope henv habove
    obtain ⟨hexecute, hbody, hhandler⟩ := Expr.within_execute hs he
    -- the end of a program clears the call stack, so nothing else can stay in place
    obtain rfl := hbase hexecute
    rw [Expr.eval_shape, hs]
    refine Outcome.Meets.handleWith
      (Context.ends_settle (ihbody hbody [] scope ctx Value.allWithin_nil hscope henv habove))
      (Context.within_settle
        (Expr.eval_within_of_run hkeeps body hbody [] scope ctx Value.allWithin_nil hscope henv)) ?_
    intro _ ctx habove henv
    exact ihhandler hhandler args scope ctx hargs hscope henv habove

/-- Every function body that is entered stands on a deeper call stack than its caller, so the depth
limit stops the nesting before the bound does. -/
theorem runBody_ends (hinside : inside.execute = false) (bound : Nat)
    (hbound : limit ≤ lower + bound) : (runBody bound).Ends inside limit lower := by
  induction bound generalizing lower with
  | zero =>
    -- a body would stand above `lower` frames, and the limit has no room there
    intro f args ctx _ _ _ _ hlower hlimit
    omega
  | succ bound ih =>
    intro f args ctx hf hargs henv hmax hlower hlimit
    rw [Closure.within_iff] at hf
    -- the bodies that are called from here stand above this one
    have hrun : (runBody bound).Ends inside limit ctx.callStack.size := ih (by omega)
    exact Expr.eval_ends_of_run (runBody_keepsWithin bound) hrun (by simp) (by simp [hinside])
      f.body hf.1 args f.scope ctx hargs hf.2 henv ⟨List.prefix_refl _, hmax⟩

end Ends

/-- Evaluation ends, with the frames it began with still in place, whenever the bound leaves room
for as many nested bodies as the depth limit does. -/
theorem Expr.eval_ends {here inside : Fragment} (hinside : inside.execute = false)
    {base : List Frame} (hbase : here.execute → base = []) {e : Expr}
    (he : e.within here inside) {args : List Value} (hargs : Value.allWithin inside args)
    {scope : Scope} (hscope : scope.within inside) {ctx : Context}
    (henv : ctx.environment.within inside) (hbelow : base <+: ctx.callStack.frames) {bound : Nat}
    (hbound : ctx.maxDepth ≤ base.length + bound) :
    (e.eval (runBody bound) args scope ctx).Ends base ctx.maxDepth :=
  Expr.eval_ends_of_run (runBody_keepsWithin bound) (runBody_ends hinside bound hbound)
    (Nat.le_refl _) hbase e he args scope ctx hargs hscope henv ⟨hbelow, rfl⟩

/-! ## Every bound that leaves room gives the same outcome -/

/-- The outcome is the other one, unless the bound was reached before. -/
def Outcome.UpTo {ε α : Type} (o o' : Outcome ε α) : Prop := o = .exhausted ∨ o = o'

/-- One way to run functions agrees with another, unless the bound is reached. -/
def BodyRunner.UpTo (run run' : BodyRunner) : Prop :=
  ∀ f args ctx, (run f args ctx).UpTo (run' f args ctx)

namespace Outcome.UpTo

variable {ε ε' α β : Type}

theorem refl (o : Outcome ε α) : o.UpTo o := .inr rfl

theorem bind {o o' : Outcome ε α} {next next' : α → Context → Outcome ε β} (h : o.UpTo o')
    (hnext : ∀ value ctx, (next value ctx).UpTo (next' value ctx)) :
    (o.bind next).UpTo (o'.bind next') := by
  rcases h with rfl | rfl
  · exact .inl rfl
  · cases o with
    | ok value ctx => exact hnext value ctx
    | error | underflow | exhausted => exact .inr rfl

theorem handle {o o' : Outcome ε α} {handler handler' : ε → Context → Outcome ε' α}
    (h : o.UpTo o') (hhandler : ∀ e ctx, (handler e ctx).UpTo (handler' e ctx)) :
    (o.handle handler).UpTo (o'.handle handler') := by
  rcases h with rfl | rfl
  · exact .inl rfl
  · cases o with
    | error e ctx => exact hhandler e ctx
    | ok | underflow | exhausted => exact .inr rfl

theorem settle {o o' : Outcome Failure Value} (h : o.UpTo o') :
    (Context.settle o).UpTo (Context.settle o') := by
  rcases h with rfl | rfl
  · exact .inl rfl
  · exact .inr rfl

end Outcome.UpTo

section UpTo

variable {run run' : BodyRunner}

theorem Context.track_upTo (hrun : run.UpTo run') (ctx : Context) (callee : Option Value)
    (name : String) (pos : Position) (values : List Value) :
    (ctx.track run callee name pos values).UpTo (ctx.track run' callee name pos values) := by
  unfold Context.track
  refine Outcome.UpTo.bind ?_ fun value ctx => .refl _
  cases Resolution.resolve ctx.maxDepth (ctx.entered ⟨name, pos⟩).callStack.size
    ctx.environment callee name pos values with
  | body f => exact hrun f values _
  | refused | builtin => exact .refl _

theorem Task.perform_upTo (hrun : run.UpTo run') (args : List Value) (scope : Scope) (t : Task)
    (values : List Value) (ctx : Context) :
    (t.perform run args scope values ctx).UpTo (t.perform run' args scope values ctx) := by
  cases t with
  | compute op => exact .refl _
  | call name pos => exact Context.track_upTo hrun ctx _ name pos values
  | apply name pos => exact Context.track_upTo hrun ctx _ name pos values.tail

theorem Expr.eval_upTo (hrun : run.UpTo run') (e : Expr) :
    ∀ (args : List Value) (scope : Scope) (ctx : Context),
      (e.eval run args scope ctx).UpTo (e.eval run' args scope ctx) := by
  induction e using Expr.shapeInduction with
  | task e t operands hs ih =>
    intro args scope ctx
    -- the operands one after the other
    have hall : ∀ (rest : List Expr), (∀ operand ∈ rest, operand ∈ operands) → ∀ ctx : Context,
        (Expr.evalAll run args scope ctx rest).UpTo (Expr.evalAll run' args scope ctx rest) := by
      intro rest
      induction rest with
      | nil => exact fun _ ctx => .refl _
      | cons first rest ihrest =>
        intro hmem ctx
        rw [List.forall_mem_cons] at hmem
        rw [Expr.evalAll, Expr.evalAll]
        exact (ih first hmem.1 args scope ctx).bind fun value ctx =>
          (ihrest hmem.2 ctx).bind fun values ctx => .refl _
    rw [Expr.eval_shape, Expr.eval_shape, hs]
    exact (hall operands (fun _ h => h) ctx).bind fun values ctx =>
      Task.perform_upTo hrun args scope t values ctx
  | letIn e name bound body hs ihbound ihbody =>
    intro args scope ctx
    rw [Expr.eval_shape, Expr.eval_shape, hs]
    exact (ihbound args scope ctx).bind fun value ctx => ihbody args _ ctx
  | cond e guard branch otherwise hs ihguard ihbranch ihotherwise =>
    intro args scope ctx
    rw [Expr.eval_shape, Expr.eval_shape, hs]
    refine (ihguard args scope ctx).bind fun value ctx => ?_
    split
    · exact ihbranch args scope ctx
    · exact ihotherwise args scope ctx
  | attempt e body handler hs ihbody ihhandler =>
    intro args scope ctx
    rw [Expr.eval_shape, Expr.eval_shape, hs]
    exact (ihbody args scope ctx).handle fun _ ctx => ihhandler args scope ctx
  | execute e body handler hs ihbody ihhandler =>
    intro args scope ctx
    rw [Expr.eval_shape, Expr.eval_shape, hs]
    exact (ihbody [] scope ctx).settle.handle fun _ ctx => ihhandler args scope ctx

theorem runBody_upTo {bound bound' : Nat} (h : bound ≤ bound') :
    (runBody bound).UpTo (runBody bound') := by
  induction bound generalizing bound' with
  | zero => exact fun f args ctx => .inl rfl
  | succ bound ih =>
    intro f args ctx
    obtain ⟨bound', rfl⟩ := Nat.exists_eq_add_of_lt h
    have hbodies : (runBody bound).UpTo (runBody (bound + bound')) := ih (by omega)
    exact Expr.eval_upTo hbodies f.body args f.scope ctx

end UpTo

/-- An outcome that is not the bound's doing is the outcome under every greater bound. -/
theorem Expr.eval_of_le {e : Expr} {args : List Value} {scope : Scope} {ctx : Context}
    {bound bound' : Nat} (h : bound ≤ bound')
    (hfinished : e.eval (runBody bound) args scope ctx ≠ .exhausted) :
    e.eval (runBody bound') args scope ctx = e.eval (runBody bound) args scope ctx :=
  ((Expr.eval_upTo (runBody_upTo h) e args scope ctx).resolve_left hfinished).symm

end TracedEval
