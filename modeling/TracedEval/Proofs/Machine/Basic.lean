import TracedEval.Proofs.Shape
import Mathlib.Logic.Relation

/-!
# Evaluation in steps

`Expr.eval` says what an evaluation ends in, not what it goes through. The machine of this file goes
through it: a `State` has a `Focus`, which is what is done next, and `Layer`s, which are what is
waiting for it, the innermost first. A tracked call that is under way is a layer too, so that the
calls that are active in a state can be read off its layers, whatever there is on the call stack.

* `Invocation` is a tracked call under way: its frame, the index at which the frame was pushed, and
  whether it runs the body of a function;
* `State.step` is one step; a failure goes to the nearest layer that handles it at once;
* `Reaches` is any number of steps, and `Reaches.of_halted` says that there is only one way to go.
-/

namespace TracedEval
namespace Machine

/-! ## States -/

/-- The arguments and the locals that a body is evaluated with. -/
structure Site where
  args : List Value
  scope : Scope

/-- A tracked call that has neither returned nor failed. -/
structure Invocation where
  frame : Frame
  /-- How many frames there were below its own when that was pushed. -/
  index : Nat
  /-- Whether what it runs is the body of a function. -/
  inBody : Bool

/-- What is waiting for the value of something. -/
inductive Layer
  /-- A task of which the first operands have values. -/
  | operands (task : Task) (done : List Value) (rest : List Expr) (site : Site)
  | letIn (name : String) (body : Expr) (site : Site)
  | cond (branch otherwise : Expr) (site : Site)
  | attempt (handler : Expr) (site : Site)
  /-- A program that runs inside another one. -/
  | program (handler : Expr) (site : Site)
  | invocation (inv : Invocation)

/-- What is done next. -/
inductive Focus
  | eval (e : Expr) (site : Site)
  /-- The operands that are left, and then the task. -/
  | operands (task : Task) (done : List Value) (rest : List Expr) (site : Site)
  /-- The body of a function starts. -/
  | body (f : Closure) (values : List Value)
  | value (v : Value)
  | failure (f : Failure)

structure State where
  focus : Focus
  /-- The innermost first. -/
  layers : List Layer
  context : Context

/-- What there is after a state. -/
inductive Progress
  | next (s : State)
  | halted
  /-- A call returned when the call stack was empty. -/
  | underflow

/-! ## Steps -/

def Focus.ofResult : Except Failure Value → Focus
  | .ok v => .value v
  | .error f => .failure f

/-- Starts on a body. -/
def begin (site : Site) (k : List Layer) (ctx : Context) : Shape → State
  | .task t operands => ⟨.operands t [] operands site, k, ctx⟩
  | .letIn name bound body => ⟨.eval bound site, .letIn name body site :: k, ctx⟩
  | .cond guard branch otherwise => ⟨.eval guard site, .cond branch otherwise site :: k, ctx⟩
  | .attempt body handler => ⟨.eval body site, .attempt handler site :: k, ctx⟩
  | .execute body handler => ⟨.eval body ⟨[], site.scope⟩, .program handler site :: k, ctx⟩

/-- Does what a call has come to, apart from running the body of a function. -/
def follow (pos : Position) (values : List Value) (w : World) : Resolution → Focus × World
  | .refused failure => (.failure failure, w)
  | .builtin b => (.ofResult (b.runOn pos values w).1, (b.runOn pos values w).2)
  | .body f => (.body f values, w)

/-- Whether a call runs the body of a function. -/
def runsBody : Resolution → Bool
  | .body _ => true
  | .refused _ | .builtin _ => false

/-- A tracked call starts. -/
def enter (callee : Option Value) (name : String) (pos : Position) (values : List Value)
    (k : List Layer) (ctx : Context) : State :=
  let res := Resolution.resolve ctx.maxDepth (ctx.callStack.size + 1) ctx.environment callee name
    pos values
  let followed := follow pos values ctx.world res
  ⟨followed.1, .invocation ⟨⟨name, pos⟩, ctx.callStack.size, runsBody res⟩ :: k,
    followed.2.on (ctx.entered ⟨name, pos⟩)⟩

/-- Does a task. -/
def perform (site : Site) (values : List Value) (k : List Layer) (ctx : Context) : Task → State
  | .compute op =>
    let result := op.run ctx.callStack.size site.args site.scope values ctx.world
    ⟨.ofResult result.1, k, result.2.on ctx⟩
  | .call name pos => enter none name pos values k ctx
  | .apply name pos => enter (some (values.headD .nil)) name pos values.tail k ctx

/-- A value gets to a layer. -/
def Layer.resume (v : Value) (k : List Layer) (ctx : Context) : Layer → Progress
  | operands t done rest site => .next ⟨.operands t (done ++ [v]) rest site, k, ctx⟩
  | letIn name body site => .next ⟨.eval body ⟨site.args, .bind name v site.scope⟩, k, ctx⟩
  | cond branch otherwise site =>
    .next ⟨.eval (if v.isTruthy then branch else otherwise) site, k, ctx⟩
  | attempt .. => .next ⟨.value v, k, ctx⟩
  | program .. => .next ⟨.value v, k, ctx.clearStack⟩
  | invocation _ =>
    match ctx.callStack.leave? with
    | some s => .next ⟨.value v, k, { ctx with callStack := s }⟩
    | none => .underflow

/-- A failure gets to the nearest layer that handles failures. -/
def unwind (failure : Failure) (ctx : Context) : List Layer → Progress
  | [] => .halted
  | .attempt handler site :: k => .next ⟨.eval handler site, k, ctx⟩
  | .program handler site :: k => .next ⟨.eval handler site, k, (ctx.report failure).2⟩
  | _ :: k => unwind failure ctx k

/-- One step. -/
def State.step : State → Progress
  | ⟨.eval e site, k, ctx⟩ => .next (begin site k ctx e.shape)
  | ⟨.operands t done [] site, k, ctx⟩ => .next (perform site done k ctx t)
  | ⟨.operands t done (e :: rest) site, k, ctx⟩ =>
    .next ⟨.eval e site, .operands t done rest site :: k, ctx⟩
  | ⟨.body f values, k, ctx⟩ => .next ⟨.eval f.body ⟨values, f.scope⟩, k, ctx⟩
  | ⟨.value _, [], _⟩ => .halted
  | ⟨.value v, layer :: k, ctx⟩ => layer.resume v k ctx
  | ⟨.failure f, k, ctx⟩ => unwind f ctx k

/-- The state that an evaluation starts in. -/
def start (e : Expr) (args : List Value) (scope : Scope) (ctx : Context) : State :=
  ⟨.eval e ⟨args, scope⟩, [], ctx⟩

/-! ## Runs -/

/-- One state is the next after the other. -/
def Steps (s s' : State) : Prop := s.step = .next s'

/-- Any number of steps lead from one state to the other. -/
abbrev Reaches : State → State → Prop := Relation.ReflTransGen Steps

theorem Steps.unique {s a b : State} (ha : Steps s a) (hb : Steps s b) : a = b := by
  rw [Steps, hb] at ha
  cases ha
  rfl

/-- There is only one way to go, so that whatever is reached is on the way to where it ends. -/
theorem Reaches.of_halted {s a final : State} (h : Reaches s a) (hfinal : Reaches s final)
    (hhalted : final.step = .halted) : Reaches a final := by
  have hunique : Relator.RightUnique Steps := fun _ _ _ ha hb => Steps.unique ha hb
  rcases Relation.ReflTransGen.total_of_right_unique hunique h hfinal with hon | hback
  · exact hon
  · -- nothing comes after `final`
    rcases hback.cases_head with rfl | ⟨next, hnext, -⟩
    · exact .refl
    · rw [Steps, hhalted] at hnext
      cases hnext

/-- The state after so many steps, or the last one if there are not as many. -/
def State.after (s : State) : Nat → State
  | 0 => s
  | n + 1 =>
    match s.step with
    | .next s' => s'.after n
    | .halted | .underflow => s

theorem reaches_after (s : State) (n : Nat) : Reaches s (s.after n) := by
  induction n generalizing s with
  | zero => exact .refl
  | succ n ih =>
    unfold State.after
    split
    · rename_i s' hstep
      exact .head hstep (ih s')
    · exact .refl
    · exact .refl

/-- A form is taken apart in one step. -/
theorem steps_eval {e : Expr} {shape : Shape} (hs : e.shape = shape) (site : Site)
    (k : List Layer) (ctx : Context) : Steps ⟨.eval e site, k, ctx⟩ (begin site k ctx shape) := by
  rw [Steps, State.step, hs]

section Return

variable {v : Value} {k : List Layer} {ctx : Context} {inv : Invocation}

/-- A call that returns pops a frame. -/
theorem resume_invocation_eq_next {s : State}
    (h : (Layer.invocation inv).resume v k ctx = .next s) :
    ∃ stack, ctx.callStack.leave? = some stack ∧
      s = ⟨.value v, k, { ctx with callStack := stack }⟩ := by
  rw [Layer.resume] at h
  split at h
  · rename_i stack hleave
    cases h
    exact ⟨stack, hleave, rfl⟩
  · cases h

theorem resume_invocation_eq_underflow
    (h : (Layer.invocation inv).resume v k ctx = .underflow) : ctx.callStack.leave? = none := by
  rw [Layer.resume] at h
  split at h
  · cases h
  · assumption

end Return

/-! ## What is active -/

def Layer.invocation? : Layer → Option Invocation
  | invocation inv => some inv
  | _ => none

/-- The tracked calls under way, the innermost first. -/
def invocations (k : List Layer) : List Invocation := k.filterMap Layer.invocation?

/-- The tracked calls that are active in a state, the outermost first. -/
def State.active (s : State) : List Invocation := (invocations s.layers).reverse

@[simp] theorem invocations_invocation (inv : Invocation) (k : List Layer) :
    invocations (.invocation inv :: k) = inv :: invocations k := rfl

@[simp] theorem invocations_cons {layer : Layer} (h : layer.invocation? = none) (k : List Layer) :
    invocations (layer :: k) = invocations k := by
  rw [invocations, List.filterMap_cons_none h]
  rfl

theorem invocations_append (inner k : List Layer) :
    invocations (inner ++ k) = invocations inner ++ invocations k := List.filterMap_append

/-- What the evaluation has ended in. -/
def State.outcome? (s : State) : Option (Outcome Failure Value) :=
  match s.focus, s.step with
  | .value v, .halted => some (.ok v s.context)
  | .failure f, .halted => some (.error f s.context)
  | _, _ => none

/-- The outcome is what the state has got to. -/
theorem eq_of_outcome? {s : State} {o : Outcome Failure Value} (h : s.outcome? = some o) :
    (∃ v, s.focus = .value v ∧ o = .ok v s.context) ∨
      ∃ f, s.focus = .failure f ∧ o = .error f s.context := by
  unfold State.outcome? at h
  split at h
  · rename_i v hfocus _
    cases h
    exact .inl ⟨v, hfocus, rfl⟩
  · rename_i f hfocus _
    cases h
    exact .inr ⟨f, hfocus, rfl⟩
  · cases h

end Machine
end TracedEval
