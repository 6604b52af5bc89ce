import TracedEval.Arithmetic
import TracedEval.CallStack
import TracedEval.Environment
import TracedEval.Report

/-!
# Execution contexts

Everything that a running program touches: the call stack, the global bindings and the output
channel. Each operation takes a context and answers with an `Outcome`, which holds the context
afterwards.

How the body of a function is run is a parameter of the operations that call functions; evaluation
supplies it.
-/

namespace TracedEval

/-- The state that a program runs in. -/
structure Context where
  callStack : CallStack
  environment : Environment
  output : Output
  /-- How many calls may be under way at once. -/
  maxDepth : Nat
  traceFormat : TraceFormat
  /-- The identity that the next function gets. -/
  nextIdentity : Nat

/-- How running something in a context can end. -/
inductive Outcome (ε α : Type)
  | ok (value : α) (context : Context)
  | error (error : ε) (context : Context)
  /-- A call returned when the call stack was empty. Nothing can go on from there. -/
  | underflow
  /-- The bound on nested function bodies was reached. -/
  | exhausted

namespace Outcome

variable {ε ε' α β : Type}

/-- Goes on with the value, in the context that it came with. -/
def bind (outcome : Outcome ε α) (next : α → Context → Outcome ε β) : Outcome ε β :=
  match outcome with
  | ok value ctx => next value ctx
  | error e ctx => error e ctx
  | underflow => underflow
  | exhausted => exhausted

/-- Goes on with the error, in the context that it came with. -/
def handle (outcome : Outcome ε α) (handler : ε → Context → Outcome ε' α) : Outcome ε' α :=
  match outcome with
  | ok value ctx => ok value ctx
  | error e ctx => handler e ctx
  | underflow => underflow
  | exhausted => exhausted

@[simp] theorem bind_ok (value : α) (ctx : Context) (next : α → Context → Outcome ε β) :
    (ok value ctx).bind next = next value ctx := rfl

@[simp] theorem bind_error (e : ε) (ctx : Context) (next : α → Context → Outcome ε β) :
    (error e ctx).bind next = error e ctx := rfl

@[simp] theorem handle_ok (value : α) (ctx : Context) (handler : ε → Context → Outcome ε' α) :
    (ok value ctx).handle handler = ok value ctx := rfl

@[simp] theorem handle_error (e : ε) (ctx : Context) (handler : ε → Context → Outcome ε' α) :
    (error e ctx : Outcome ε α).handle handler = handler e ctx := rfl

end Outcome

/-- How the body of a function is run with arguments. -/
abbrev BodyRunner := Closure → List Value → Context → Outcome Failure Value

namespace Context

/-- A fresh context: nothing called, nothing printed, only the initial bindings. -/
def new (maxDepth : Nat) (traceFormat : TraceFormat) (output : Output) : Context where
  callStack := ∅
  environment := .initial
  output := output
  maxDepth := maxDepth
  traceFormat := traceFormat
  nextIdentity := 0

/-! ## Bindings and functions -/

/-- Binds a global. -/
def define (ctx : Context) (name : String) (value : Value) : Context :=
  { ctx with environment := ctx.environment.define name value }

/-- The value of a global. -/
def lookup (ctx : Context) (name : String) (pos : Position) : Outcome Failure Value :=
  match ctx.environment.get name with
  | .ok value => .ok value ctx
  | .error fault => .error ⟨pos, fault⟩ ctx

/-- Makes a function that differs from every function made before. -/
def newFunction (ctx : Context) (name : String) (arity : Nat) (body : Expr) (scope : Scope) :
    Value × Context :=
  (.function ⟨name, arity, body, scope, ctx.nextIdentity⟩,
    { ctx with nextIdentity := ctx.nextIdentity + 1 })

/-! ## Calls -/

/-- Calls a builtin directly, which leaves no trace on the call stack. -/
def builtin (ctx : Context) (b : Builtin) (pos : Position) (args : List Value) :
    Outcome Failure Value :=
  match b.call args ctx.output with
  | (.ok value, output) => .ok value { ctx with output := output }
  | (.error fault, output) => .error ⟨pos, fault⟩ { ctx with output := output }

/-- A tracked call starts. A call beyond the depth limit fails, and its frame stays like that of any
failing call. -/
def enter (ctx : Context) (name : String) (pos : Position) : Outcome Failure Unit :=
  let entered := { ctx with callStack := ctx.callStack.enter ⟨name, pos⟩ }
  if ctx.maxDepth < entered.callStack.size then
    .error ⟨pos, .depthExceeded ctx.maxDepth⟩ entered
  else
    .ok () entered

/-- Runs what is called, whatever it is; `name` is what it is called by. -/
def invoke (run : BodyRunner) (ctx : Context) (callee : Value) (name : String) (pos : Position)
    (args : List Value) : Outcome Failure Value :=
  match callee with
  | .function f =>
    if args.length = f.arity then run f args ctx
    else .error ⟨pos, .argumentCount name f.arity args.length⟩ ctx
  | .builtin b => ctx.builtin b pos args
  | _ => .error ⟨pos, .notCallable name⟩ ctx

/-- A tracked call returns. -/
def leave (ctx : Context) (value : Value) : Outcome Failure Value :=
  match ctx.callStack.leave? with
  | some callStack => .ok value { ctx with callStack := callStack }
  | none => .underflow

/-- Calls a global. The frame is there before the name is looked up, so that a call of an undefined
name is reported with its own frame. -/
def call (run : BodyRunner) (ctx : Context) (name : String) (pos : Position) (args : List Value) :
    Outcome Failure Value :=
  (ctx.enter name pos).bind fun _ ctx =>
  (ctx.lookup name pos).bind fun callee ctx =>
  (ctx.invoke run callee name pos args).bind fun value ctx =>
  ctx.leave value

/-- Calls a value; the frame is recorded under `name`. -/
def callValue (run : BodyRunner) (ctx : Context) (callee : Value) (name : String) (pos : Position)
    (args : List Value) : Outcome Failure Value :=
  (ctx.enter name pos).bind fun _ ctx =>
  (ctx.invoke run callee name pos args).bind fun value ctx =>
  ctx.leave value

/-! ## The handler of uncaught failures -/

/-- No call is under way any more. -/
def clearStack (ctx : Context) : Context := { ctx with callStack := ∅ }

/-- Writes the report of a failure and clears the call stack. The failure is handed back inside the
error, which tells whether the report could be written. -/
def report (ctx : Context) (failure : Failure) : RunError × Context :=
  let lines := (Report.ofFailure failure ctx.callStack.frames).lines ctx.traceFormat
  match ctx.output.writeLines lines with
  | (output, none) => (.uncaught failure, { ctx.clearStack with output := output })
  | (output, some error) => (.unreported failure error, { ctx.clearStack with output := output })

/-- Ends the run of a program: a failure is reported, and either way no frame is left. -/
def settle (outcome : Outcome Failure Value) : Outcome RunError Value :=
  match outcome with
  | .ok value ctx => .ok value ctx.clearStack
  | .error failure ctx =>
    let (error, ctx) := ctx.report failure
    .error error ctx
  | .underflow => .underflow
  | .exhausted => .exhausted

end Context

end TracedEval
