import TracedEval.Engine

/-!
# Sessions

A session drives several contexts of one engine, one step at a time. A step may first choose another
context or make a new one; then it evaluates, runs a program, reports a failure that is still
pending, or looks after the output. Each step is answered with what it gave and with what it changed
in the context that it addressed.
-/

namespace TracedEval

/-- A context of a session, with the failure of the latest failed evaluation that has not been
reported. -/
structure Slot where
  context : Context
  pending : Option Failure

/-- Several contexts of one engine; the steps go to the current one. -/
structure Session where
  engine : Engine
  slots : List Slot
  current : Nat

/-- Which context a step is for. -/
inductive Target
  | current
  /-- A context made for the step. -/
  | fresh
  | slot (index : Nat)
  deriving DecidableEq, Repr

/-- What a step does. -/
inductive Action
  /-- Evaluates a body; a failure becomes the pending one. -/
  | evaluate (body : Expr)
  | execute (program : Program)
  /-- Reports the pending failure, which is then no longer pending. -/
  | report
  | takeLines
  | setEcho (sink : Sink)
  | nothing

structure Step where
  target : Target
  action : Action

/-- What a step gives. -/
inductive Reply
  | value (v : Value)
  | failed (failure : Failure)
  | ended (error : RunError)
  | reported (error : RunError)
  | taken (lines : List String)
  | nothing

/-- The answer to a step: what it gave, and the context it addressed as the step left it. -/
structure Answer where
  reply : Reply
  frames : List Frame
  /-- The lines captured during the step that are still there. -/
  added : List String
  /-- How many lines are captured. -/
  captured : Nat
  /-- What the sink received during the step, if there is a sink. -/
  echoed : Option (List UInt8)

/-- Why a session cannot go on. -/
inductive Breakdown
  | underflow
  | exhausted
  deriving DecidableEq, Repr

/-- What is said when a call returns on an empty call stack. -/
def Breakdown.message : Breakdown → String
  | underflow => "call stack underflow: leave() without a matching enter()"
  | exhausted => "function bodies nested too deeply"

namespace Slot

def ofEngine (e : Engine) : Slot := ⟨e.newContext, none⟩

/-- Does what a step asks for. -/
def act (slot : Slot) : Action → Except Breakdown (Reply × Slot)
  | .evaluate body =>
    match slot.context.evaluate body with
    | .ok value ctx => .ok (.value value, { slot with context := ctx })
    | .error failure ctx => .ok (.failed failure, ⟨ctx, some failure⟩)
    | .underflow => .error .underflow
    | .exhausted => .error .exhausted
  | .execute program =>
    match slot.context.execute program.body with
    | .ok value ctx => .ok (.value value, { slot with context := ctx })
    | .error error ctx => .ok (.ended error, { slot with context := ctx })
    | .underflow => .error .underflow
    | .exhausted => .error .exhausted
  | .report =>
    match slot.pending with
    | none => .ok (.nothing, slot)
    | some failure =>
      let (error, ctx) := slot.context.report failure
      .ok (.reported error, ⟨ctx, none⟩)
  | .takeLines =>
    let (lines, output) := slot.context.output.takeLines
    .ok (.taken lines, { slot with context.output := output })
  | .setEcho sink =>
    .ok (.nothing, { slot with context.output := slot.context.output.setEcho sink })
  | .nothing => .ok (.nothing, slot)

/-- How many bytes the sink has received before an action; a sink that is set by the action itself
counts from its beginning. -/
def receivedBefore (slot : Slot) : Action → Nat
  | .setEcho sink => sink.received.length
  | _ => (slot.context.output.echo.map (·.received.length)).getD 0

/-- The answer to an action that led from one state of a context to another. -/
def answer (before after : Slot) (action : Action) (reply : Reply) : Answer where
  reply := reply
  frames := after.context.callStack.frames
  added := after.context.output.lines.drop before.context.output.lines.length
  captured := after.context.output.lines.length
  echoed := after.context.output.echo.map fun sink =>
    sink.received.drop (before.receivedBefore action)

end Slot

namespace Session

/-- A session with one context. -/
def start (e : Engine) : Session := ⟨e, [.ofEngine e], 0⟩

/-- The session with another context as the current one. A context that does not exist is not
chosen. -/
def select (s : Session) : Target → Session
  | .current => s
  | .fresh => { s with slots := s.slots ++ [.ofEngine s.engine], current := s.slots.length }
  | .slot index => if index < s.slots.length then { s with current := index } else s

/-- Takes one step. -/
def step (s : Session) (st : Step) : Except Breakdown (Answer × Session) := do
  let s := s.select st.target
  let before := s.slots[s.current]?.getD (.ofEngine s.engine)
  let (reply, after) ← before.act st.action
  pure (before.answer after st.action reply, { s with slots := s.slots.set s.current after })

/-- Takes steps until one breaks down: the answers, and the breakdown if there was one. -/
def run (s : Session) : List Step → List Answer × Option Breakdown
  | [] => ([], none)
  | st :: rest =>
    match s.step st with
    | .error breakdown => ([], some breakdown)
    | .ok (answer, s) =>
      let (answers, breakdown) := s.run rest
      (answer :: answers, breakdown)

end Session

end TracedEval
