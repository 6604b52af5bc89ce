import TracedEval.Position
import TracedEval.Sink

/-!
# Faults

What can go wrong while a program runs, and how it is told. Three things are told apart: a `Fault`
is what went wrong, a `Failure` also says where, and a `RunError` is what a finished run hands to
whoever started it. Each has a `Diagnostic`: its text, a stable code, advice, and what is behind it.
-/

namespace TracedEval

/-- What went wrong. -/
inductive Fault
  | tooFewArguments (builtin : String) (min : Nat)
  | argumentCount (name : String) (expected got : Nat)
  | undefinedName (name : String)
  | notCallable (name : String)
  | typeError (message : String)
  | depthExceeded (limit : Nat)
  | raised (message : String)
  | output (error : ChannelError)
  deriving DecidableEq, Repr

/-- What went wrong and where. -/
structure Failure where
  position : Position
  fault : Fault
  deriving DecidableEq, Repr

/-- How a run can end in an error. -/
inductive RunError
  /-- The failure was reported on the output channel. -/
  | uncaught (failure : Failure)
  /-- The output channel refused the report of the failure. -/
  | unreported (failure : Failure) (error : ChannelError)
  deriving DecidableEq, Repr

/-- An error as it is shown: `cause` is the error behind it, `related` the fault it is about. -/
structure Diagnostic where
  text : String
  code : Option String
  help : Option String
  cause : Option String
  related : Option String
  deriving DecidableEq, Repr

/-- `1 argument`, `2 arguments`, with the number. -/
def countedArguments (n : Nat) : String :=
  toString n ++ (if n = 1 then " argument" else " arguments")

namespace Fault

def message : Fault → String
  | tooFewArguments builtin min =>
    s!"builtin function '{builtin}' requires at least {countedArguments min}"
  | argumentCount name expected got =>
    s!"'{name}' expects {countedArguments expected} but got {got}"
  | undefinedName name => s!"{name} is not defined"
  | notCallable name => s!"{name} is not a function"
  | typeError message => s!"type error: {message}"
  | depthExceeded limit => s!"maximum call depth of {limit} exceeded"
  | raised message => message
  | output error => s!"output channel failed: {error.text}"

/-- A code that stays the same when the wording changes. -/
def code : Fault → String
  | tooFewArguments .. => "lfrt::arity"
  | argumentCount .. => "lfrt::argument_count"
  | undefinedName _ => "lfrt::undefined"
  | notCallable _ => "lfrt::not_callable"
  | typeError _ => "lfrt::type_error"
  | depthExceeded _ => "lfrt::call_depth"
  | raised _ => "lfrt::raised"
  | output _ => "lfrt::output"

/-- Advice on what to do about it. -/
def help? : Fault → Option String
  | depthExceeded _ => some "raise `max_call_depth` or check for unbounded recursion"
  | _ => none

/-- The text of the error behind it. -/
def cause? : Fault → Option String
  | output error => some error.text
  | _ => none

def diagnostic (f : Fault) : Diagnostic where
  text := f.message
  code := some f.code
  help := f.help?
  cause := f.cause?
  related := none

end Fault

namespace Failure

/-- What is said after the position. -/
def message (f : Failure) : String := f.fault.message

/-- The position and the message. -/
def text (f : Failure) : String := s!"{f.position.text} {f.message}"

def diagnostic (f : Failure) : Diagnostic where
  text := f.text
  code := none
  help := none
  cause := none
  related := some f.message

end Failure

namespace RunError

def failure : RunError → Failure
  | uncaught failure => failure
  | unreported failure _ => failure

def text : RunError → String
  | uncaught failure => failure.text
  | unreported failure _ => s!"failed to write the report for uncaught error {failure.text}"

/-- A reported failure is shown as the failure itself. -/
def diagnostic : RunError → Diagnostic
  | uncaught failure => failure.diagnostic
  | e@(unreported _ error) => {
      text := e.text
      code := some "lfrt::report"
      help := some "the output channel is no longer writable"
      cause := some error.text
      related := none }

end RunError

end TracedEval
