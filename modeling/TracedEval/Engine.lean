import TracedEval.Config.Basic
import TracedEval.Eval
import TracedEval.Program

/-!
# Engines

An engine makes contexts that start out alike: the same settings, and a fresh copy of the same sink.
-/

namespace TracedEval

/-- What contexts are made from. -/
structure Engine where
  config : Config
  /-- The sink that each context gets a fresh copy of. -/
  sink : Option Sink

namespace Engine

/-- An engine whose contexts echo to nothing but the standard output, if at all. -/
def ofConfig (config : Config) : Engine := ⟨config, none⟩

def withMaxCallDepth (e : Engine) (depth : Nat) : Engine :=
  { e with config.maxCallDepth := depth }

def withTraceFormat (e : Engine) (format : TraceFormat) : Engine :=
  { e with config.traceFormat := format }

def withSink (e : Engine) (sink : Sink) : Engine := { e with sink := some sink }

/-- What a new context echoes to: the engine's sink, or else the standard output if the settings ask
for it. The standard output takes everything. -/
def echo (e : Engine) : Option Sink :=
  match e.sink with
  | some sink => some sink
  | none => if e.config.echoOutput then some .unlimited else none

/-- A new context. -/
def newContext (e : Engine) : Context :=
  .new e.config.maxCallDepth e.config.traceFormat (.new e.echo e.config.captureOutput)

/-- A one-line description of the engine. -/
def describe (e : Engine) : String :=
  s!"Engine \x7b config: {e.config.describe}, echo_sink: {e.sink.isSome} \x7d"

end Engine

/-- Runs a program in a fresh context with the default settings. -/
def Program.run (p : Program) : Outcome RunError Value :=
  ((Engine.ofConfig {}).newContext).execute p.body

end TracedEval
