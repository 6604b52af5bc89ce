import TracedEval.TraceFormat

/-!
# Configuration

The settings that contexts are made with.
-/

namespace TracedEval

/-- Settings of a run. The defaults are those of an absent setting. -/
structure Config where
  /-- How many calls may be under way at once. -/
  maxCallDepth : Nat := 256
  /-- Whether lines are echoed to the standard output. -/
  echoOutput : Bool := false
  /-- Whether lines are captured. -/
  captureOutput : Bool := true
  traceFormat : TraceFormat := .text
  deriving DecidableEq, Repr, Inhabited

/-- A setting that a configuration text can give. -/
inductive ConfigField
  | maxCallDepth
  | echoOutput
  | captureOutput
  | traceFormat
  deriving DecidableEq, Repr

namespace ConfigField

/-- All settings, in the order in which a list gives them. -/
def all : List ConfigField := [maxCallDepth, echoOutput, captureOutput, traceFormat]

def name : ConfigField → String
  | maxCallDepth => "max_call_depth"
  | echoOutput => "echo_output"
  | captureOutput => "capture_output"
  | traceFormat => "trace_format"

/-- The setting of that name. -/
def ofName? (name : String) : Option ConfigField :=
  all.find? fun field => field.name == name

theorem ofName?_name (field : ConfigField) : ofName? field.name = some field := by
  cases field <;> decide

end ConfigField

/-- A one-line description of the settings. -/
def Config.describe (c : Config) : String :=
  let format := match c.traceFormat with
    | .text => "Text"
    | .json => "Json"
  s!"RuntimeConfig \x7b max_call_depth: {c.maxCallDepth}, echo_output: {c.echoOutput}, " ++
    s!"capture_output: {c.captureOutput}, trace_format: {format} \x7d"

end TracedEval
