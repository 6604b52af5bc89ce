/-!
# Trace formats

The two ways to write the report of an uncaught failure.
-/

namespace TracedEval

/-- How the report of an uncaught failure is written. -/
inductive TraceFormat
  | text
  | json
  deriving DecidableEq, Repr, Inhabited

namespace TraceFormat

def all : List TraceFormat := [text, json]

def name : TraceFormat → String
  | text => "text"
  | json => "json"

/-- The format of that name, written in exactly these letters. -/
def ofName? : String → Option TraceFormat
  | "text" => some text
  | "json" => some json
  | _ => none

theorem ofName?_name (f : TraceFormat) : ofName? f.name = some f := by
  cases f <;> rfl

/-- A name in lower case that is no format's. -/
structure Unknown where
  name : String
  deriving DecidableEq, Repr

def Unknown.message (e : Unknown) : String :=
  s!"unknown trace format '{e.name}' (expected text or json)"

/-- Reads a format's name in any mixture of cases. Only ASCII letters have their case changed. -/
def parse (s : String) : Except Unknown TraceFormat :=
  match ofName? s.toLower with
  | some format => .ok format
  | none => .error ⟨s.toLower⟩

end TraceFormat

end TracedEval
