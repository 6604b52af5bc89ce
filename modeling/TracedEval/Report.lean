import TracedEval.CallStack
import TracedEval.Fault
import TracedEval.Text.Quoted
import TracedEval.TraceFormat

/-!
# Reports

The report of an uncaught failure: what went wrong, where, and which calls were under way. It is
written as text, a line for the failure and one for each call, or as a single line of JSON.
-/

namespace TracedEval

/-- A failure with the calls that were under way, the innermost first. -/
structure Report where
  position : Position
  message : String
  stack : List Frame
  deriving DecidableEq, Repr

namespace Report

/-- The report of a failure with these frames, which are in the order they were pushed. -/
def ofFailure (failure : Failure) (frames : List Frame) : Report where
  position := failure.position
  message := failure.message
  stack := frames.reverse

/-! ## Text -/

/-- The line of one call. -/
def frameLine (frame : Frame) : String :=
  s!"  {frame.position.text} > {frame.name}"

/-- The failure, a heading, and a line for each call. -/
def textLines (r : Report) : List String :=
  s!"{r.position.text}Runtime Error: {r.message}" :: "Stack trace:" :: r.stack.map frameLine

/-- The text form as one text, every line ended. -/
def display (r : Report) : String :=
  String.join (r.textLines.map (· ++ "\n"))

/-! ## JSON -/

/-- How a character stands in a JSON string: only quotes, backslashes and controls are escaped. -/
def escapeJson (c : Char) : String :=
  match c with
  | '"' => "\\\""
  | '\\' => "\\\\"
  | '\x08' => "\\b"
  | '\x0c' => "\\f"
  | '\n' => "\\n"
  | '\r' => "\\r"
  | '\t' => "\\t"
  | c =>
    if c.toNat < 0x10 then "\\u000" ++ Text.hexadecimal c.toNat
    else if c.toNat < 0x20 then "\\u00" ++ Text.hexadecimal c.toNat
    else c.toString

/-- A JSON string. -/
def jsonString (s : String) : String :=
  "\"" ++ String.join (s.toList.map escapeJson) ++ "\""

/-- The row and the column, as members of an object. -/
def positionMembers (p : Position) : String :=
  s!"\"row\":{p.row},\"col\":{p.col}"

def frameJson (frame : Frame) : String :=
  "\x7b\"name\":" ++ jsonString frame.name ++ "," ++ positionMembers frame.position ++ "\x7d"

/-- The report as one line of JSON. -/
def json (r : Report) : String :=
  "\x7b" ++ positionMembers r.position ++ ",\"message\":" ++ jsonString r.message ++
    ",\"stack\":[" ++ ",".intercalate (r.stack.map frameJson) ++ "]\x7d"

/-- The lines of the report in a format. -/
def lines (r : Report) : TraceFormat → List String
  | .text => r.textLines
  | .json => [r.json]

end Report

end TracedEval
