import TracedEval.Sink

/-!
# Output channel

The lines that a program writes. Each line can be echoed to a sink, captured, or both. The echo
comes first: a line that the sink refuses is not captured.
-/

namespace TracedEval

/-- The output channel of a program. -/
structure Output where
  echo : Option Sink
  capture : Bool
  /-- The captured lines, the oldest first. -/
  lines : List String
  deriving DecidableEq, Repr

namespace Output

/-- A channel without captured lines. -/
def new (echo : Option Sink) (capture : Bool) : Output := ⟨echo, capture, []⟩

/-- The channel with the line among the captured ones, if it captures. -/
def keep (output : Output) (line : String) : Output :=
  if output.capture then { output with lines := output.lines ++ [line] } else output

/-- Writes one line. -/
def writeLine (output : Output) (line : String) : Output × Option ChannelError :=
  match output.echo with
  | none => (output.keep line, none)
  | some sink =>
    match sink.writeLine line with
    | (sink, none) => ({ output with echo := some sink }.keep line, none)
    | (sink, some error) => ({ output with echo := some sink }, some error)

/-- Writes lines until one is refused. -/
def writeLines (output : Output) : List String → Output × Option ChannelError
  | [] => (output, none)
  | line :: rest =>
    match output.writeLine line with
    | (output, none) => output.writeLines rest
    | (output, some error) => (output, some error)

/-- Echoes to another sink from now on. -/
def setEcho (output : Output) (sink : Sink) : Output := { output with echo := some sink }

/-- Hands the captured lines over. -/
def takeLines (output : Output) : List String × Output :=
  (output.lines, { output with lines := [] })

/-- A one-line description of the channel's state. -/
def describe (output : Output) : String :=
  s!"Output \x7b echo: {output.echo.isSome}, capture: {output.capture}, " ++
    s!"lines: {output.lines.length} \x7d"

end Output

end TracedEval
