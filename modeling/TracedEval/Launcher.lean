import TracedEval.Bundle
import TracedEval.Config.Reader
import TracedEval.Engine
import TracedEval.Launcher.Arguments

/-!
# Launcher

Runs bundled programs from the command line. What a launch does is determined by its options and by
how files read: the bytes for the standard output, the programs that failed, and the error that
ended it, if one did. Each program runs in a context of its own, so that a failing program leaves
the later ones alone.
-/

namespace TracedEval

/-! ## Colours -/

private def coloured (code : Nat) (s : String) : String := s!"\x1b[{code}m{s}\x1b[39m"

private def bold (s : String) : String := s!"\x1b[1m{s}\x1b[0m"

/-! ## Configuration -/

/-- The greatest depth that the launcher accepts. -/
def greatestLaunchDepth : Nat := 10000

/-- The settings of a launch: those of the configuration file with the options in place of what they
give. The launcher always echoes and never captures. -/
def LaunchOptions.settings (o : LaunchOptions) (read : String → Except FileError ByteArray) :
    Except ConfigError Config := do
  let config ← match o.config with
    | some path => Config.ofFile path (read path)
    | none => pure {}
  let config := { config with
    echoOutput := true
    captureOutput := false
    traceFormat := o.traceFormat.getD config.traceFormat
    maxCallDepth := o.maxCallDepth.getD config.maxCallDepth }
  if 1 ≤ config.maxCallDepth ∧ config.maxCallDepth ≤ greatestLaunchDepth then pure config
  else .error (.depthOutOfRange 1 greatestLaunchDepth)

/-! ## Running programs -/

/-- What ends a launch. -/
inductive LaunchError
  | config (error : ConfigError)
  | unknownProgram (name : String)
  | run (error : RunError)
  /-- A program stopped in a way that leaves nothing to report. -/
  | brokenDown

def LaunchError.diagnostic : LaunchError → Diagnostic
  | config error => error.diagnostic
  | unknownProgram name => {
      text := s!"unknown program '{name}' (see --list)"
      code := none, help := none, cause := none, related := none }
  | run error => error.diagnostic
  | brokenDown => {
      text := "the program runner panicked"
      code := none, help := none, cause := none, related := none }

/-- What a launch, or a part of one, came to. -/
structure Launch where
  /-- The bytes written to the standard output. -/
  stdout : List UInt8
  /-- The programs that ended in an uncaught failure. -/
  failed : List String
  error : Option LaunchError

namespace Launch

/-- Nothing has happened. -/
def nothing : Launch := ⟨[], [], none⟩

/-- Nothing but an error. -/
def ofError (e : LaunchError) : Launch := ⟨[], [], some e⟩

/-- Nothing but some text. -/
def ofText (s : String) : Launch := ⟨textBytes s, [], none⟩

/-- One part after another. -/
def append (a b : Launch) : Launch := ⟨a.stdout ++ b.stdout, a.failed ++ b.failed, b.error⟩

/-- The exit status. -/
def exitCode (l : Launch) : Nat := if l.error.isSome || !l.failed.isEmpty then 1 else 0

/-- What the launcher itself says on the error channel. -/
def complaints (l : Launch) : String :=
  let heading := bold (coloured 31 "error:")
  String.join <| l.failed.map fun name =>
    s!"{heading} program '{coloured 33 name}' stopped on an uncaught runtime error\n"

end Launch

/-- What a context's sink has received. -/
def Context.received (ctx : Context) : List UInt8 :=
  (ctx.output.echo.map (·.received)).getD []

/-- Runs one program in a new context. -/
def Engine.launch (e : Engine) (printResult : Bool) (p : Program) : Launch :=
  match e.newContext.execute p.body with
  | .ok value ctx =>
    let result := if printResult then textBytes (value.display ++ "\n") else []
    ⟨ctx.received ++ result, [], none⟩
  | .error (.uncaught _) ctx => ⟨ctx.received, [p.name], none⟩
  | .error error ctx => ⟨ctx.received, [], some (.run error)⟩
  | .underflow | .exhausted => .ofError .brokenDown

/-- Runs programs one after the other. A failing program does not keep the others from running; any
other error does. -/
def Engine.launchAll (e : Engine) (printResult : Bool) : List Program → Launch
  | [] => .nothing
  | p :: rest =>
    let first := e.launch printResult p
    if first.error.isSome then first else first.append (e.launchAll printResult rest)

/-! ## The launcher -/

/-- The name and the version. -/
def versionText : String :=
  bold (coloured 96 "lfrt") ++ " " ++ coloured 90 "0.1.0" ++ "\n"

/-- The names and the host names of programs. -/
def listText (programs : List Program) : String :=
  String.join <| programs.map fun p => s!"{coloured 96 p.name} {coloured 90 p.hostName}\n"

/-- The programs that a launch is about. -/
def LaunchOptions.selected (o : LaunchOptions) (programs : List Program) :
    Except LaunchError (List Program) :=
  match o.program with
  | none => .ok programs
  | some name =>
    match Program.find? programs name with
    | some p => .ok [p]
    | none => .error (.unknownProgram name)

/-- Does what the options ask for, with these programs. The settings are checked before the name of
the program. -/
def LaunchOptions.launch (o : LaunchOptions) (programs : List Program)
    (read : String → Except FileError ByteArray) : Launch :=
  if o.version then .ofText versionText
  else if o.list then .ofText (listText programs)
  else
    match o.settings read with
    | .error e => .ofError (.config e)
    | .ok config =>
      match o.selected programs with
      | .error e => .ofError e
      | .ok selected => (Engine.ofConfig config).launchAll o.printResult selected

/-- How the launcher is used. -/
def usageText : String :=
  "Run compiled LF programs on the lfrt runtime\n\n" ++
  "Usage: lfrt [OPTIONS] [PROGRAM]\n\n" ++
  "Arguments:\n" ++
  "  [PROGRAM]  Program to run, by LF name (`run-1.2`) or host name (`run451462`). " ++
  "Runs every bundled program when omitted\n\n" ++
  "Options:\n" ++
  "      --list                   List the bundled programs and exit\n" ++
  "      --trace-format <FORMAT>  Format of uncaught-error reports: text or json\n" ++
  "      --max-call-depth <N>     Maximum nesting of tracked calls " ++
  "(default 256, at most 10000)\n" ++
  "      --config <FILE>          JSON runtime configuration file\n" ++
  "      --print-result           Print each program's return value after it finishes\n" ++
  "      --version                Print version and exit\n" ++
  "  -h, --help                   Print help\n"

end TracedEval
