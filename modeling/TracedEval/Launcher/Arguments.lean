import TracedEval.TraceFormat

/-!
# Launcher arguments

What the arguments of the launcher ask for. Options are given at most once, by their full names; the
value of an option follows as the next argument or after an equals sign. Two dashes end the options.
-/

namespace TracedEval

/-- What the launcher is asked for. -/
structure LaunchOptions where
  /-- The program to run, by its name or host name; all of them if there is none. -/
  program : Option String := none
  list : Bool := false
  traceFormat : Option TraceFormat := none
  maxCallDepth : Option Nat := none
  /-- The path of a configuration file. -/
  config : Option String := none
  printResult : Bool := false
  version : Bool := false
  deriving DecidableEq, Repr

/-- What arguments come down to. -/
inductive LaunchRequest
  | help
  | run (options : LaunchOptions)
  deriving DecidableEq, Repr

/-- Why arguments make no sense. -/
inductive UsageError
  | unknownOption (argument : String)
  | repeated (option : String)
  | missingValue (option : String)
  | unwantedValue (option : String)
  | invalidValue (option value : String)
  | extraArgument (argument : String)
  deriving DecidableEq, Repr

def UsageError.message : UsageError → String
  | unknownOption argument => s!"unexpected argument '{argument}' found"
  | repeated option => s!"the argument '{option}' cannot be used multiple times"
  | missingValue option => s!"a value is required for '{option}' but none was supplied"
  | unwantedValue option => s!"the argument '{option}' takes no value"
  | invalidValue option value => s!"invalid value '{value}' for '{option}'"
  | extraArgument argument => s!"unexpected argument '{argument}' found"

/-- Reads a number below `2 ^ 64`: digits, with or without a plus sign before them. -/
def readNumeral? (s : String) : Option Nat :=
  let digits := match s.toList with
    | '+' :: rest => rest
    | cs => cs
  if digits.isEmpty || !digits.all Char.isDigit then none
  else
    let n := digits.foldl (fun n c => n * 10 + (c.toNat - '0'.toNat)) 0
    if n < UInt64.size then some n else none

namespace LaunchOptions

/-- Takes a program name. -/
def addProgram (o : LaunchOptions) (name : String) : Except UsageError LaunchOptions :=
  if o.program.isSome then .error (.extraArgument name) else .ok { o with program := some name }

/-- Takes an option that stands alone; `none` if there is no such option. -/
def addFlag? (o : LaunchOptions) (option : String) : Option (Except UsageError LaunchOptions) :=
  match option with
  | "--list" => some (if o.list then .error (.repeated option) else .ok { o with list := true })
  | "--print-result" =>
    some (if o.printResult then .error (.repeated option) else .ok { o with printResult := true })
  | "--version" =>
    some (if o.version then .error (.repeated option) else .ok { o with version := true })
  | _ => none

/-- Whether an option has a value. -/
def takesValue (option : String) : Bool :=
  option == "--trace-format" || option == "--max-call-depth" || option == "--config"

/-- Takes an option with its value. -/
def addValue (o : LaunchOptions) (option value : String) : Except UsageError LaunchOptions :=
  if option = "--trace-format" then
    if o.traceFormat.isSome then .error (.repeated option)
    else
      match TraceFormat.parse value with
      | .ok format => .ok { o with traceFormat := some format }
      | .error _ => .error (.invalidValue option value)
  else if option = "--max-call-depth" then
    if o.maxCallDepth.isSome then .error (.repeated option)
    else
      match readNumeral? value with
      | some n => .ok { o with maxCallDepth := some n }
      | none => .error (.invalidValue option value)
  else if option = "--config" then
    if o.config.isSome then .error (.repeated option)
    else if value.isEmpty then .error (.invalidValue option value)
    else .ok { o with config := some value }
  else .error (.unknownOption option)

/-- Whether an argument looks like an option, so that it is no option's value. -/
def looksLikeOption (argument : String) : Bool :=
  argument.startsWith "-" && argument != "-"

/-- The parts of an argument before and after its first equals sign. -/
def splitValue (argument : String) : String × Option String :=
  let cs := argument.toList
  match cs.dropWhile (· != '=') with
  | [] => (argument, none)
  | _ :: value => (String.ofList (cs.takeWhile (· != '=')), some (String.ofList value))

/-- Takes arguments that cannot be options any more. -/
def addPrograms (o : LaunchOptions) (arguments : List String) : Except UsageError LaunchOptions :=
  arguments.foldlM addProgram o

/-- Takes arguments in the order they stand. A request for help is answered as soon as it is met. -/
def addArguments (o : LaunchOptions) : List String → Except UsageError LaunchRequest
  | [] => .ok (.run o)
  | argument :: rest =>
    if argument = "--" then (o.addPrograms rest).map .run
    else if argument.startsWith "--" then
      match splitValue argument with
      | (option, none) =>
        if option = "--help" then .ok .help
        else if takesValue option then
          match rest with
          | [] => .error (.missingValue option)
          | value :: rest =>
            if looksLikeOption value then .error (.missingValue option)
            else do
              let o ← o.addValue option value
              o.addArguments rest
        else
          match o.addFlag? option with
          | some added => do
            let o ← added
            o.addArguments rest
          | none => .error (.unknownOption argument)
      | (option, some value) =>
        if takesValue option then do
          let o ← o.addValue option value
          o.addArguments rest
        else if (o.addFlag? option).isSome || option == "--help" then
          .error (.unwantedValue option)
        else .error (.unknownOption argument)
    else if argument.startsWith "-h" then .ok .help
    else if looksLikeOption argument then .error (.unknownOption argument)
    else do
      let o ← o.addProgram argument
      o.addArguments rest

end LaunchOptions

/-- What a list of arguments asks for. -/
def LaunchRequest.ofArguments (arguments : List String) : Except UsageError LaunchRequest :=
  LaunchOptions.addArguments {} arguments

end TracedEval
