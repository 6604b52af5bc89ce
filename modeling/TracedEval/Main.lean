import TracedEval.Launcher

/-!
# Command line

Hands the arguments to the launcher, reads the files it asks for, and writes what it came to.
-/

open TracedEval

/-- Why a file could not be read, as the system put it. -/
private def fileError : IO.Error → FileError
  | .noFileOrDirectory .. | .noSuchThing .. => .notFound
  | .inappropriateType _ 21 _ => .isDirectory
  | .inappropriateType _ 20 _ => .notDirectory
  | e => .other (toString e)

/-- The error channel's text for an error that ended the launch. -/
private def errorText (d : Diagnostic) : String :=
  let code := match d.code with
    | some code => code ++ "\n\n"
    | none => ""
  let help := match d.help with
    | some help => "  help: " ++ help ++ "\n"
    | none => ""
  code ++ "  × " ++ d.text ++ "\n" ++ help

/-- The launcher's command line. -/
def main (arguments : List String) : IO UInt32 := do
  match LaunchRequest.ofArguments arguments with
  | .error e =>
    (← IO.getStderr).putStr s!"error: {e.message}\n"
    return 2
  | .ok .help =>
    (← IO.getStdout).putStr usageText
    return 0
  | .ok (.run options) =>
    let content ← match options.config with
      | none => pure (.error .notFound)
      | some path => do
        match ← (IO.FS.readBinFile path).toBaseIO with
        | .ok bytes => pure (.ok bytes)
        | .error e => pure (.error (fileError e))
    let launch := options.launch Bundle.programs fun _ => content
    (← IO.getStdout).write (ByteArray.mk launch.stdout.toArray)
    (← IO.getStderr).putStr launch.complaints
    if let some error := launch.error then
      (← IO.getStderr).putStr ("Error: " ++ errorText error.diagnostic)
    return UInt32.ofNat launch.exitCode
