import SegmentRouter.Command

/-!
# Main — the program

Reads the file that the command line names and prints what `Command` makes of it.
-/

open SegmentRouter

/-- The content of a file, or the system's reason why it could not be read. -/
def readContent (path : String) : IO Config.FileContent := do
  try
    return .ok (← IO.FS.readFile path)
  catch e =>
    match e with
    | .noFileOrDirectory _ code reason | .permissionDenied _ code reason
    | .inappropriateType _ code reason | .invalidArgument _ code reason
    | .resourceExhausted _ code reason =>
      return .error s!"{reason} (os error {code})"
    | _ => return .error (toString e)

/-- Does what the arguments ask for. -/
def main (arguments : List String) : IO UInt32 := do
  let outcome ← match Command.request arguments with
    | .check path => pure (Command.check path (← readContent path))
    | .answer outcome => pure outcome
  IO.print outcome.stdout
  IO.eprint outcome.stderr
  return UInt32.ofNat outcome.status
