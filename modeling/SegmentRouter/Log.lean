/-!
# Log — what the router says while it works

A `Logged α` is a value together with the lines written on the way to it, oldest first. Nothing
ever reads the lines back, so `value` alone carries the meaning of a computation (`value_bind`).
-/

namespace SegmentRouter

/-- How important a line is. -/
inductive LogLevel where
  | trace
  | debug
  | info
  | warn
  | error
deriving DecidableEq, Repr

/-- The level in capitals. -/
def LogLevel.name : LogLevel → String
  | trace => "TRACE"
  | debug => "DEBUG"
  | info => "INFO"
  | warn => "WARN"
  | error => "ERROR"

/-- A line of the log. -/
structure LogLine where
  level : LogLevel
  message : String
deriving DecidableEq, Repr

/-- The level and the message. -/
def LogLine.text (line : LogLine) : String :=
  s!"{line.level.name} {line.message}"

/-- A value and the lines written on the way to it. -/
structure Logged (α : Type) where
  value : α
  log : List LogLine := []
deriving DecidableEq, Repr

namespace Logged

variable {α β : Type}

instance : Monad Logged where
  pure a := { value := a }
  bind x f :=
    let y := f x.value
    { value := y.value, log := x.log ++ y.log }

@[simp] theorem value_pure (a : α) : (pure a : Logged α).value = a := rfl

@[simp] theorem value_bind (x : Logged α) (f : α → Logged β) :
    (x >>= f).value = (f x.value).value := rfl

/-- Writes a line. -/
def write (level : LogLevel) (message : String) : Logged Unit :=
  { value := (), log := [{ level, message }] }

/-- Writes a line if a condition holds. -/
def writeIf (condition : Bool) (level : LogLevel) (message : String) : Logged Unit :=
  if condition then write level message else pure ()

end Logged

/-- Writes a line at the level of the details of single packets. -/
def logTrace (message : String) : Logged Unit := Logged.write .trace message

/-- Writes a line at the level of single events. -/
def logDebug (message : String) : Logged Unit := Logged.write .debug message

/-- Writes a line at the level of changes that an operator follows. -/
def logInfo (message : String) : Logged Unit := Logged.write .info message

/-- Writes a line about something that may need attention. -/
def logWarn (message : String) : Logged Unit := Logged.write .warn message

/-- Writes a line about something that failed. -/
def logError (message : String) : Logged Unit := Logged.write .error message

end SegmentRouter
