import SegmentRouter.Config.Validation
import SegmentRouter.Text.Field
import SegmentRouter.Text.Similarity

/-!
# Command — the command line

`check` reads a configuration file and says what is wrong with it. The text goes to the standard
output, what made the command fail to the standard error, and the exit status says whether it did.

After `check` come options in any order. `--config` has a path, which is a part of its argument, as
in `--config=a` or `-ca`, or the next argument. In the next argument it is not looked at before the
following option is, or the line ends; an unknown option is then reported rather than what is wrong
with the path.
-/

namespace SegmentRouter.Command

/-- What a command prints and how it ends. -/
structure Outcome where
  status : Nat := 0
  stdout : String := ""
  stderr : String := ""
deriving DecidableEq, Repr

/-- What the command line asks for. -/
inductive Request where
  /-- Check a configuration file. -/
  | check (path : String)
  /-- Nothing but a text: help, or why the command line is not understood. -/
  | answer (outcome : Outcome)
deriving DecidableEq, Repr

/-- The file that is checked if none is named. -/
def defaultPath : String := "router.toml"

/-! ## Answers -/

/-- The option for the path, as it is shown. -/
def pathOption : String := "--config <CONFIG>"

/-- The option for help, as it is shown. -/
def helpOption : String := "--help"

/-- How `check` is called with some options. -/
def usage (shown : List String) : String :=
  let arguments := " ".intercalate (if shown.isEmpty then ["[OPTIONS]"] else shown)
  s!"Usage: domain-router check {arguments}"

/-- The answer to a command line that is not understood: what is wrong, and notes on it. -/
def misuse (message : String) (notes : List String) : Request :=
  let blocks := s!"error: {message}" :: notes ++ ["For more information, try '--help'."]
  .answer { status := 2, stderr := "\n\n".intercalate blocks ++ "\n" }

/-- What `check` does and which options it has. -/
def help : Request :=
  .answer {
    stdout := s!"Validate a configuration file and exit\n\n{usage []}\n\nOptions:\n" ++
      "  -c, --config <CONFIG>  Path to the configuration file [default: router.toml]\n" ++
      "  -h, --help             Print help\n" }

/-- The answer to the option for the path without a path. -/
def missingPath : Request :=
  misuse s!"a value is required for '{pathOption}' but none was supplied" []

/-- The answer to a second path. -/
def repeatedPath : Request :=
  misuse s!"the argument '{pathOption}' cannot be used multiple times" [usage []]

/-- The answer to an argument that means nothing. -/
def unexpected (argument : String) : Request :=
  misuse s!"unexpected argument '{argument}' found" [usage []]

/-! ## Arguments -/

/-- An argument, taken by itself. -/
inductive Argument where
  /-- The option for the path, which may have the path attached. -/
  | config (attached : Option String)
  /-- The option for help, which may have a useless value attached. -/
  | help (attached : Option String)
  /-- An option of one letter that does not exist. -/
  | unknownLetter (letter : Char)
  /-- An option with a name that does not exist. -/
  | unknownName (name : String)
  /-- Two hyphens: what follows is not an option. -/
  | separator
  /-- Anything else. -/
  | plain (text : String)
deriving DecidableEq, Repr

namespace Argument

/-- The names of the options. -/
def names : List String := ["config", "help"]

/-- The argument of an option with a name. -/
def ofName (name : String) (attached : Option String) : Argument :=
  if name = "config" then .config attached
  else if name = "help" then .help attached
  else .unknownName name

/-- The argument of an option of one letter; what follows the letter is a path for that option, or
not looked at. -/
def ofLetter (letter : Char) (rest : List Char) : Argument :=
  if letter = 'h' then .help none
  else if letter = 'c' then
    match rest with
    | [] => .config none
    | '=' :: path => .config (some (String.ofList path))
    | path => .config (some (String.ofList path))
  else .unknownLetter letter

/-- What a text is as an argument. -/
def ofText (text : String) : Argument :=
  match text.toList with
  | ['-', '-'] => .separator
  | '-' :: '-' :: cs =>
    match Text.cut? '=' cs with
    | some (name, value) => ofName (String.ofList name) (some (String.ofList value))
    | none => ofName (String.ofList cs) none
  | '-' :: letter :: rest => ofLetter letter rest
  | _ => .plain text

end Argument

/-! ## Options -/

/-- A path that was not looked at yet. -/
inductive Pending where
  | nothing
  /-- The option was there, the argument after it not yet. -/
  | awaited
  | read (path : String)
deriving DecidableEq, Repr

/-- What the arguments up to some point say. -/
structure Options where
  /-- Whether there was a path, good or not, and not two. -/
  given : Bool := false
  path : Option String := none
  pending : Pending := .nothing
deriving DecidableEq, Repr

namespace Options

/-- Takes a path: what is wrong with it, and the options after it. -/
def take (o : Options) (path : String) : Option Request × Options :=
  if o.given then (some repeatedPath, { o with given := false })
  else if path.isEmpty then (some missingPath, { o with given := true })
  else (none, { o with given := true, path := some path })

/-- Looks at a path that was not looked at yet. -/
def settle (o : Options) : Option Request × Options :=
  let settled := { o with pending := .nothing }
  match o.pending with
  | .nothing => (none, settled)
  | .awaited => (some missingPath, settled)
  | .read path => settled.take path

/-- The options as a usage shows them. -/
def shown (o : Options) : List String :=
  if o.given then [pathOption] else []

/-- The answer to an option with a name that does not exist, which may have been meant for another
one. -/
def unknownName (o : Options) (name : String) : Request :=
  let message := s!"unexpected argument '--{name}' found"
  match Text.nearest? name Argument.names with
  | none => misuse message [usage o.shown]
  | some near =>
    let meant := if near = "help" then o.shown ++ [helpOption] else [pathOption]
    misuse message [s!"  tip: a similar argument exists: '--{near}'", usage meant]

/-- The answer to help with a value. -/
def helpWith (o : Options) (value : String) : Request :=
  misuse s!"unexpected value '{value}' for '{helpOption}' found; no more were expected"
    [usage (o.shown ++ [helpOption])]

/-- What ends the options with an answer, if anything does. -/
def finish (o : Options) (last : Options → Request) : Request :=
  match o.settle with
  | (some fault, _) => fault
  | (none, o) => last o

/-- What options without anything after them ask for. -/
def checked (o : Options) : Request :=
  o.finish fun o => .check (o.path.getD defaultPath)

/-- What the arguments after some options ask for. -/
def read : Options → List String → Request
  | o, [] => o.checked
  | o, argument :: rest =>
    match Argument.ofText argument with
    | .config none =>
      match o.settle with
      | (some fault, _) => fault
      | (none, o) => read { o with pending := .awaited } rest
    | .config (some path) =>
      match o.settle with
      | (some fault, _) => fault
      | (none, o) =>
        match o.take path with
        | (some fault, _) => fault
        | (none, o) => read o rest
    | .help none => o.finish fun _ => help
    | .help (some value) => o.helpWith value
    | .unknownLetter letter => unexpected s!"-{letter}"
    | .unknownName name => o.settle.2.unknownName name
    | .separator =>
      match rest with
      | [] => o.checked
      | argument :: _ => unexpected argument
    | .plain text =>
      if o.pending = .awaited then read { o with pending := .read text } rest
      else unexpected text

end Options

/-- What a command line asks for. -/
def request : List String → Request
  | "check" :: arguments => Options.read {} arguments
  | ["help", "check"] => help
  | [] => misuse "a subcommand is required" [usage []]
  | name :: _ => misuse s!"unrecognized subcommand '{name}'" [usage []]

/-! ## The check -/

/-- Lines of text. -/
def lines (ls : List String) : String :=
  String.join (ls.map (· ++ "\n"))

/-- Checks the configuration file at a path. -/
def check (path : String) (file : Config.FileContent) : Outcome :=
  let title := s!"[INFO] Validating {path}..."
  match Config.ofFile file with
  | .error e => { status := 1, stdout := lines [title], stderr := lines [s!"[ERROR] {e.message}"] }
  | .ok config =>
    let diagnosis := Config.validate config
    let findings := diagnosis.warnings.map (fun m => s!"[WARN] {m}") ++
      diagnosis.errors.map (fun m => s!"[ERROR] {m}")
    if diagnosis.hasErrors then
      let fault := (Error.config .validationFailed).message
      { status := 1, stdout := lines (title :: findings), stderr := lines [s!"[ERROR] {fault}"] }
    else
      let summary := s!"[INFO] Configuration is valid: {config.domains.length} domains, " ++
        s!"{config.attachments.length} attachments"
      { stdout := lines (title :: findings ++ [summary]) }

end SegmentRouter.Command
