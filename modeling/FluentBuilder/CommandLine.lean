import FluentBuilder.Report

/-!
# The command line — commands with their arguments and what they print

`Command.parse` reads the arguments; `Command.run` carries a command out on a file tree and says
what is printed and with which status the program ends: 0, 1 if a target failed, 2 if the
arguments are no command.
-/

namespace FluentBuilder

/-- What the program is asked to do. -/
inductive Command where
  | generate (dryRun : Bool) (targets : List Target)
  | inspect (targets : List Target)
  | completions (shell : String)
  | help
  | version
  deriving DecidableEq, Repr

/-- Why arguments are no command. -/
inductive UsageError where
  | noCommand
  | noTarget
  | noShell
  | unknownFlag (flag : String)
  | unknownCommand (name : String)
  | unknownShell (name : String)
  | unexpected (argument : String)
  | repeated (flag : String)
  | malformed (cause : TargetError)
  deriving DecidableEq, Repr

/-- What is reported. -/
def UsageError.message : UsageError → String
  | .noCommand => "error: a command is required: generate, inspect or completions"
  | .noTarget => "error: a target is required"
  | .noShell => "error: a shell is required"
  | .unknownFlag flag => s!"error: unexpected argument '{flag}' found"
  | .unknownCommand name => s!"error: unrecognized subcommand '{name}'"
  | .unknownShell name => s!"error: invalid value '{name}' for a shell"
  | .unexpected argument => s!"error: unexpected argument '{argument}' found"
  | .repeated flag => s!"error: the argument '{flag}' cannot be used multiple times"
  | .malformed cause => s!"error: {cause.message}"

/-- What an argument is. -/
inductive Argument where
  | separator
  | long (name : List Char)
  | short (letters : List Char)
  | value

/-- Tell flags and values apart; a dash alone is a value. -/
def Argument.of (argument : String) : Argument :=
  match argument.toList with
  | ['-', '-'] => .separator
  | '-' :: '-' :: name => .long name
  | '-' :: c :: letters => .short (c :: letters)
  | _ => .value

/-- What a group of short flags asks for: nothing that matters, or a command of its own. -/
def shortFlags (argument : String) (withVersion : Bool) :
    List Char → Except UsageError (Option Command)
  | [] => .ok none
  | c :: rest =>
    if c == 'v' then shortFlags argument withVersion rest
    else if c == 'h' then .ok (some .help)
    else if c == 'V' && withVersion then .ok (some .version)
    else .error (.unknownFlag argument)

/-- What was read so far of the arguments of a command. -/
structure Request where
  dryRun : Bool := false
  values : List String := []

namespace Request

/-- Add a value that satisfies a check. -/
def add (request : Request) (check : String → Except UsageError Unit) (argument : String) :
    Except UsageError Request := do
  check argument
  return { request with values := request.values ++ [argument] }

/-- Read the arguments of a command. The answer is the request, or the command that a flag among
the arguments asks for instead. -/
def read (withDryRun : Bool) (check : String → Except UsageError Unit) (request : Request) :
    List String → Except UsageError (Command ⊕ Request)
  | [] => .ok (.inr request)
  | argument :: rest =>
    match Argument.of argument with
    | .separator => do
      return .inr (← rest.foldlM (fun (all : Request) value => all.add check value) request)
    | .long name =>
      if name == "verbose".toList then read withDryRun check request rest
      else if name == "help".toList then .ok (.inl .help)
      else if name == "dry-run".toList && withDryRun then
        if request.dryRun then .error (.repeated argument)
        else read withDryRun check { request with dryRun := true } rest
      else .error (.unknownFlag argument)
    | .short letters =>
      match shortFlags argument false letters with
      | .error e => .error e
      | .ok (some command) => .ok (.inl command)
      | .ok none => read withDryRun check request rest
    | .value =>
      match request.add check argument with
      | .error e => .error e
      | .ok longer => read withDryRun check longer rest

end Request

namespace Command

/-- The shells for which completions exist. -/
def shells : List String := ["bash", "elvish", "fish", "powershell", "zsh"]

/-- The names of all commands. -/
def names : List String := ["generate", "inspect", "completions", "help"]

/-- Check that a value is a target. -/
def checkTarget (value : String) : Except UsageError Unit :=
  match Target.parse value with
  | .ok _ => .ok ()
  | .error e => .error (.malformed e)

/-- Check that a value is a shell. -/
def checkShell (value : String) : Except UsageError Unit :=
  if shells.contains value then .ok () else .error (.unknownShell value)

/-- The targets among values. -/
def targetsOf (values : List String) : List Target :=
  values.filterMap fun value =>
    match Target.parse value with
    | .ok target => some target
    | .error _ => none

/-- Read a command whose values are targets. -/
def ofTargets (withDryRun : Bool) (command : Bool → List Target → Command)
    (arguments : List String) : Except UsageError Command := do
  match ← Request.read withDryRun checkTarget {} arguments with
  | .inl instead => return instead
  | .inr request =>
    if request.values.isEmpty then throw .noTarget
    return command request.dryRun (targetsOf request.values)

/-- Read the command for completions. -/
def ofShell (arguments : List String) : Except UsageError Command := do
  match ← Request.read false checkShell {} arguments with
  | .inl instead => return instead
  | .inr request =>
    match request.values with
    | [] => throw .noShell
    | [shell] => return .completions shell
    | _ :: extra :: _ => throw (.unexpected extra)

/-- Read the command for help on another command. -/
def ofHelp : List String → Except UsageError Command
  | [] => .ok .help
  | [name] => if names.contains name then .ok .help else .error (.unknownCommand name)
  | _ :: extra :: _ => .error (.unknownCommand extra)

/-- Read a command by its name. -/
def named (name : String) (arguments : List String) : Except UsageError Command :=
  if name == "generate" then ofTargets true .generate arguments
  else if name == "inspect" then ofTargets false (fun _ => .inspect) arguments
  else if name == "completions" then ofShell arguments
  else if name == "help" then ofHelp arguments
  else .error (.unknownCommand name)

/-- Read the arguments of the program. -/
def parse : List String → Except UsageError Command
  | [] => .error .noCommand
  | argument :: rest =>
    match Argument.of argument with
    | .separator =>
      match rest with
      | [] => .error .noCommand
      | value :: _ => .error (.unexpected value)
    | .long name =>
      if name == "verbose".toList then parse rest
      else if name == "help".toList then .ok .help
      else if name == "version".toList then .ok .version
      else .error (.unknownFlag argument)
    | .short letters =>
      match shortFlags argument true letters with
      | .error e => .error e
      | .ok (some command) => .ok command
      | .ok none => parse rest
    | .value => named argument rest

end Command

/-- What the program prints and the status with which it ends. -/
structure Exit where
  status : Nat
  output : String
  errors : String
  deriving DecidableEq, Repr, Inhabited

namespace Exit

/-- Report arguments that are no command. -/
def ofUsageError (e : UsageError) : Exit := ⟨2, "", e.message ++ "\n"⟩

/-- Show a report; the status tells whether a target failed. -/
def ofEvents (failed : Bool) (events : List Event) : Exit :=
  ⟨if failed then 1 else 0, String.join (events.map Event.output),
    String.join (events.map Event.errors)⟩

end Exit

namespace Command

/-- The name and the version of the program. -/
def versionText : String := "gobble 0.1.0\n"

/-- What the program can be asked to do. -/
def helpText : String :=
  "Generate fluent builders for Go structs\n\n" ++
  "Usage: gobble [-v] generate [--dry-run] FILE:STRUCT...\n" ++
  "       gobble [-v] inspect FILE:STRUCT...\n" ++
  "       gobble completions SHELL\n"

/-- The paths of the files that a command may read or write. -/
def paths : Command → List String
  | .generate _ targets | .inspect targets =>
    targets.flatMap fun target => [target.path, target.outputPath]
  | .completions _ | .help | .version => []

/-- Carry a command out on a file tree; `recovery` is what a parser finds in texts that are no
source files, if the reports tell it. -/
def run (command : Command) (tree : FileTree) (recovery : Option Go.Recovery := none) :
    Exit × FileTree :=
  match command with
  | .generate dryRun targets =>
    let (outcomes, after) := Batch.generate dryRun tree targets
    let events := Report.ofGenerate targets outcomes recovery
    (.ofEvents (Report.failures outcomes != 0) events, after)
  | .inspect targets =>
    let found := Batch.inspect tree targets
    let events := Report.ofInspect targets found recovery
    (.ofEvents (found.any Report.lacksBlueprint) events, tree)
  | .completions _ => (⟨0, "", ""⟩, tree)
  | .help => (⟨0, helpText, ""⟩, tree)
  | .version => (⟨0, versionText, ""⟩, tree)

end Command

/-- Read arguments and carry out the command on a file tree. -/
def runArguments (arguments : List String) (tree : FileTree)
    (recovery : Option Go.Recovery := none) : Exit × FileTree :=
  match Command.parse arguments with
  | .error e => (.ofUsageError e, tree)
  | .ok command => command.run tree recovery

end FluentBuilder
