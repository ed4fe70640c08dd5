import RegisterCatalog.Manifest.Format

/-! The command line: what the arguments ask for, and what the outcome looks like. -/

namespace RegisterCatalog.CommandLine

/-- The options that take a path. -/
inductive PathOption
  | dependencies
  | allowList
  | settings
  deriving DecidableEq

def PathOption.ofName? : String → Option PathOption
  | "dependencies-file" => some .dependencies
  | "allow-list" => some .allowList
  | "config" => some .settings
  | _ => none

/-- What has been given so far. -/
structure Given where
  paths : List String := []
  options : List (PathOption × String) := []
  /-- How often more output was asked for before the command. -/
  verbosityBefore : Nat := 0
  /-- How often it was asked for after the command. -/
  verbosityAfter : Nat := 0

/-- What is asked for after the command takes the place of what was asked for before it. -/
def Given.verbosity (given : Given) : Nat :=
  if given.verbosityAfter = 0 then given.verbosityBefore else given.verbosityAfter

inductive Invocation
  /-- The arguments are wrong. -/
  | refused
  /-- Nothing but information is asked for. -/
  | informed
  | generate (request : Request) (verbosity : Nat)

/-- What a cluster of one-letter options adds to the verbosity. It may ask for information instead;
the version is only known to the outer command. -/
def readLetters (knowsVersion : Bool) (verbosity : Nat) : List Char → Except Invocation Nat
  | [] => .ok verbosity
  | letter :: rest =>
    if letter == 'v' then readLetters knowsVersion (verbosity + 1) rest
    else if letter == 'h' || (letter == 'V' && knowsVersion) then .error .informed
    else .error .refused

/-- An option by its full name, with the value that follows an equals sign. -/
def longOption? (argument : String) : Option (String × Option String) :=
  (Text.dropStart? "--" argument).map fun body =>
    match Text.splitOnce "=" body with
    | some (name, value) => (name, some value)
    | none => (body, none)

/-- One-letter options. A single hyphen is an ordinary argument. -/
def letters? (argument : String) : Option (List Char) :=
  match argument.toList with
  | '-' :: letter :: rest => some (letter :: rest)
  | _ => none

/-- An argument in the place of a path. There are four, and none is empty. -/
def Given.addPath (given : Given) (path : String) : Except Invocation Given :=
  if path.isEmpty || given.paths.length = 4 then .error .refused
  else .ok { given with paths := given.paths ++ [path] }

/-- An option is given once at most. -/
def Given.addOption (given : Given) (option : PathOption) (value : String) :
    Except Invocation Given :=
  if value.isEmpty || (given.options.lookup option).isSome then .error .refused
  else .ok { given with options := (option, value) :: given.options }

def Given.finish (given : Given) : Invocation :=
  match given.paths with
  | [catalog, devices, driversRoot, destination] =>
    let request : Request := {
      format := .toml
      catalog, devices, driversRoot, destination
      dependencies? := given.options.lookup .dependencies
      allowList? := given.options.lookup .allowList
      settings? := given.options.lookup .settings }
    .generate request given.verbosity
  | _ => .refused

/-- What the arguments from here on do, once `step` has been taken. -/
def andThen (step : Except Invocation Given) (next : Given → Invocation) : Invocation :=
  match step with
  | .ok given => next given
  | .error invocation => invocation

/-- The arguments of the generating command. After `--` there are only paths. -/
def readGenerate (ended : Bool) (given : Given) : List String → Invocation
  | [] => given.finish
  | argument :: rest =>
    if ended then andThen (given.addPath argument) (readGenerate true · rest)
    else if argument == "--" then readGenerate true given rest
    else match longOption? argument, letters? argument with
      | some ("help", none), _ => .informed
      | some ("verbose", none), _ =>
        readGenerate false { given with verbosityAfter := given.verbosityAfter + 1 } rest
      | some (name, value?), _ =>
        match PathOption.ofName? name with
        | none => .refused
        | some option =>
          match value? with
          | some value => andThen (given.addOption option value) (readGenerate false · rest)
          | none =>
            match rest with
            | [] => .refused
            | value :: rest =>
              if (letters? value).isSome then .refused
              else andThen (given.addOption option value) (readGenerate false · rest)
      | none, some letters =>
        match readLetters false given.verbosityAfter letters with
        | .ok verbosityAfter => readGenerate false { given with verbosityAfter } rest
        | .error invocation => invocation
      | none, none => andThen (given.addPath argument) (readGenerate false · rest)

/-- Help may be asked for about a command. -/
def readHelp : List String → Invocation
  | [] => .informed
  | [command] => if command == "hal-gen" || command == "help" then .informed else .refused
  | _ => .refused

/-- The arguments before the command. -/
def read (verbosity : Nat) : List String → Invocation
  | [] => .refused
  | argument :: rest =>
    match longOption? argument, letters? argument with
    | some ("help", none), _ => .informed
    | some ("version", none), _ => .informed
    | some ("verbose", none), _ => read (verbosity + 1) rest
    | some _, _ => .refused
    | none, some letters =>
      match readLetters true verbosity letters with
      | .ok verbosity => read verbosity rest
      | .error invocation => invocation
    | none, none =>
      if argument == "hal-gen" then readGenerate false { verbosityBefore := verbosity } rest
      else if argument == "help" then readHelp rest
      else .refused

/-- What is left of a run: an exit code, and the lines for both outputs. -/
structure Report where
  code : UInt32
  output : List String := []
  errors : List String := []
  deriving DecidableEq

def usage : List String :=
  ["Usage: [-v]... hal-gen [OPTIONS] <DSL> <DEVICES> <DRIVERS_ROOT> <DEST>", "",
    "Options:",
    "      --dependencies-file <PATH>  Also write a dependency manifest for a table source",
    "      --allow-list <PATH>         Allow-list for the bindings",
    "      --config <PATH>             Compiler configuration",
    "  -v, --verbose...                More log output; repeat for more detail",
    "  -h, --help                      Print help"]

/-- A failure with what lies behind it, from the outside in. -/
def failureReport (context : List String) (failure : Failure) : Report :=
  let chain := context ++ failure.message :: failure.cause?.toList
  { code := 1, errors := ["Error: " ++ String.intercalate ": " chain] }

def successReport (request : Request) : Report :=
  { code := 0
    output := s!"Output written to: {request.destination}" ::
      request.dependencies?.toList.map fun path => s!"Dependencies written to: {path}" }

/-- Compiles a request. Only tables have a dependency file beside them. -/
def generate (request : Request) : Program Report :=
  match Artifact.ofPath request.destination with
  | .error name => return failureReport [] (.unknownArtifact name)
  | .ok artifact => do
    if request.dependencies?.isSome && !artifact.isTable then
      let reason := s!"only applies to table sources, not {request.destination}"
      return { code := 1, errors := [s!"Error: --dependencies-file {reason}"] }
    else match ← request.compile.run with
      | .ok () => return successReport request
      | .error failure =>
        return failureReport [s!"failed to generate {request.destination}"] failure

def Invocation.run : Invocation → Program Report
  | refused => return { code := 2, errors := usage }
  | informed => return { code := 0, output := usage }
  | generate request _ => CommandLine.generate request

/-- Whether messages of a severity are shown. -/
def Invocation.shows : Invocation → Severity → Bool
  | generate _ verbosity, .info => 1 ≤ verbosity
  | generate _ verbosity, .debug => 2 ≤ verbosity
  | _, _ => true

/-- All that a run prints to its output: the messages that are shown, then the report. -/
def Invocation.printed (invocation : Invocation) (messages : List LogMessage) (report : Report) :
    String :=
  let shown := messages.filter fun message => invocation.shows message.severity
  Text.ofLines (shown.map LogMessage.line ++ report.output)

end RegisterCatalog.CommandLine
