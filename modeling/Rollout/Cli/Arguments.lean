import Rollout.Parameter

/-! The command line: a command with its options and at most one path. -/

namespace Rollout.Cli

inductive OutputFormat
  | text
  | json
deriving DecidableEq

inductive CommandName
  | validate
  | deploy
  | delete
deriving DecidableEq

namespace CommandName

def ofName? : String → Option CommandName
  | "validate" => some .validate
  | "deploy" => some .deploy
  | "delete" => some .delete
  | _ => none

/-- The file that is read if none is named. -/
def defaultPath : CommandName → String
  | .delete => "delete.kdl"
  | _ => "manifest.kdl"

def takesEnvironments : CommandName → Bool
  | .delete => false
  | _ => true

def takesConcurrency : CommandName → Bool
  | .validate => false
  | _ => true

end CommandName

/-- What to do. -/
structure Invocation where
  command : CommandName
  path : String
  /-- The environments asked for; none means all. -/
  environments : List String
  /-- How many configs or entries may be worked on at once. It makes no difference to the commands,
  whose platform answers each request before the next one is made. -/
  concurrency : Nat
  output : OutputFormat
  verbose : Bool

/-- Why nothing is done. -/
inductive Usage
  | helpRequested
  | misused (explanation : String)
deriving DecidableEq

def defaultConcurrency : Nat := 5

def concurrencyVariable : String := "CONFIGIT_CONCURRENCY"

/-- A number from 1 up to the greatest word of 64 bits. -/
def concurrencyOf (text : String) : Except Usage Nat :=
  let s := match text.toList with
    | '+' :: rest => rest
    | s => s
  let n := s.foldl (fun n d => 10 * n + (d.toNat - '0'.toNat)) 0
  if !s.isEmpty && s.all Char.isDigit && 1 ≤ n && n < UInt64.size then .ok n
  else .error (.misused ("invalid concurrency '" ++ text ++ "'"))

def outputOf : String → Except Usage OutputFormat
  | "text" => .ok .text
  | "json" => .ok .json
  | other => .error (.misused ("invalid output format '" ++ other ++ "'"))

/-- The options read so far. -/
structure Options where
  path : Option String
  environments : List String
  concurrency : Option Nat
  output : Option OutputFormat
  verbose : Bool

namespace Options

def empty : Options := ⟨none, [], none, none, false⟩

def repeatedOption (name : String) : Usage := .misused ("option '" ++ name ++ "' is repeated")

def unexpected (argument : String) : Usage := .misused ("unexpected argument '" ++ argument ++ "'")

def addPath (o : Options) (path : String) : Except Usage Options :=
  if o.path.isSome || path.isEmpty then .error (unexpected path)
  else .ok { o with path := some path }

def setVerbose (o : Options) : Except Usage Options :=
  if o.verbose then .error (repeatedOption "--verbose") else .ok { o with verbose := true }

/-- Sets an option that takes a value. -/
def setValue (o : Options) (name value : String) : Except Usage Options :=
  match name with
  | "--environment" => .ok { o with environments := o.environments ++ [value] }
  | "--concurrency" =>
    if o.concurrency.isSome then .error (repeatedOption name)
    else do return { o with concurrency := some (← concurrencyOf value) }
  | "--output" =>
    if o.output.isSome then .error (repeatedOption name)
    else do return { o with output := some (← outputOf value) }
  | _ => .error (unexpected name)

/-- The options of a command that take a value. -/
def valued (command : CommandName) (name : String) : Bool :=
  match name with
  | "--environment" => command.takesEnvironments
  | "--concurrency" => command.takesConcurrency
  | "--output" => true
  | _ => false

end Options

/-- An argument by its looks. -/
inductive Token
  /-- Two dashes alone: only paths follow. -/
  | separator
  | long (name : String) (value : Option String)
  /-- Letters after a single dash. -/
  | short (letters : List Char)
  | plain (text : String)

def tokenOf (argument : String) : Token :=
  match argument.toList with
  | ['-', '-'] => .separator
  | '-' :: '-' :: name =>
    let (name, value) := name.span (· ≠ '=')
    let value := if value.isEmpty then none else some (String.ofList (value.drop 1))
    .long (.ofList ('-' :: '-' :: name)) value
  | '-' :: c :: rest => .short (c :: rest)
  | _ => .plain argument

/-- What an argument after the name of the command comes to. -/
inductive Step
  | done (options : Options)
  /-- An option whose value is the next argument. -/
  | awaiting (options : Options) (name : String)

/-- Reads letters after a single dash. The letter of an option with a value takes the rest of them
as its value, with or without an equals sign. -/
def readLetters (command : CommandName) (o : Options) : List Char → Except Usage Step
  | [] => .ok (.done o)
  | 'v' :: rest => do readLetters command (← o.setVerbose) rest
  | 'h' :: _ => .error .helpRequested
  | 'e' :: rest =>
    if command.takesEnvironments then
      match rest with
      | [] => .ok (.awaiting o "--environment")
      | '=' :: value => do return .done (← o.setValue "--environment" (.ofList value))
      | value => do return .done (← o.setValue "--environment" (.ofList value))
    else .error (Options.unexpected "-e")
  | c :: _ => .error (Options.unexpected (.ofList ['-', c]))

def readLong (command : CommandName) (o : Options) (name : String) (value : Option String) :
    Except Usage Step :=
  if Options.valued command name then
    match value with
    | some value => do return .done (← o.setValue name value)
    | none => .ok (.awaiting o name)
  else
    match name, value with
    | "--verbose", none => do return .done (← o.setVerbose)
    | "--help", none => .error .helpRequested
    | _, _ => .error (Options.unexpected name)

/-- Reads the arguments after the name of the command. -/
def readOptions (command : CommandName) : List String → Options → Except Usage Options
  | [], o => .ok o
  | argument :: rest, o =>
    match tokenOf argument with
    | .separator => rest.foldlM Options.addPath o
    | .plain path => do readOptions command rest (← o.addPath path)
    | .short letters => do awaitValue rest (← readLetters command o letters)
    | .long name value => do awaitValue rest (← readLong command o name value)
where
  /-- Takes the next argument as a value if one is awaited. It may not look like an option. -/
  awaitValue : List String → Step → Except Usage Options
    | rest, .done o => readOptions command rest o
    | [], .awaiting _ name => .error (.misused ("option '" ++ name ++ "' needs a value"))
    | value :: rest, .awaiting o name =>
      match tokenOf value with
      | .plain value => do readOptions command rest (← o.setValue name value)
      | _ => .error (.misused ("option '" ++ name ++ "' needs a value"))

/-- Reads the letters before the name of the command. -/
def readRootLetters (verbose : Bool) : List Char → Except Usage Bool
  | [] => .ok verbose
  | 'v' :: rest =>
    if verbose then .error (Options.repeatedOption "--verbose") else readRootLetters true rest
  | 'h' :: _ => .error .helpRequested
  | c :: _ => .error (Options.unexpected (.ofList ['-', c]))

/-- What `help` comes to, which may name a command after it. -/
def helpUsage : List String → Usage
  | [] => .helpRequested
  | [name] =>
    if name = "help" || (CommandName.ofName? name).isSome then .helpRequested
    else .misused ("unrecognized command '" ++ name ++ "'")
  | _ => .misused "'help' takes one command"

/-- Reads the arguments up to the name of the command. -/
def readCommand (verbose : Bool) : List String → Except Usage (Bool × CommandName × List String)
  | [] => .error (.misused "a command is required")
  | argument :: rest =>
    match tokenOf argument with
    | .separator => .error (.misused "a command is required")
    | .plain "help" => .error (helpUsage rest)
    | .plain name =>
      match CommandName.ofName? name with
      | some command => .ok (verbose, command, rest)
      | none => .error (.misused ("unrecognized command '" ++ name ++ "'"))
    | .short letters => do readCommand (← readRootLetters verbose letters) rest
    | .long "--verbose" none =>
      if verbose then .error (Options.repeatedOption "--verbose") else readCommand true rest
    | .long "--help" none => .error .helpRequested
    | .long name _ => .error (Options.unexpected name)

/-- The concurrency that is asked for: by an option, by an environment variable, or not at all. -/
def concurrencyFor (command : CommandName) (vars : Variables) (o : Options) :
    Except Usage Nat :=
  match o.concurrency with
  | some n => .ok n
  | none =>
    if command.takesConcurrency then
      match vars concurrencyVariable with
      | some text => concurrencyOf text
      | none => .ok defaultConcurrency
    else .ok defaultConcurrency

/-- Reads a command line. -/
def parse (vars : Variables) (arguments : List String) : Except Usage Invocation := do
  let (verbose, command, rest) ← readCommand false arguments
  let o ← readOptions command rest Options.empty
  let concurrency ← concurrencyFor command vars o
  return {
    command
    path := o.path.getD command.defaultPath
    environments := o.environments
    concurrency
    output := o.output.getD .text
    verbose := verbose || o.verbose }

end Rollout.Cli
